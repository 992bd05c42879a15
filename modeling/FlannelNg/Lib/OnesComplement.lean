import Mathlib.Data.Nat.ModEq
import Mathlib.Tactic.Basic

/-! Ones' complement sums of 16-bit words, in which a carry out of the top is added back
at the bottom. Words are pairs of bytes, the high byte first; a last odd byte is high. -/
namespace FlannelNg.OnesComplement

abbrev Bytes := List UInt8

def ones : Nat := 0xFFFF

def add (a b : Nat) : Nat := if a + b ≤ ones then a + b else a + b - ones

def word (high low : UInt8) : Nat := high.toNat * 256 + low.toNat

def words : Bytes → List Nat
  | [] => []
  | [high] => [word high 0]
  | high :: low :: rest => word high low :: words rest

def sum (ws : List Nat) : Nat := ws.foldr add 0

/- The words sum to all ones, as those of a header with its checksum do. -/
def Checks (bytes : Bytes) : Prop := sum (words bytes) = ones

instance (bytes : Bytes) : Decidable (Checks bytes) := inferInstanceAs (Decidable (_ = _))

theorem addMod (a b : Nat) : add a b ≡ a + b [MOD ones] := by
  unfold add
  split
  · rfl
  · rename_i carry
    have back : a + b - ones + ones = a + b := Nat.sub_add_cancel (by omega)
    calc a + b - ones ≡ a + b - ones + ones [MOD ones] := (Nat.add_modEq_right).symm
      _ = a + b := back

theorem sumMod (ws : List Nat) : sum ws ≡ ws.sum [MOD ones] := by
  induction ws with
  | nil => rfl
  | cons w rest ih => exact (addMod w (sum rest)).trans (Nat.ModEq.add_left w ih)

theorem checksDvd {bytes : Bytes} (checks : Checks bytes) : ones ∣ (words bytes).sum := by
  have same := sumMod (words bytes)
  rw [show sum (words bytes) = ones from checks] at same
  exact (Nat.modEq_zero_iff_dvd.mp (same.symm.trans (Nat.modEq_zero_iff_dvd.mpr dvd_rfl)))

/- A high byte counts 256 times. -/
theorem wordsSet {bytes : Bytes} {i : Nat} {old : UInt8} (here : bytes[2 * i]? = some old) (new : UInt8) :
    (words (bytes.set (2 * i) new)).sum + old.toNat * 256 = (words bytes).sum + new.toNat * 256 := by
  induction i generalizing bytes with
  | zero =>
    match bytes, here with
    | [high], here =>
      cases Option.some.inj here
      simp only [Nat.mul_zero, List.set_cons_zero, words, word, List.sum_cons]
      omega
    | high :: low :: rest, here =>
      cases Option.some.inj here
      simp only [Nat.mul_zero, List.set_cons_zero, words, word, List.sum_cons]
      omega
  | succ i ih =>
    match bytes, here with
    | high :: low :: rest, here =>
      have later := @ih rest here
      simp only [show 2 * (i + 1) = 2 * i + 1 + 1 from rfl, List.set_cons_succ, words, List.sum_cons]
      omega

/- Lowering one high byte by one can never keep a sum of all ones. -/
theorem loweredFails {bytes : Bytes} {i : Nat} {old new : UInt8} (checks : Checks bytes)
    (here : bytes[2 * i]? = some old) (lower : new.toNat + 1 = old.toNat) : ¬Checks (bytes.set (2 * i) new) := by
  intro still
  have changed := wordsSet here new
  obtain ⟨a, before⟩ := checksDvd checks
  obtain ⟨b, after⟩ := checksDvd still
  unfold ones at before after
  omega

end FlannelNg.OnesComplement
