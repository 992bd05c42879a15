import Mathlib.Data.List.Basic
import FlannelNg.Netlink

/-! MAC addresses as text. They are written with colons between the bytes; of what the crate
reads this covers the form with colons and the one of plain digits. -/
namespace FlannelNg.MacText

def hexDigit (d : Nat) : Char := if d < 10 then Char.ofNat (48 + d) else Char.ofNat (55 + d)

def hexValue (c : Char) : Option Nat :=
  if c.isDigit then some (c.toNat - 48)
  else if 'A' ≤ c ∧ c ≤ 'F' then some (c.toNat - 55)
  else if 'a' ≤ c ∧ c ≤ 'f' then some (c.toNat - 87)
  else none

/- The last digits of a number. -/
def digits : (count n : Nat) → List Nat
  | 0, _ => []
  | count + 1, n => digits count (n / 16) ++ [n % 16]

/- A colon after each pair but the last. -/
def colons : List Char → List Char
  | a :: b :: c :: rest => a :: b :: ':' :: colons (c :: rest)
  | rest => rest

def uncolons : List Char → List Char
  | a :: b :: ':' :: rest => a :: b :: uncolons rest
  | rest => rest

def format (mac : MacAddr6) : String := String.ofList (colons ((digits 12 mac.toNat).map hexDigit))

def parse (text : String) : Option MacAddr6 := do
  let digits ← (uncolons text.toList).mapM hexValue
  if digits.length = 12 then some (BitVec.ofNat 48 (digits.foldl (fun n d => 16 * n + d) 0)) else none

theorem hexRead : ∀ d < 16, hexValue (hexDigit d) = some d := by decide

theorem uncolonsColons {text : List Char} : uncolons (colons text) = text := by
  fun_induction colons text with
  | case1 a b c rest ih => rw [uncolons, ih]
  | case2 rest short =>
    unfold uncolons
    split
    · rename_i a b rest
      exact absurd rfl (short a b ':' rest)
    · rfl

theorem digitsLength {count n : Nat} : (digits count n).length = count := by
  induction count generalizing n with
  | zero => rfl
  | succ count ih => rw [digits, List.length_append, ih, List.length_singleton]

theorem digitsRead {count n : Nat} : ((digits count n).map hexDigit).mapM hexValue = some (digits count n) := by
  induction count generalizing n with
  | zero => rfl
  | succ count ih =>
    rw [digits, List.map_append, List.mapM_append, ih]
    simp [hexRead _ (Nat.mod_lt n (by decide : 0 < 16))]

theorem digitsValue {count n : Nat} : (digits count n).foldl (fun n d => 16 * n + d) 0 = n % 16 ^ count := by
  induction count generalizing n with
  | zero => rw [digits, List.foldl_nil, Nat.pow_zero, Nat.mod_one]
  | succ count ih =>
    rw [digits, List.foldl_append, ih, List.foldl_cons, List.foldl_nil, Nat.pow_succ, Nat.mul_comm _ 16, Nat.mod_mul,
      Nat.add_comm]

theorem readsBack (mac : MacAddr6) : parse (format mac) = some mac := by
  have whole : mac.toNat % 16 ^ 12 = mac.toNat := Nat.mod_eq_of_lt mac.isLt
  simp only [parse, format, String.toList_ofList, uncolonsColons, digitsRead, bind, Option.bind_some, digitsLength, if_true,
    digitsValue, whole, BitVec.ofNat_toNat, BitVec.setWidth_eq]
end FlannelNg.MacText
