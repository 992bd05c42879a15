import FlannelNg.Lib.Dotted

/-! Reading numbers and IPv4 addresses back as `u8::from_str` and `Ipv4Addr::from_str`
do: an octet of an address has no superfluous zeros in front, a number may have them. -/
namespace FlannelNg.Cidr

def value (digits : List Char) : Nat := Nat.ofDigitChars 10 digits 0

def AllDigits (text : List Char) : Prop := ∀ c ∈ text, c.isDigit = true

/- No zero in front of other digits. -/
def Unpadded (digits : List Char) : Prop := digits.head? = some '0' → digits = ['0']

instance (text) : Decidable (AllDigits text) := decidable_of_iff (text.all Char.isDigit = true) List.all_eq_true
instance (digits) : Decidable (Unpadded digits) := by unfold Unpadded; infer_instance

def withoutPlus : List Char → List Char
  | '+' :: rest => rest
  | text => text

/- `u8::from_str` -/
def u8FromStr (text : List Char) : Option Nat :=
  let digits := withoutPlus text
  if digits ≠ [] ∧ AllDigits digits ∧ value digits < 256 then some (value digits) else none

def octetFromStr (digits : List Char) : Option Nat :=
  if digits ≠ [] ∧ AllDigits digits ∧ Unpadded digits ∧ value digits < 256 then some (value digits) else none

def ofOctets (o₃ o₂ o₁ o₀ : Nat) : Ipv4Addr := BitVec.ofNat 32 (((o₃ * 256 + o₂) * 256 + o₁) * 256 + o₀)

/- `Ipv4Addr::from_str` -/
def ipv4AddrFromStr (text : List Char) : Option Ipv4Addr :=
  match text.splitOn '.' with
  | [t₃, t₂, t₁, t₀] => do
    let o₃ ← octetFromStr t₃
    let o₂ ← octetFromStr t₂
    let o₁ ← octetFromStr t₁
    let o₀ ← octetFromStr t₀
    return ofOctets o₃ o₂ o₁ o₀
  | _ => none

variable {text digits : List Char} {n : Nat} {ip : Ipv4Addr}

theorem valueDecimal : value (decimal n) = n := Nat.ofDigitChars_ten_toDigits

theorem decimalDigits : AllDigits (decimal n) := fun _ mem => Nat.isDigit_of_mem_toDigits (by omega) (by omega) mem

theorem decimalNonempty : decimal n ≠ [] := Nat.toDigits_ne_nil

theorem decimalUnpadded : Unpadded (decimal n) := by
  induction n using Nat.strongRecOn with
  | ind n ih =>
    by_cases small : n < 10
    · have all : ∀ d < 10, Unpadded (decimal d) := by decide
      exact all n small
    · have split : decimal n = decimal (n / 10) ++ [Nat.digitChar (n % 10)] := Nat.toDigits_of_base_le (by omega) (by omega)
      intro zero
      rw [split, List.head?_append_of_ne_nil _ decimalNonempty] at zero
      -- the digits in front would be those of 0
      have front := ih (n / 10) (by omega) zero
      have none_ : n / 10 = 0 := decimalInj (front.trans (by decide : ['0'] = decimal 0))
      omega

theorem digitOf {c : Char} (digit : c.isDigit = true) : ∃ d < 10, c = Nat.digitChar d := by
  obtain ⟨low, high⟩ := Char.isDigit_iff_toNat.mp digit
  have bounds : 48 ≤ c.toNat ∧ c.toNat ≤ 57 := ⟨low, high⟩
  refine ⟨c.toNat - 48, by omega, Char.toNat_inj.mp ?_⟩
  rw [Nat.toNat_digitChar_of_lt_ten (by omega)]
  omega

/- Digits without superfluous zeros are what their value prints. -/
theorem decimalValue (nonempty : digits ≠ []) (all : AllDigits digits) (unpadded : Unpadded digits) :
    decimal (value digits) = digits := by
  induction digits using List.reverseRecOn with
  | nil => exact absurd rfl nonempty
  | append_singleton front c ih =>
    obtain ⟨d, small, rfl⟩ := digitOf (all c (by simp))
    have last : decimal d = [Nat.digitChar d] := Nat.toDigits_of_lt_base small
    by_cases alone : front = []
    · rw [alone, List.nil_append, ← last, valueDecimal]
    · have unpadded' : front.head? ≠ some '0' := fun zero => by
        have short := congrArg List.length (unpadded ((List.head?_append_of_ne_nil _ alone).trans zero))
        simp [alone] at short
      have front_ := ih alone (fun c mem => all c (List.mem_append_left _ mem)) (fun zero => absurd zero unpadded')
      have positive : 0 < value front := by
        rw [Nat.pos_iff_ne_zero]
        intro none_
        rw [none_] at front_
        exact unpadded' (front_ ▸ rfl)
      have more : decimal (value front) ++ decimal d = decimal (10 * value front + d) :=
        Nat.toDigits_append_toDigits (by omega) positive small
      rw [front_, last] at more
      rw [more, valueDecimal]

theorem u8FromIff (unsigned : '+' ∉ text) : u8FromStr text = some n ↔
    text ≠ [] ∧ AllDigits text ∧ value text = n ∧ n < 256 := by
  have same : withoutPlus text = text := by
    unfold withoutPlus
    split
    · exact absurd List.mem_cons_self unsigned
    · rfl
  simp only [u8FromStr, same]
  constructor
  · intro read
    split at read
    · rename_i allowed
      cases Option.some.inj read
      exact ⟨allowed.1, allowed.2.1, rfl, allowed.2.2⟩
    · contradiction
  · rintro ⟨nonempty, all, rfl, small⟩
    rw [if_pos ⟨nonempty, all, small⟩]

theorem octetFromIff : octetFromStr digits = some n ↔ digits = decimal n ∧ n < 256 := by
  unfold octetFromStr
  constructor
  · intro read
    split at read
    · rename_i allowed
      obtain ⟨nonempty, all, unpadded, small⟩ := allowed
      cases Option.some.inj read
      exact ⟨(decimalValue nonempty all unpadded).symm, small⟩
    · contradiction
  · rintro ⟨rfl, small⟩
    rw [valueDecimal, if_pos ⟨decimalNonempty, decimalDigits, decimalUnpadded, small⟩]

theorem octetLt {i : Nat} : octet ip i < 256 := Nat.mod_lt _ (by omega)

theorem ofOctetsIs : ofOctets (octet ip 3) (octet ip 2) (octet ip 1) (octet ip 0) = ip := by
  have bound := ip.isLt
  apply BitVec.eq_of_toNat_eq
  simp only [ofOctets, octet, BitVec.toNat_ofNat]
  omega

theorem octetsOf {o₃ o₂ o₁ o₀ : Nat} (h₃ : o₃ < 256) (h₂ : o₂ < 256) (h₁ : o₁ < 256) (h₀ : o₀ < 256) :
    dotted (ofOctets o₃ o₂ o₁ o₀) =
      decimal o₃ ++ '.' :: (decimal o₂ ++ '.' :: (decimal o₁ ++ '.' :: decimal o₀)) := by
  have whole : (ofOctets o₃ o₂ o₁ o₀).toNat = ((o₃ * 256 + o₂) * 256 + o₁) * 256 + o₀ := by
    rw [ofOctets, BitVec.toNat_ofNat]
    omega
  have o3 : octet (ofOctets o₃ o₂ o₁ o₀) 3 = o₃ := by rw [octet, whole]; omega
  have o2 : octet (ofOctets o₃ o₂ o₁ o₀) 2 = o₂ := by rw [octet, whole]; omega
  have o1 : octet (ofOctets o₃ o₂ o₁ o₀) 1 = o₁ := by rw [octet, whole]; omega
  have o0 : octet (ofOctets o₃ o₂ o₁ o₀) 0 = o₀ := by rw [octet, whole]; omega
  rw [dotted, o3, o2, o1, o0]

/- The four parts of a dotted text. -/
theorem dottedParts : dotted ip =
    ['.'].intercalate [decimal (octet ip 3), decimal (octet ip 2), decimal (octet ip 1), decimal (octet ip 0)] := by
  simp [dotted, List.intercalate]

theorem ipv4AddrFromIff : ipv4AddrFromStr text = some ip ↔ text = dotted ip := by
  unfold ipv4AddrFromStr
  constructor
  · intro read
    split at read
    · rename_i t₃ t₂ t₁ t₀ parts
      have whole : ['.'].intercalate (text.splitOn '.') = text := List.intercalate_splitOn '.'
      rw [parts] at whole
      simp only [bind, Option.bind_eq_some_iff, octetFromIff] at read
      obtain ⟨o₃, ⟨rfl, h₃⟩, o₂, ⟨rfl, h₂⟩, o₁, ⟨rfl, h₁⟩, o₀, ⟨rfl, h₀⟩, last⟩ := read
      cases Option.some.inj last
      rw [octetsOf h₃ h₂ h₁ h₀, ← whole]
      simp [List.intercalate]
    · contradiction
  · rintro rfl
    have parts : (dotted ip).splitOn '.' =
        [decimal (octet ip 3), decimal (octet ip 2), decimal (octet ip 1), decimal (octet ip 0)] := by
      rw [dottedParts]
      refine List.splitOn_intercalate '.' ?_ (by simp)
      simp [notInDecimal (c := '.') rfl]
    have read : ∀ i, octetFromStr (decimal (octet ip i)) = some (octet ip i) := fun i => octetFromIff.mpr ⟨rfl, octetLt⟩
    simp only [parts, read, bind, Option.bind_some, ofOctetsIs]
    rfl

end FlannelNg.Cidr
