import FlannelNg.Lib.Cidr

/-! Decimal and dotted-decimal text, as `{}` prints integers and IPv4 addresses.
Both determine what they print, also in front of a separator. -/
namespace FlannelNg.Cidr

def decimal (n : Nat) : List Char := Nat.toDigits 10 n

def octet (a : Ipv4Addr) (i : Nat) : Nat := a.toNat / 256 ^ i % 256

def dotted (a : Ipv4Addr) : List Char :=
  decimal (octet a 3) ++ '.' :: (decimal (octet a 2) ++ '.' :: (decimal (octet a 1) ++ '.' :: decimal (octet a 0)))

theorem splitAt {α : Type} {c : α} {xs ys us vs : List α} (left : c ∉ xs) (right : c ∉ ys)
    (same : xs ++ c :: us = ys ++ c :: vs) : xs = ys ∧ us = vs := by
  induction xs generalizing ys with
  | nil =>
    cases ys with
    | nil => exact ⟨rfl, (List.cons.inj same).2⟩
    | cons y ys => exact absurd (List.cons.inj same).1 (fun h => right (by simp [h]))
  | cons x xs ih =>
    cases ys with
    | nil => exact absurd (List.cons.inj same).1 (fun h => left (by simp [h]))
    | cons y ys =>
      obtain ⟨head, tail⟩ := List.cons.inj same
      simp only [List.mem_cons, not_or] at left right
      obtain ⟨rest, after⟩ := ih left.2 right.2 tail
      exact ⟨by rw [head, rest], after⟩

theorem splitAtLast {α : Type} {c : α} {xs ys us vs : List α} (left : c ∉ us) (right : c ∉ vs)
    (same : xs ++ c :: us = ys ++ c :: vs) : xs = ys ∧ us = vs := by
  have mirrored := congrArg List.reverse same
  simp only [List.reverse_append, List.reverse_cons, List.append_assoc, List.singleton_append] at mirrored
  obtain ⟨after, front⟩ := splitAt (mt List.mem_reverse.mp left) (mt List.mem_reverse.mp right) mirrored
  exact ⟨List.reverse_injective front, List.reverse_injective after⟩

theorem decimalInj {m n : Nat} (same : decimal m = decimal n) : m = n := by
  have h := congrArg (fun cs => Nat.ofDigitChars 10 cs 0) same
  simpa only [decimal, Nat.ofDigitChars_ten_toDigits] using h

theorem notInDecimal {c : Char} (other : c.isDigit = false) (n : Nat) : c ∉ decimal n := by
  intro member
  have digit := Nat.isDigit_of_mem_toDigits (by omega) (by omega) member
  rw [other] at digit
  contradiction

theorem notInDotted {c : Char} (other : c.isDigit = false) (dot : c ≠ '.') (a : Ipv4Addr) : c ∉ dotted a := by
  simp [dotted, notInDecimal other, dot]

theorem octetsInj {a b : Ipv4Addr} (h0 : octet a 0 = octet b 0) (h1 : octet a 1 = octet b 1)
    (h2 : octet a 2 = octet b 2) (h3 : octet a 3 = octet b 3) : a = b := by
  have ha := a.isLt
  have hb := b.isLt
  simp only [octet] at *
  apply BitVec.eq_of_toNat_eq
  omega

theorem dottedInj {a b : Ipv4Addr} (same : dotted a = dotted b) : a = b := by
  have sep := fun n => notInDecimal (c := '.') rfl n
  obtain ⟨h3, same⟩ := splitAt (sep _) (sep _) same
  obtain ⟨h2, same⟩ := splitAt (sep _) (sep _) same
  obtain ⟨h1, h0⟩ := splitAt (sep _) (sep _) same
  exact octetsInj (decimalInj h0) (decimalInj h1) (decimalInj h2) (decimalInj h3)

end FlannelNg.Cidr
