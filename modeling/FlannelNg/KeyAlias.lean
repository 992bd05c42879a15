import FlannelNg.SubnetKey

/-! Which keys are read as subnets. The range that is read has no slash at its end, and the
pattern looks at the end of a key only and takes numbers with zeros in front: other keys
than those of the registry are read as subnets, too. -/
namespace FlannelNg
open Cidr Outcome Regex

/-- Behind the directory there are digits and three dots, a dash, and a number without
superfluous zeros. -/
structure Tidy (pre key : List Char) (addr len : List Char) : Prop where
  whole : key = subnetDir pre ++ (addr ++ '-' :: len)
  address : ∀ c ∈ addr, c.isDigit = true ∨ c = '.'
  dots : addr.count '.' = 3
  length : AllDigits len
  unpadded : Unpadded len

def IsTidy (pre key : List Char) : Prop := ∃ addr len, Tidy pre key addr len

namespace TextCrates
variable {crates : TextCrates} {pre key addr len front m : List Char} {sn : Ipv4Network} {ip : Ipv4Addr}

theorem dottedDots : (dotted ip).count '.' = 3 := by
  have none_ : ∀ n, (decimal n).count '.' = 0 := fun n => List.count_eq_zero.mpr (notInDecimal rfl n)
  simp [dotted, none_]

theorem dottedChars {c : Char} (member : c ∈ dotted ip) : c.isDigit = true ∨ c = '.' := by
  simp only [dotted, List.mem_append, List.mem_cons] at member
  rcases member with digit | dot | digit | dot | digit | dot | digit
  all_goals first | exact .inl (decimalDigits c digit) | exact .inr dot

theorem ownKeyTidy : Tidy pre (subnetKey pre sn) (dotted sn.ip) (decimal sn.prefixLen) where
  whole := subnetKeyIs pre sn
  address := fun _ => dottedChars
  dots := dottedDots
  length := decimalDigits
  unpadded := decimalUnpadded

/- More digits in front of the address would belong to the match. -/
theorem noDigitsInFront (digits : ∀ c ∈ m, c.isDigit = true) (length : crates.Digits len)
    (none_ : crates.subnetPattern.NoneBefore (front ++ m) (dotted ip ++ '-' :: len)) : m = [] := by
  by_contra some_
  have address : crates.Address (m ++ dotted ip) := by
    refine ⟨m ++ decimal (octet ip 3), decimal (octet ip 2), decimal (octet ip 1), decimal (octet ip 0), '.', '.',
      (List.append_assoc ..).symm, ?_, decimalIsDigits, decimalIsDigits, decimalIsDigits, rfl, rfl⟩
    refine ⟨by simp [some_], fun c member => ?_⟩
    rcases List.mem_append.mp member with inFront | inNumber
    · exact asciiDigit (digits c inFront)
    · exact decimalIsDigits.2 c inNumber
  refine none_ front (m ++ (dotted ip ++ '-' :: len)) (List.append_assoc ..) ?_ ?_
  · have some_ := List.length_pos_iff.mpr some_
    rw [List.length_append]
    omega
  · rw [← List.append_assoc]
    exact entryStarts (.v4 address length)

theorem tidyIsOwn (read : crates.extractIpAndSubnet key = .ok (sn, none)) (tidy : Tidy pre key addr len) :
    key = subnetKey pre sn := by
  obtain ⟨front, len', split, some_, all, same, none_⟩ := extractV4.mp read
  have length : crates.Digits len' := ⟨some_, fun c member => asciiDigit (all c member)⟩
  have dash : '-' ∉ len' ∧ '-' ∉ len :=
    ⟨fun member => absurd (all '-' member) (by decide), fun member => absurd (tidy.length '-' member) (by decide)⟩
  -- the last dash divides the key in one way
  have divided : front ++ dotted sn.ip = subnetDir pre ++ addr ∧ len' = len := by
    refine splitAtLast dash.1 dash.2 ?_
    rw [List.append_assoc, List.append_assoc, ← split, tidy.whole]
  obtain ⟨ends, rfl⟩ := divided
  have front_ : front = subnetDir pre ∧ addr = dotted sn.ip := by
    rcases List.append_eq_append_iff.mp ends with ⟨m, dir, address⟩ | ⟨m, rfl, rfl⟩
    · -- what the address would have of the directory ends with its slash
      cases m using List.reverseRecOn with
      | nil => exact ⟨(List.append_nil front ▸ dir).symm, address.symm⟩
      | append_singleton m c =>
        rw [subnetDir, ← List.append_assoc] at dir
        obtain ⟨_, slash⟩ := List.append_inj' dir rfl
        cases List.singleton_inj.mp slash
        have member : '/' ∈ dotted sn.ip := address ▸ by simp
        exact absurd member (notInDotted rfl (by decide) _)
    · have dots := tidy.dots
      rw [List.count_append, dottedDots] at dots
      have digits : ∀ c ∈ m, c.isDigit = true := fun c member => by
        rcases tidy.address c (List.mem_append_left _ member) with digit | rfl
        · exact digit
        · exact absurd member (List.count_eq_zero.mp (by omega))
      obtain rfl := noDigitsInFront digits length none_
      exact ⟨List.append_nil _, rfl⟩
  obtain ⟨rfl, rfl⟩ := front_
  rw [tidy.whole, subnetKeyIs, subnetName, ← same, decimalValue some_ all tidy.unpadded]

theorem readsOwnKeysIff (pre : List Char) (read : crates.extractIpAndSubnet key = .ok (sn, none)) :
    (key = subnetKey pre sn ↔ IsTidy pre key) ∧
      ((∀ other, crates.extractIpAndSubnet other = .ok (sn, none) → IsTidy pre other → other = key) ↔ IsTidy pre key) := by
  have own : ∀ {k}, crates.extractIpAndSubnet k = .ok (sn, none) → (k = subnetKey pre sn ↔ IsTidy pre k) := by
    intro k read
    constructor
    · rintro rfl
      exact ⟨_, _, ownKeyTidy⟩
    · rintro ⟨addr, len, tidy⟩
      exact tidyIsOwn read tidy
  refine ⟨own read, fun alone => ?_, fun tidy other readOther tidyOther => ?_⟩
  · have same := alone (subnetKey pre sn) (extractSubnetKey crates pre sn) ⟨_, _, ownKeyTidy⟩
    exact (own read).mp same.symm
  · exact ((own readOther).mpr tidyOther).trans ((own read).mpr tidy).symm

end TextCrates

private def etcdPrefix : List Char := ['/', 'p']

private def paddedKey : List Char := subnetDir etcdPrefix ++ ['1', '0', '.', '0', '.', '0', '.', '0', '-', '0', '2', '4']

private def siblingKey : List Char :=
  subnetsKey etcdPrefix ++ ['-', 'o', 'l', 'd', '/', '1', '0', '.', '0', '.', '0', '.', '0', '-', '2', '4']

/- Two keys of the range that are read as 10.0.0.0/24 beside its own. -/
theorem otherKeysRead :
    ((subnetsKey etcdPrefix).isPrefixOf paddedKey = true ∧
      TextCrates.plain.extractIpAndSubnet paddedKey = .ok (cidr 0x0A000000 24, none) ∧
      paddedKey ≠ subnetKey etcdPrefix (cidr 0x0A000000 24)) ∧
    ((subnetsKey etcdPrefix).isPrefixOf siblingKey = true ∧
      TextCrates.plain.extractIpAndSubnet siblingKey = .ok (cidr 0x0A000000 24, none) ∧
      siblingKey ≠ subnetKey etcdPrefix (cidr 0x0A000000 24)) := by
  decide

theorem paddedKeyUntidy : ¬IsTidy etcdPrefix paddedKey ∧ IsTidy etcdPrefix (subnetKey etcdPrefix (cidr 0x0A000000 24)) := by
  have read : TextCrates.plain.extractIpAndSubnet paddedKey = .ok (cidr 0x0A000000 24, none) := by decide
  have own : TextCrates.plain.extractIpAndSubnet (subnetKey etcdPrefix (cidr 0x0A000000 24)) =
    .ok (cidr 0x0A000000 24, none) := by decide
  exact ⟨fun tidy => absurd ((TextCrates.readsOwnKeysIff etcdPrefix read).1.mpr tidy) (by decide),
    (TextCrates.readsOwnKeysIff etcdPrefix own).1.mp rfl⟩

end FlannelNg
