import FlannelNg.KeyPattern

/-! The etcd keys of the subnets: a key is a path below the prefix, and reading it back
gives the subnet it was built for. -/
namespace FlannelNg
open Cidr Outcome Regex

/- `PathBuf::push`: an absolute segment replaces the path. -/
def pushPath (path segment : List Char) : List Char :=
  if segment.head? = some '/' then segment
  else match path.getLast? with
    | none => segment
    | some c => if c = '/' then path ++ segment else path ++ '/' :: segment

def subnetsSegment : List Char := ['s', 'u', 'b', 'n', 'e', 't', 's']

/- `join_path!(prefix, "subnets")`, the range that is read and watched -/
def subnetsKey (pre : List Char) : List Char := pushPath (pushPath [] pre) subnetsSegment

/- `join_path!(prefix, "subnets", format!("{}-{}", sn.ip(), sn.prefix()))` -/
def subnetKey (pre : List Char) (sn : Ipv4Network) : List Char := pushPath (subnetsKey pre) (subnetName sn)

/- The directory that the keys are in. -/
def subnetDir (pre : List Char) : List Char := subnetsKey pre ++ ['/']

theorem subnetsKeyShape (pre : List Char) : ∃ base, subnetsKey pre = base ++ subnetsSegment := by
  unfold subnetsKey
  generalize pushPath [] pre = path
  unfold pushPath
  rw [if_neg (by decide)]
  cases path.getLast? with
  | none => exact ⟨[], rfl⟩
  | some c =>
    dsimp only
    split
    · exact ⟨path, rfl⟩
    · exact ⟨path ++ ['/'], by simp⟩

theorem subnetNameHead {sn : Ipv4Network} : (subnetName sn).head? ≠ some '/' := by
  intro slash
  have member := List.mem_of_mem_head? slash
  rw [subnetName, List.mem_append, List.mem_cons] at member
  rcases member with inAddress | dash | inLength
  · exact notInDotted rfl (by decide) _ inAddress
  · exact absurd dash (by decide)
  · exact notInDecimal rfl _ inLength

theorem subnetKeyIs (pre : List Char) (sn : Ipv4Network) : subnetKey pre sn = subnetDir pre ++ subnetName sn := by
  obtain ⟨base, shape⟩ := subnetsKeyShape pre
  have last : (subnetsKey pre).getLast? = some 's' := by
    rw [shape, List.getLast?_append_of_ne_nil _ (by decide)]
    rfl
  rw [subnetKey, pushPath, if_neg subnetNameHead, last, subnetDir]
  simp

namespace TextCrates
variable {crates : TextCrates} {pre post addr len : List Char}

/- A match cannot reach over the directory: the key has too many other characters there. -/
theorem noneInDir : crates.subnetPattern.NoneBefore (subnetDir pre) post := by
  rintro early late same shorter ⟨w, rest, caps, split, derives⟩
  obtain ⟨rfl, entry⟩ := derivesEntry.mp derives
  rw [List.append_nil] at split
  subst split
  obtain ⟨base, shape⟩ := subnetsKeyShape pre
  rw [subnetDir, shape] at same shorter
  rw [List.append_assoc, List.append_assoc, List.append_eq_append_iff] at same
  rcases same with ⟨m, rfl, tail⟩ | ⟨m, rfl, tail⟩
  · -- the match starts within the last segment, and that has no digit
    rw [← List.append_assoc, List.append_eq_append_iff] at tail
    rcases tail with ⟨t, rfl, _⟩ | ⟨t, segment, rfl⟩
    · simp at shorter
    · cases t with
      | nil =>
        have length := congrArg List.length segment
        simp at shorter length
        omega
      | cons d t =>
        have digit := entryHead entry
        have member : d ∈ subnetsSegment ++ ['/'] := segment ▸ (by simp)
        have none_ : (subnetsSegment ++ ['/']).all (fun c => decide (c.toNat < 128) && !c.isDigit) = true := by decide
        have other := List.all_eq_true.mp none_ d member
        rw [Bool.and_eq_true, decide_eq_true_eq, Bool.not_eq_true'] at other
        rw [asciiOther other.1 other.2] at digit
        contradiction
  · have few := foreignEntry entry
    have many : (subnetsSegment ++ ['/']).countP foreign = 5 := by decide
    rw [tail, ← List.append_assoc subnetsSegment, List.countP_append, List.countP_append, many] at few
    omega

theorem extractSubnetKey (crates : TextCrates) (pre : List Char) (sn : Ipv4Network) :
    crates.extractIpAndSubnet (subnetKey pre sn) = .ok (sn, none) :=
  extractV4.mpr ⟨subnetDir pre, decimal sn.prefixLen, by rw [subnetKeyIs, subnetName], decimalNonempty, decimalDigits,
    valueDecimal, noneInDir⟩

theorem subnetKeyRoundTrip (crates : TextCrates) (pre : List Char) (sn : Ipv4Network) :
    crates.extractIpAndSubnet (subnetKey pre sn) = .ok (sn, none) ∧
      ∀ other, subnetKey pre other = subnetKey pre sn → other = sn := by
  refine ⟨extractSubnetKey crates pre sn, fun other same => ?_⟩
  have read := extractSubnetKey crates pre other
  rw [same, extractSubnetKey] at read
  exact (Prod.mk.inj (Except.ok.inj read)).1.symm

/- A text with one slash at most, as what is in front of it and what is behind. -/
def cidrParts (text : List Char) : Option (List Char × Option (List Char)) :=
  match text.dropWhile (· ≠ '/') with
  | [] => some (text, none)
  | _ :: len => if '/' ∈ len then none else some (text.takeWhile (· ≠ '/'), some len)

theorem partsOf (inFront : '/' ∉ addr) : cidrParts (addr ++ '/' :: len) = if '/' ∈ len then none else some (addr, some len) := by
  have passes : ∀ c ∈ addr, (fun c => decide (c ≠ '/')) c = true := fun c member =>
    decide_eq_true (fun slash => inFront (slash ▸ member))
  unfold cidrParts
  rw [List.dropWhile_append_of_pos passes, List.takeWhile_append_of_pos passes]
  simp

/- The crates for text of ASCII digits, without masks in place of lengths. -/
def plain : TextCrates where
  digit := Char.isDigit
  ipv4Network := fun text => (cidrParts text).bind fun (addr, len) =>
    (ipv4AddrFromStr addr).bind fun ip =>
      match len with
      | none => Ipv4Network.new ip 32
      | some len => (u8FromStr len).bind (Ipv4Network.new ip)
  ipv6Network := fun _ => none
  ascii := fun _ _ => rfl
  cidrText := by
    intro addr len digits
    have noSlash : '/' ∉ len := fun member => absurd (digits '/' member) (by decide)
    by_cases inside : '/' ∈ addr
    · have nowhere : ipv4AddrFromStr addr = none := by
        by_contra some_
        obtain ⟨ip, read⟩ := Option.ne_none_iff_exists'.mp some_
        exact notInDotted (c := '/') rfl (by decide) ip (ipv4AddrFromIff.mp read ▸ inside)
      obtain ⟨a, b, rfl, first⟩ := List.eq_append_cons_of_mem inside
      rw [List.append_assoc, List.cons_append, partsOf first, if_pos (by simp), nowhere]
      rfl
    · rw [partsOf inside, if_neg noSlash]
      rfl

/- The prefix holds digits, dots and dashes, as an address does. -/
private def dottedPrefix : List Char := "/flannel-2/10.1.2.3-24/net.v1-0".toList

theorem plainKeyRoundTrip :
    plain.extractIpAndSubnet (subnetKey dottedPrefix (cidr 0x0A05E700 24)) = .ok (cidr 0x0A05E700 24, none) ∧
      ∀ other, subnetKey dottedPrefix other = subnetKey dottedPrefix (cidr 0x0A05E700 24) → other = cidr 0x0A05E700 24 :=
  subnetKeyRoundTrip plain dottedPrefix (cidr 0x0A05E700 24)

end TextCrates

/-- How attributes are written as values, and read back with an error or a result. -/
structure ValueCodec (V : Type) where
  toVec : LeaseAttrs → V
  fromSlice : V → Except String LeaseAttrs

/- The registry below an etcd prefix. -/
def textCodec {V : Type} (crates : TextCrates) (values : ValueCodec V) (pre : List Char) : Codec (List Char) V where
  key := subnetKey pre
  extractIpAndSubnet := crates.extractIpAndSubnet
  toVec := values.toVec
  fromSlice := fun v => (values.fromSlice v).mapError Stop.bail
  before := fun a b => decide (a < b)
  startsWith := fun k start => start.isPrefixOf k

section Codec
variable {V : Type} {crates : TextCrates} {values : ValueCodec V} {pre : List Char} {a b : Ipv4Network}

/- On the keys of subnets it compares the names, as the plain codec does. -/
theorem textStartsWith : (textCodec crates values pre).startsWith (subnetKey pre a) (subnetKey pre b) =
    Codec.plain.startsWith a b := by
  rw [Bool.eq_iff_iff]
  change (subnetKey pre b).isPrefixOf (subnetKey pre a) = true ↔ (subnetName b).isPrefixOf (subnetName a) = true
  rw [List.isPrefixOf_iff_prefix, List.isPrefixOf_iff_prefix, subnetKeyIs, subnetKeyIs, List.prefix_append_right_inj]

theorem textBefore : (textCodec crates values pre).before (subnetKey pre a) (subnetKey pre b) =
    Codec.plain.before a b := by
  have behind : ∀ dir xs ys : List Char, dir ++ xs < dir ++ ys ↔ xs < ys := by
    intro dir xs ys
    induction dir with
    | nil => exact Iff.rfl
    | cons c dir ih => exact List.cons_lt_cons_self.trans ih
  change decide _ = decide _
  rw [decide_eq_decide, subnetKeyIs, subnetKeyIs]
  exact behind _ _ _

end Codec
end FlannelNg
