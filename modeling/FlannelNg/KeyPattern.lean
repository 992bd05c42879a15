import FlannelNg.Etcd
import FlannelNg.Lib.ReadText
import FlannelNg.Lib.Regex

/-! How a key is read as a subnet: by a pattern that is bound to the end of the key only,
and then by the crate for networks. -/
namespace FlannelNg
open Cidr Outcome Regex

/-- What the crates for patterns and networks do: `\d` is a decimal digit of any script, and
an IPv4 network is read as an address and the number behind the slash. -/
structure TextCrates where
  digit : Char → Bool
  ipv4Network : List Char → Option Ipv4Network
  ipv6Network : List Char → Option Ipv6Network
  ascii : ∀ c : Char, c.toNat < 128 → digit c = c.isDigit
  cidrText : ∀ addr len, (∀ c ∈ len, digit c = true) → ipv4Network (addr ++ '/' :: len) =
    (ipv4AddrFromStr addr).bind (fun ip => (u8FromStr len).bind (Ipv4Network.new ip))

namespace TextCrates
variable (crates : TextCrates)

def isChar (c : Char) : Char → Bool := fun x => x = c

def anyChar : Char → Bool := fun x => x ≠ '\n'

/- `[a-f\d:]` -/
def hexOrColon : Char → Bool := fun x => 'a' ≤ x && x ≤ 'f' || crates.digit x || x = ':'

/- `\d+\.\d+.\d+.\d+` -/
def addressPattern : Pattern Char :=
  .seq (.plus crates.digit) (.seq (.one (isChar '.')) (.seq (.plus crates.digit) (.seq (.one anyChar)
    (.seq (.plus crates.digit) (.seq (.one anyChar) (.plus crates.digit))))))

/- `(\d+\.\d+.\d+.\d+)-(\d+)(?:&([a-f\d:]+)-(\d+))?$` -/
def subnetPattern : Pattern Char :=
  .seq (.group 1 crates.addressPattern) (.seq (.one (isChar '-')) (.seq (.group 2 (.plus crates.digit))
    (.seq (.optional (.seq (.one (isChar '&')) (.seq (.group 3 (.plus crates.hexOrColon))
      (.seq (.one (isChar '-')) (.group 4 (.plus crates.digit)))))) .atEnd)))

/- The networks of the groups; the pattern has five, so `caps.len()` is always 5. -/
def readCaptures (caps : Captures Char) : Res (Ipv4Network × Option Ipv6Network) := do
  let ipAddress ← unwrap (caps.lookup 1)
  let subnetLength ← unwrap (caps.lookup 2)
  let sn4 ← okOr "invalid network" (crates.ipv4Network (ipAddress ++ '/' :: subnetLength))
  match caps.lookup 3, caps.lookup 4 with
  | some ipAddressV6, some subnetLengthV6 =>
    if ipAddressV6.isEmpty || subnetLengthV6.isEmpty then return (sn4, none)
    else
      let sn6 ← okOr "invalid network" (crates.ipv6Network (ipAddressV6 ++ '/' :: subnetLengthV6))
      return (sn4, some sn6)
  | _, _ => return (sn4, none)

def extractIpAndSubnet (input : List Char) : Res (Ipv4Network × Option Ipv6Network) := do
  let (_, _, caps) ← okOr "invalid subnet" (crates.subnetPattern.search input)
  crates.readCaptures caps

def Digits (text : List Char) : Prop := text ≠ [] ∧ ∀ c ∈ text, crates.digit c = true

/- Four numbers, with a dot behind the first. -/
def Address (text : List Char) : Prop := ∃ n₃ n₂ n₁ n₀ x y, text = n₃ ++ '.' :: (n₂ ++ x :: (n₁ ++ y :: n₀)) ∧
  crates.Digits n₃ ∧ crates.Digits n₂ ∧ crates.Digits n₁ ∧ crates.Digits n₀ ∧ anyChar x = true ∧ anyChar y = true

variable {crates} {w rest text pre post : List Char} {caps : Captures Char} {c : Char} {sn : Ipv4Network}

theorem derivesAddress : crates.addressPattern.Derives w rest caps ↔ crates.Address w ∧ caps = [] := by
  simp only [addressPattern, Pattern.derivesPlusSeq, Pattern.derivesOneSeq]
  constructor
  · rintro ⟨n₃, _, some₃, all₃, rfl, d, _, dot, rfl, n₂, _, some₂, all₂, rfl, x, _, anyX, rfl,
      n₁, _, some₁, all₁, rfl, y, n₀, anyY, rfl, some₀, all₀, rfl⟩
    obtain rfl : d = '.' := of_decide_eq_true dot
    exact ⟨⟨n₃, n₂, n₁, n₀, x, y, rfl, ⟨some₃, all₃⟩, ⟨some₂, all₂⟩, ⟨some₁, all₁⟩, ⟨some₀, all₀⟩, anyX, anyY⟩, rfl⟩
  · rintro ⟨⟨n₃, n₂, n₁, n₀, x, y, rfl, ⟨some₃, all₃⟩, ⟨some₂, all₂⟩, ⟨some₁, all₁⟩, ⟨some₀, all₀⟩, anyX, anyY⟩, rfl⟩
    exact ⟨n₃, _, some₃, all₃, rfl, '.', _, rfl, rfl, n₂, _, some₂, all₂, rfl, x, _, anyX, rfl,
      n₁, _, some₁, all₁, rfl, y, n₀, anyY, rfl, some₀, all₀, rfl⟩

/-- What the pattern matches, with what its groups have. -/
inductive Entry (crates : TextCrates) : List Char → Captures Char → Prop where
  | v4 {addr len} (address : crates.Address addr) (length : crates.Digits len) :
      Entry crates (addr ++ '-' :: len) [(1, addr), (2, len)]
  | dual {addr len addr6 len6} (address : crates.Address addr) (length : crates.Digits len) (some6 : addr6 ≠ [])
      (address6 : ∀ c ∈ addr6, crates.hexOrColon c = true) (length6 : crates.Digits len6) :
      Entry crates (addr ++ '-' :: (len ++ '&' :: (addr6 ++ '-' :: len6))) [(1, addr), (2, len), (3, addr6), (4, len6)]

theorem derivesEntry : crates.subnetPattern.Derives w rest caps ↔ rest = [] ∧ Entry crates w caps := by
  simp only [subnetPattern, Pattern.derivesGroupSeq, Pattern.derivesOneSeq, Pattern.derivesOptionalEnd, derivesAddress]
  constructor
  · rintro ⟨addr, _, _, _, rfl, rfl, ⟨address, rfl⟩, d, _, dash, rfl, len, _, _, opt, rfl, rfl, ⟨some_, all, rfl⟩, rfl, dual⟩
    obtain rfl : d = '-' := of_decide_eq_true dash
    refine ⟨rfl, ?_⟩
    rcases dual with ⟨a, _, amp, rfl, addr6, _, _, _, rfl, rfl, ⟨some6, all6, rfl⟩, d', len6, dash', rfl, _, rfl, some_len6, all_len6, rfl⟩ |
      ⟨rfl, rfl⟩
    · obtain rfl : a = '&' := of_decide_eq_true amp
      obtain rfl : d' = '-' := of_decide_eq_true dash'
      exact .dual address ⟨some_, all⟩ some6 all6 ⟨some_len6, all_len6⟩
    · rw [List.append_nil]
      exact .v4 address ⟨some_, all⟩
  · rintro ⟨rfl, entry⟩
    cases entry with
    | @v4 addr len address length =>
      exact ⟨addr, '-' :: len, [], [(2, len)], rfl, rfl, ⟨address, rfl⟩, '-', len, rfl, rfl,
        len, [], [], [], (List.append_nil len).symm, rfl, ⟨length.1, length.2, rfl⟩, rfl, .inr ⟨rfl, rfl⟩⟩
    | @dual addr len addr6 len6 address length some6 address6 length6 =>
      refine ⟨addr, '-' :: (len ++ '&' :: (addr6 ++ '-' :: len6)), [], [(2, len), (3, addr6), (4, len6)], rfl, rfl,
        ⟨address, rfl⟩, '-', _, rfl, rfl, len, '&' :: (addr6 ++ '-' :: len6), [], [(3, addr6), (4, len6)], rfl, rfl,
        ⟨length.1, length.2, rfl⟩, rfl, .inl ?_⟩
      exact ⟨'&', _, rfl, rfl, addr6, '-' :: len6, [], [(4, len6)], rfl, rfl, ⟨some6, address6, rfl⟩, '-', len6, rfl, rfl,
        [], rfl, length6.1, length6.2, rfl⟩

theorem entryStarts (entry : Entry crates w caps) : crates.subnetPattern.Starts w :=
  ⟨w, [], caps, (List.append_nil w).symm, derivesEntry.mpr ⟨rfl, entry⟩⟩

theorem asciiDigit (digit : c.isDigit = true) : crates.digit c = true := by
  have bound := (Char.isDigit_iff_toNat.mp digit).2
  rw [crates.ascii c (Nat.lt_of_le_of_lt bound (by decide)), digit]

theorem asciiOther (small : c.toNat < 128) (other : c.isDigit = false) : crates.digit c = false :=
  (crates.ascii c small).trans other

theorem notInDigits (digits : crates.Digits text) (other : crates.digit c = false) : c ∉ text := fun member => by
  rw [digits.2 c member] at other
  contradiction

theorem decimalIsDigits {n : Nat} : crates.Digits (decimal n) :=
  ⟨decimalNonempty, fun c member => asciiDigit (decimalDigits c member)⟩

theorem dottedIsAddress {ip : Ipv4Addr} : crates.Address (dotted ip) :=
  ⟨_, _, _, _, '.', '.', rfl, decimalIsDigits, decimalIsDigits, decimalIsDigits, decimalIsDigits, rfl, rfl⟩

/- Some characters that only a `.` of the pattern can match, and it has two of them. -/
def foreign : Char → Bool := fun c => c = 's' || c = 'u' || c = 'n' || c = '/'

theorem foreignOther (crates : TextCrates) (bad : foreign c = true) : crates.hexOrColon c = false := by
  simp only [foreign, Bool.or_eq_true, decide_eq_true_eq] at bad
  have digit : crates.digit c = false := by
    rcases bad with ((rfl | rfl) | rfl) | rfl <;> exact asciiOther (by decide) rfl
  rw [hexOrColon, digit]
  rcases bad with ((rfl | rfl) | rfl) | rfl <;> decide

theorem foreignNone (all : ∀ c ∈ text, crates.hexOrColon c = true) : text.countP foreign = 0 := by
  rw [List.countP_eq_zero]
  intro c member bad
  have other := foreignOther crates bad
  rw [all c member] at other
  contradiction

theorem foreignDigits (digits : crates.Digits text) : text.countP foreign = 0 := by
  have all : ∀ c ∈ text, crates.hexOrColon c = true := fun c member => by simp [hexOrColon, digits.2 c member]
  exact foreignNone all

theorem foreignAddress (address : crates.Address text) : text.countP foreign ≤ 2 := by
  obtain ⟨n₃, n₂, n₁, n₀, x, y, rfl, d₃, d₂, d₁, d₀, _, _⟩ := address
  simp only [List.countP_append, List.countP_cons, foreignDigits d₃, foreignDigits d₂, foreignDigits d₁, foreignDigits d₀]
  have dot : foreign '.' = false := rfl
  rw [dot]
  split <;> split <;> simp

theorem foreignEntry (entry : Entry crates w caps) : w.countP foreign ≤ 2 := by
  have dash : foreign '-' = false := rfl
  have amp : foreign '&' = false := rfl
  cases entry with
  | v4 address length =>
    simpa [List.countP_append, List.countP_cons, foreignDigits length, dash] using foreignAddress address
  | dual address length _ address6 length6 =>
    simpa [List.countP_append, List.countP_cons, foreignDigits length, foreignNone address6, foreignDigits length6, dash, amp]
      using foreignAddress address

theorem entryHead (entry : Entry crates (c :: w) caps) : crates.digit c = true := by
  have first : ∀ {addr rest : List Char}, crates.Address addr → addr ++ rest = c :: w → crates.digit c = true := by
    rintro _ rest ⟨n₃, n₂, n₁, n₀, x, y, rfl, ⟨some_, all⟩, _⟩ same
    cases n₃ with
    | nil => exact absurd rfl some_
    | cons d n₃ =>
      obtain ⟨rfl, _⟩ := List.cons.inj same
      exact all d List.mem_cons_self
  generalize whole : c :: w = text at entry
  cases entry with
  | v4 address _ => exact first address whole.symm
  | dual address _ _ _ _ => exact first address whole.symm

theorem notInAddressOrLength {ip : Ipv4Addr} {a : Char} {len : List Char} (other : crates.digit a = false) (digit : a.isDigit = false)
    (length : crates.Digits len) (dot : a ≠ '.') (dash : a ≠ '-') : a ∉ dotted ip ++ '-' :: len := by
  simp [notInDotted digit dot, dash, notInDigits length other]

/- Of an address as it is printed and a number there is one reading only. -/
theorem entryUnique {ip : Ipv4Addr} {len : List Char} (length : crates.Digits len)
    (entry : Entry crates (dotted ip ++ '-' :: len) caps) : caps = [(1, dotted ip), (2, len)] := by
  have dash : crates.digit '-' = false := asciiOther (by decide) rfl
  generalize whole : dotted ip ++ '-' :: len = text at entry
  cases entry with
  | v4 address length' =>
    obtain ⟨rfl, rfl⟩ := splitAtLast (notInDigits length dash) (notInDigits length' dash) whole
    rfl
  | dual address length' _ _ _ =>
    have amp : '&' ∈ dotted ip ++ '-' :: len := whole ▸ by simp
    exact absurd amp (notInAddressOrLength (asciiOther (by decide) rfl) rfl length (by decide) (by decide))

theorem searchEntry {ip : Ipv4Addr} {len : List Char} (length : crates.Digits len)
    (none_ : crates.subnetPattern.NoneBefore pre (dotted ip ++ '-' :: len)) :
    ∃ w rest, crates.subnetPattern.search (pre ++ (dotted ip ++ '-' :: len)) =
      some (w, rest, [(1, dotted ip), (2, len)]) := by
  have here : crates.subnetPattern.Starts (dotted ip ++ '-' :: len) := entryStarts (.v4 dottedIsAddress length)
  rw [Pattern.searchAt none_ here]
  obtain ⟨⟨w, rest, caps⟩, first⟩ := Option.isSome_iff_exists.mp (List.isSome_head?.mpr (Pattern.startsIff.mp here))
  obtain ⟨split, derives⟩ := Pattern.memWays.mp (List.mem_of_mem_head? first)
  obtain ⟨rfl, entry⟩ := derivesEntry.mp derives
  rw [List.append_nil] at split
  rw [← split] at entry
  rw [first, entryUnique length entry]
  exact ⟨w, [], rfl⟩

theorem readV4 {addr len : List Char} : crates.readCaptures [(1, addr), (2, len)] =
    (okOr "invalid network" (crates.ipv4Network (addr ++ '/' :: len))).map (fun sn4 => (sn4, none)) := rfl

theorem readDual {addr len addr6 len6 : List Char} (some6 : addr6 ≠ []) (length6 : len6 ≠ []) :
    crates.readCaptures [(1, addr), (2, len), (3, addr6), (4, len6)] = do
      let sn4 ← okOr "invalid network" (crates.ipv4Network (addr ++ '/' :: len))
      let sn6 ← okOr "invalid network" (crates.ipv6Network (addr6 ++ '/' :: len6))
      return (sn4, some sn6) := by
  cases addr6 with
  | nil => exact absurd rfl some6
  | cons c addr6 =>
    cases len6 with
    | nil => exact absurd rfl length6
    | cons d len6 => rfl

/- The address and the number that a network is read from. -/
theorem cidrTextSome {addr len : List Char} (length : crates.Digits len) : crates.ipv4Network (addr ++ '/' :: len) = some sn ↔
    addr = dotted sn.ip ∧ AllDigits len ∧ value len = sn.prefixLen := by
  have unsigned : '+' ∉ len := notInDigits length (asciiOther (by decide) rfl)
  rw [crates.cidrText _ _ length.2]
  simp only [Option.bind_eq_some_iff, ipv4AddrFromIff, u8FromIff unsigned]
  constructor
  · rintro ⟨ip, rfl, n, ⟨_, all, rfl, _⟩, made⟩
    unfold Ipv4Network.new at made
    split at made
    · cases Option.some.inj made
      exact ⟨rfl, all, rfl⟩
    · contradiction
  · rintro ⟨rfl, all, same⟩
    have valid := sn.valid
    exact ⟨sn.ip, rfl, sn.prefixLen, ⟨length.1, all, same, by omega⟩, newValid valid⟩

/-- The keys that are read as an IPv4 subnet alone: they end with its address and a number,
and no match starts further in front. -/
theorem extractV4 : crates.extractIpAndSubnet text = .ok (sn, none) ↔
    ∃ pre len, text = pre ++ (dotted sn.ip ++ '-' :: len) ∧ len ≠ [] ∧ AllDigits len ∧ value len = sn.prefixLen ∧
      crates.subnetPattern.NoneBefore pre (dotted sn.ip ++ '-' :: len) := by
  constructor
  · intro read
    unfold extractIpAndSubnet at read
    cases searched : crates.subnetPattern.search text with
    | none => simp [searched, okOr, bind, Except.bind] at read
    | some m =>
      obtain ⟨w, rest, caps⟩ := m
      simp only [searched, okOr, bind, Except.bind] at read
      obtain ⟨pre, rfl, derives, none_⟩ := Pattern.searchSource searched
      obtain ⟨rfl, entry⟩ := derivesEntry.mp derives
      rw [List.append_nil] at none_ ⊢
      cases entry with
      | @v4 addr len address length =>
        rw [readV4] at read
        cases network : crates.ipv4Network (addr ++ '/' :: len) with
        | none => simp [network, okOr, Except.map] at read
        | some sn4 =>
          rw [network] at read
          obtain ⟨rfl, _⟩ := Prod.mk.inj (Except.ok.inj read)
          obtain ⟨rfl, all, same⟩ := (cidrTextSome length).mp network
          exact ⟨pre, len, rfl, length.1, all, same, none_⟩
      | dual _ _ some6 _ length6 =>
        rw [readDual some6 length6.1] at read
        simp only [bindOk] at read
        obtain ⟨_, _, _, _, last⟩ := read
        exact absurd (Prod.mk.inj (Except.ok.inj last)).2 (by simp)
  · rintro ⟨pre, len, rfl, some_, all, same, none_⟩
    have length : crates.Digits len := ⟨some_, fun c member => asciiDigit (all c member)⟩
    obtain ⟨w, rest, searched⟩ := searchEntry length none_
    rw [extractIpAndSubnet, searched]
    simp only [okOr, bind, Except.bind]
    rw [readV4, (cidrTextSome length).mpr ⟨rfl, all, same⟩]
    rfl

/- A key that cannot be read is an error, never a panic. -/
theorem extractEnds : (∃ nets, crates.extractIpAndSubnet text = .ok nets) ∨
    ∃ message, crates.extractIpAndSubnet text = .error (.bail message) := by
  unfold extractIpAndSubnet
  cases searched : crates.subnetPattern.search text with
  | none => exact .inr ⟨_, rfl⟩
  | some m =>
    obtain ⟨w, rest, caps⟩ := m
    simp only [okOr, bind, Except.bind]
    obtain ⟨pre, rfl, derives, none_⟩ := Pattern.searchSource searched
    cases (derivesEntry.mp derives).2 with
    | @v4 addr len _ _ =>
      rw [readV4]
      cases crates.ipv4Network (addr ++ '/' :: len) with
      | none => exact .inr ⟨_, rfl⟩
      | some sn4 => exact .inl ⟨_, rfl⟩
    | @dual addr len addr6 len6 _ _ some6 _ length6 =>
      rw [readDual some6 length6.1]
      cases crates.ipv4Network (addr ++ '/' :: len) with
      | none => exact .inr ⟨_, rfl⟩
      | some sn4 =>
        cases crates.ipv6Network (addr6 ++ '/' :: len6) with
        | none => exact .inr ⟨_, rfl⟩
        | some sn6 => exact .inl ⟨_, rfl⟩

end TextCrates
end FlannelNg
