import FlannelNg.Config

/-! What `check_network_config` accepts. The range that it completes is a function of
the configuration as written; a build with overflow checks panics where computing
the range leaves 32 bits, and one without goes on with the wrapped address. -/
namespace FlannelNg
open Cidr Outcome

def LenAccepted (prefixLen subnetLen : Nat) : Prop :=
  if 0 < subnetLen then prefixLen + 2 ≤ subnetLen ∧ subnetLen ≤ 30 else prefixLen ≤ 28

instance (prefixLen subnetLen) : Decidable (LenAccepted prefixLen subnetLen) := by
  unfold LenAccepted
  infer_instance

def effectiveLen (prefixLen subnetLen : Nat) : Nat :=
  if 0 < subnetLen then subnetLen else if prefixLen ≤ 22 then 24 else prefixLen + 2

def Inside (n : Ipv4Network) (given : Option Ipv4Addr) : Prop := ∀ a, given = some a → n.contains a = true

instance (n given) : Decidable (Inside n given) :=
  match given with
  | none => .isTrue nofun
  | some a => decidable_of_iff (n.contains a = true) (by simp [Inside])

/- The distance to the next network; a shift by all 32 bits wraps to none. -/
def Cidr.Ipv4Network.hop (n : Ipv4Network) : Ipv4Addr := 1#32 <<< ((32 - n.prefixLen) % 32)

namespace Config
variable (config : Config) (n : Ipv4Network)

def blockLen : Nat := effectiveLen n.prefixLen config.subnetLen
def blockSize : Ipv4Addr := 1#32 <<< (32 - config.blockLen n)
def firstBlock : Ipv4Addr := config.subnetMin.getD (n.ip + config.blockSize n)
def lastBlock : Ipv4Addr := config.subnetMax.getD (n.ip + n.hop - config.blockSize n)

def completed : Config := {
  config with
  subnetLen := config.blockLen n
  subnetMin := some (config.firstBlock n)
  subnetMax := some (config.lastBlock n) }

/-- The checks on a configuration with the network, in terms of what it says. -/
structure Accepts : Prop where
  len : LenAccepted n.prefixLen config.subnetLen
  min : Inside n config.subnetMin
  max : Inside n config.subnetMax
  minAligned : 2 ^ (32 - config.blockLen n) ∣ (config.firstBlock n).toNat
  maxAligned : 2 ^ (32 - config.blockLen n) ∣ (config.lastBlock n).toNat

instance : Decidable (config.Accepts n) :=
  decidable_of_iff (LenAccepted n.prefixLen config.subnetLen ∧ Inside n config.subnetMin ∧ Inside n config.subnetMax ∧
    2 ^ (32 - config.blockLen n) ∣ (config.firstBlock n).toNat ∧ 2 ^ (32 - config.blockLen n) ∣ (config.lastBlock n).toNat)
    ⟨fun ⟨a, b, c, d, e⟩ => ⟨a, b, c, d, e⟩, fun ⟨a, b, c, d, e⟩ => ⟨a, b, c, d, e⟩⟩

/-- A default that is computed does not fit in 32 bits. The default for SubnetMax is
only computed once SubnetMin has passed its check. -/
def Overflows : Prop :=
  LenAccepted n.prefixLen config.subnetLen ∧
    (config.subnetMin = none ∧ 2 ^ 32 ≤ n.ip.toNat + 2 ^ (32 - config.blockLen n) ∨
      Inside n config.subnetMin ∧ config.subnetMax = none ∧ (n.prefixLen = 0 ∨ 2 ^ 32 ≤ n.ip.toNat + n.size))

instance : Decidable (config.Overflows n) := by
  unfold Overflows
  infer_instance

end Config

section Choices
variable {build : Build} {config accepted : Config} {n : Ipv4Network} {size : Ipv4Addr} {given : Option Ipv4Addr}

theorem effectiveBounds {prefixLen subnetLen : Nat} (ok : LenAccepted prefixLen subnetLen) :
    prefixLen + 2 ≤ effectiveLen prefixLen subnetLen ∧ effectiveLen prefixLen subnetLen ≤ 30 := by
  unfold LenAccepted at ok
  unfold effectiveLen
  split at ok
  · rename_i given
    rwa [if_pos given]
  · rename_i absent
    rw [if_neg absent]
    split <;> omega

theorem chooseLenAccepted (ok : LenAccepted n.prefixLen config.subnetLen) :
    chooseSubnetLen build n config.subnetLen = .ok (config.blockLen n) := by
  have small := n.valid
  unfold LenAccepted at ok
  unfold chooseSubnetLen Config.blockLen effectiveLen
  rw [addNatOk (by omega)]
  split at ok
  · rename_i given
    rw [if_pos given, if_pos given, if_neg (by omega)]
    simp [bind, Except.bind, pure, Except.pure, Nat.not_lt.mpr ok.1]
  · rename_i absent
    rw [if_neg absent, if_neg absent, if_neg (by omega)]
    split <;> rfl

theorem chooseLenBails (bad : ¬LenAccepted n.prefixLen config.subnetLen) :
    ∃ message, ∀ build, chooseSubnetLen build n config.subnetLen = .error (.bail message) := by
  have small := n.valid
  unfold LenAccepted at bad
  unfold chooseSubnetLen
  split at bad
  · rename_i given
    by_cases long : 30 < config.subnetLen
    · exact ⟨_, fun build => by rw [if_pos given, if_pos long]⟩
    · refine ⟨"network must be able to accommodate at least four subnets", fun build => ?_⟩
      rw [if_pos given, if_neg long, addNatOk (by omega)]
      exact if_pos (by omega)
  · rename_i absent
    exact ⟨_, fun build => by rw [if_neg absent, if_pos (by omega)]⟩

theorem chooseMinWrapping : chooseSubnetMin .wrapping n size given =
    if Inside n given then .ok (given.getD (n.ip + size))
    else .error (.bail "SubnetMin is not in the network range") := by
  cases given with
  | none => simp [chooseSubnetMin, Inside, Ipv4.add, addBits, overflow]
  | some a => simp [chooseSubnetMin, Inside]

theorem chooseMinChecked : chooseSubnetMin .checked n size given =
    if given = none ∧ 2 ^ 32 ≤ n.ip.toNat + size.toNat then .error .panicked
    else chooseSubnetMin .wrapping n size given := by
  cases given with
  | none =>
    unfold chooseSubnetMin Ipv4.add addBits
    by_cases fits : n.ip.toNat + size.toNat < 2 ^ 32
    · rw [if_pos fits, if_neg (by omega), if_pos fits]
    · rw [if_neg fits, if_pos ⟨rfl, by omega⟩]
      rfl
  | some a => rw [if_neg (by simp), chooseSubnetMin, chooseSubnetMin]

theorem hopNat (low : 0 < n.prefixLen) : n.hop = BitVec.ofNat 32 n.size ∧ n.size < 2 ^ 32 := by
  have small : n.size < 2 ^ 32 := Nat.pow_lt_pow_right (by omega) (by omega)
  refine ⟨?_, small⟩
  apply BitVec.eq_of_toNat_eq
  rw [Ipv4Network.hop, Nat.mod_eq_of_lt (by omega)]
  simp [Ipv4Network.size, Nat.shiftLeft_eq]

theorem chooseMaxWrapping (short : n.prefixLen < 32) : chooseSubnetMax .wrapping n size given =
    if Inside n given then .ok (given.getD (n.ip + n.hop - size))
    else .error (.bail "SubnetMax is not in the network range") := by
  cases given with
  | some a => simp [chooseSubnetMax, Inside]
  | none =>
    have hop : shlBits .wrapping 1#32 (32 - n.prefixLen) = .ok n.hop := by
      unfold shlBits Ipv4Network.hop
      split
      · rename_i fits
        rw [Nat.mod_eq_of_lt fits]
      · rfl
    have next : Ipv4.nextNetwork .wrapping n = .ok (some ⟨n.ip + n.hop, n.prefixLen, n.valid⟩) := by
      unfold Ipv4.nextNetwork
      rw [if_neg (by omega), hop]
      simp [bind, Except.bind, addBits, overflow, newValid n.valid, pure, Except.pure]
    simp [chooseSubnetMax, Inside, next, bind, Except.bind, unwrap, Ipv4.sub, subBits, overflow]

/- Behind the next network there is room to step back by a block. -/
theorem chooseMaxChecked (short : n.prefixLen < 32) (fits : size.toNat ≤ n.size) :
    chooseSubnetMax .checked n size given =
      if given = none ∧ (n.prefixLen = 0 ∨ 2 ^ 32 ≤ n.ip.toNat + n.size) then .error .panicked
      else chooseSubnetMax .wrapping n size given := by
  cases given with
  | some a => rw [if_neg (by simp), chooseSubnetMax, chooseSubnetMax]
  | none =>
    rcases Nat.eq_zero_or_pos n.prefixLen with all | low
    · rw [if_pos ⟨rfl, .inl all⟩, chooseSubnetMax, Ipv4.nextNetwork, if_neg (by omega), all]
      rfl
    · obtain ⟨hop, small⟩ := hopNat low
      have hopSize : n.hop.toNat = n.size := by
        rw [hop, BitVec.toNat_ofNat]
        exact Nat.mod_eq_of_lt small
      have shift : shlBits .checked 1#32 (32 - n.prefixLen) = .ok n.hop := by
        rw [shlBitsOk (by omega), Ipv4Network.hop, Nat.mod_eq_of_lt (by omega)]
      have next : Ipv4.nextNetwork .checked n = (addBits .checked n.ip n.hop).map
          (fun ip => Ipv4Network.new ip n.prefixLen) := by
        unfold Ipv4.nextNetwork
        rw [if_neg (by omega), shift]
        rfl
      rw [chooseMaxWrapping short, chooseSubnetMax, next]
      by_cases room : n.ip.toNat + n.size < 2 ^ 32
      · have sum : (n.ip + n.hop).toNat = n.ip.toNat + n.size := by
          rw [BitVec.toNat_add, hopSize]
          exact Nat.mod_eq_of_lt room
        have back : size ≤ n.ip + n.hop := by
          rw [BitVec.le_def, sum]
          omega
        have added : addBits .checked n.ip n.hop = .ok (n.ip + n.hop) := if_pos (by rw [hopSize]; exact room)
        rw [if_neg (by omega), added]
        simp [Except.map, bind, Except.bind, unwrap, newValid n.valid, Ipv4.sub, subBits, back, Inside]
      · rw [if_pos ⟨rfl, .inr (by omega)⟩, addBits, hopSize, if_neg room]
        rfl

end Choices

section Check
variable {build : Build} {config accepted : Config} {n : Ipv4Network}

/- The last two checks. -/
def Config.aligned (config : Config) (n : Ipv4Network) (subnetMin subnetMax : Ipv4Addr) : Res Config :=
  if subnetMin ≠ subnetMin &&& maskOf (config.blockLen n) then .error (.bail "SubnetMin is not aligned to SubnetLen")
  else if subnetMax ≠ subnetMax &&& maskOf (config.blockLen n) then
    .error (.bail "SubnetMax is not aligned to SubnetLen")
  else .ok { config with subnetLen := config.blockLen n, subnetMin := some subnetMin, subnetMax := some subnetMax }

theorem checkFrom (net : config.network = some n) (len : LenAccepted n.prefixLen config.subnetLen) :
    checkIpv4 build config = (do
      let subnetMin ← chooseSubnetMin build n (config.blockSize n) config.subnetMin
      let subnetMax ← chooseSubnetMax build n (config.blockSize n) config.subnetMax
      config.aligned n subnetMin subnetMax) := by
  have high : config.blockLen n ≤ 30 := (effectiveBounds len).2
  have low : n.prefixLen + 2 ≤ config.blockLen n := (effectiveBounds len).1
  unfold checkIpv4 Config.aligned
  simp only [net, okOr, bind, Except.bind, chooseLenAccepted len, subNatOk (show config.blockLen n ≤ 32 by omega),
    shlBitsOk (show 32 - config.blockLen n < 32 by omega), shiftedMask]
  rfl

theorem alignedOf {a : Ipv4Addr} {len : Nat} : a = a &&& maskOf len ↔ 2 ^ (32 - len) ∣ a.toNat := by
  refine ⟨alignedOfMask, fun whole => ?_⟩
  apply BitVec.eq_of_toNat_eq
  rw [maskedNat, blockOf, Nat.div_mul_cancel whole]

theorem blockSizeNat (len : LenAccepted n.prefixLen config.subnetLen) :
    (config.blockSize n).toNat = 2 ^ (32 - config.blockLen n) ∧ 4 * (config.blockSize n).toNat ≤ n.size := by
  have low : n.prefixLen + 2 ≤ config.blockLen n := (effectiveBounds len).1
  have high : config.blockLen n ≤ 30 := (effectiveBounds len).2
  have value : (config.blockSize n).toNat = 2 ^ (32 - config.blockLen n) := by
    have small : 2 ^ (32 - config.blockLen n) < 2 ^ 32 := Nat.pow_lt_pow_right (by omega) (by omega)
    simp only [Config.blockSize, BitVec.toNat_shiftLeft, Nat.shiftLeft_eq, BitVec.toNat_ofNat, Nat.one_mod, Nat.one_mul]
    exact Nat.mod_eq_of_lt small
  refine ⟨value, ?_⟩
  rw [value, Ipv4Network.size, show 4 = 2 ^ 2 by rfl, ← Nat.pow_add]
  exact Nat.pow_le_pow_right (by omega) (by omega)

theorem shortOf (len : LenAccepted n.prefixLen config.subnetLen) : n.prefixLen < 32 := by
  have bounds := effectiveBounds len
  omega

theorem checkWrapping (net : config.network = some n) :
    if config.Accepts n then checkIpv4 .wrapping config = .ok (config.completed n)
    else ∃ message, checkIpv4 .wrapping config = .error (.bail message) := by
  by_cases len : LenAccepted n.prefixLen config.subnetLen
  · rw [checkFrom net len, chooseMinWrapping, chooseMaxWrapping (shortOf len)]
    by_cases min : Inside n config.subnetMin
    · by_cases max : Inside n config.subnetMax
      · rw [if_pos min, if_pos max]
        change if _ then config.aligned n (config.firstBlock n) (config.lastBlock n) = _
          else ∃ message, config.aligned n (config.firstBlock n) (config.lastBlock n) = _
        unfold Config.aligned
        simp only [ne_eq, alignedOf]
        by_cases minAligned : 2 ^ (32 - config.blockLen n) ∣ (config.firstBlock n).toNat
        · by_cases maxAligned : 2 ^ (32 - config.blockLen n) ∣ (config.lastBlock n).toNat
          · rw [if_pos ⟨len, min, max, minAligned, maxAligned⟩, if_neg (not_not.mpr minAligned),
              if_neg (not_not.mpr maxAligned)]
            rfl
          · rw [if_neg (fun accepts => maxAligned accepts.maxAligned), if_neg (not_not.mpr minAligned), if_pos maxAligned]
            exact ⟨_, rfl⟩
        · rw [if_neg (fun accepts => minAligned accepts.minAligned), if_pos minAligned]
          exact ⟨_, rfl⟩
      · rw [if_neg (fun accepts => max accepts.max), if_pos min, if_neg max]
        exact ⟨_, rfl⟩
    · rw [if_neg (fun accepts => min accepts.min), if_neg min]
      exact ⟨_, rfl⟩
  · rw [if_neg (fun accepts => len accepts.len)]
    obtain ⟨message, bails⟩ := chooseLenBails len
    exact ⟨message, by simp [checkIpv4, net, okOr, bind, Except.bind, bails]⟩

theorem checkChecked (net : config.network = some n) : checkIpv4 .checked config =
    if config.Overflows n then .error .panicked else checkIpv4 .wrapping config := by
  by_cases len : LenAccepted n.prefixLen config.subnetLen
  · obtain ⟨size, fits⟩ := blockSizeNat len
    rw [checkFrom net len, checkFrom net len, chooseMinChecked, chooseMaxChecked (shortOf len) (by omega), size]
    by_cases first : config.subnetMin = none ∧ 2 ^ 32 ≤ n.ip.toNat + 2 ^ (32 - config.blockLen n)
    · rw [if_pos first, if_pos (show config.Overflows n from ⟨len, .inl first⟩)]
      rfl
    · rw [if_neg first, chooseMinWrapping]
      by_cases min : Inside n config.subnetMin
      · rw [if_pos min]
        by_cases last : config.subnetMax = none ∧ (n.prefixLen = 0 ∨ 2 ^ 32 ≤ n.ip.toNat + n.size)
        · rw [if_pos last, if_pos (show config.Overflows n from ⟨len, .inr ⟨min, last⟩⟩)]
          rfl
        · have narrow : ¬config.Overflows n := by
            rintro ⟨_, wide | ⟨_, wide⟩⟩
            · exact first wide
            · exact last wide
          rw [if_neg last, if_neg narrow]
      · have narrow : ¬config.Overflows n := by
          rintro ⟨_, wide | ⟨inside, _⟩⟩
          · exact first wide
          · exact min inside
        rw [if_neg min, if_neg narrow]
        rfl
  · rw [if_neg (fun wide => len wide.1)]
    obtain ⟨message, bails⟩ := chooseLenBails len
    simp [checkIpv4, net, okOr, bind, Except.bind, bails]

theorem checkedCompletes (ok : checkIpv4 build config = .ok accepted) :
    ∃ n, config.network = some n ∧ config.Accepts n ∧ accepted = config.completed n := by
  cases net : config.network with
  | none => simp [checkIpv4, net, okOr, bind, Except.bind] at ok
  | some n =>
    have wrapped : checkIpv4 .wrapping config = .ok accepted := by
      cases build with
      | wrapping => exact ok
      | checked =>
        rw [checkChecked net] at ok
        split at ok
        · contradiction
        · exact ok
    have decides := checkWrapping net
    split at decides
    · rename_i accepts
      rw [decides] at wrapped
      exact ⟨n, rfl, accepts, (Except.ok.inj wrapped).symm⟩
    · obtain ⟨message, bails⟩ := decides
      rw [bails] at wrapped
      contradiction

/- The configuration as `get_network_config` passes it to the check. -/
def Config.readied (config : Config) : Config := {
  config with
  enableIpv4 := true
  backendType := some (parseBackendType config.backend) }

theorem acceptedCompletes (ok : getNetworkConfig build (.ok config) = .ok accepted) :
    ∃ n, config.network = some n ∧ config.readied.Accepts n ∧ accepted = config.readied.completed n := by
  exact checkedCompletes (@passedCheck build config.readied accepted ok)

end Check

/- `check_network_config` returns: no step overflows, or the build would tell. -/
def EndsSafely (config : Config) : Prop := ∀ build,
  checkNetworkConfig build config = checkNetworkConfig .checked config ∧
    ((∃ accepted, checkNetworkConfig build config = .ok accepted) ∨
      ∃ message, checkNetworkConfig build config = .error (.bail message))

theorem safeOfEnd {config : Config} {result : Res Config} (same : ∀ build, checkNetworkConfig build config = result)
    (ends : (∃ accepted, result = .ok accepted) ∨ ∃ message, result = .error (.bail message)) : EndsSafely config :=
  fun build => ⟨(same build).trans (same .checked).symm, by rwa [same build]⟩

theorem unsafeOfPanic {config : Config} (panics : checkNetworkConfig .checked config = .error .panicked) :
    ¬EndsSafely config := by
  intro safe
  rcases (safe .checked).2 with ⟨accepted, ok⟩ | ⟨message, bails⟩
  · simp [panics] at ok
  · simp [panics] at bails

theorem checkIpv4First {config : Config} (v4 : config.enableIpv4 = true) (build : Build) :
    checkNetworkConfig build config = (checkIpv4 build config).bind (fun checked =>
      if checked.enableIpv6 then .error .panicked else .ok checked) := by
  simp only [checkNetworkConfig, v4, if_true]
  rfl

theorem endsSafelyIpv4 {config : Config} {n : Ipv4Network} (v4 : config.enableIpv4 = true)
    (net : config.network = some n) :
    EndsSafely config ↔ ¬config.Overflows n ∧ (config.enableIpv6 = true → ¬config.Accepts n) := by
  by_cases wide : config.Overflows n
  · have panics : checkNetworkConfig .checked config = .error .panicked := by
      rw [checkIpv4First v4, checkChecked net, if_pos wide]
      rfl
    simp [unsafeOfPanic panics, wide]
  · have same : ∀ build, checkIpv4 build config = checkIpv4 .wrapping config := by
      intro build
      cases build with
      | checked => rw [checkChecked net, if_neg wide]
      | wrapping => rfl
    have decides := checkWrapping net
    split at decides
    · rename_i accepts
      cases v6 : config.enableIpv6 with
      | false =>
        have ok : ∀ build, checkNetworkConfig build config = .ok (config.completed n) := fun build => by
          rw [checkIpv4First v4, same, decides]
          exact if_neg (by simp [Config.completed, v6])
        simp [safeOfEnd ok (.inl ⟨_, rfl⟩), wide]
      | true =>
        have panics : checkNetworkConfig .checked config = .error .panicked := by
          rw [checkIpv4First v4, same, decides]
          exact if_pos v6
        simp [unsafeOfPanic panics, accepts]
    · rename_i rejects
      obtain ⟨message, bails⟩ := decides
      have fails : ∀ build, checkNetworkConfig build config = .error (.bail message) := fun build => by
        rw [checkIpv4First v4, same, bails]
        rfl
      simp [safeOfEnd fails (.inr ⟨_, rfl⟩), wide, rejects]

/- `EnableIPv6` leads to `todo!()`, unless the IPv4 check fails before it. -/
theorem checkEndsSafelyIff (config : Config) : EndsSafely config ↔
    (config.enableIpv4 = true → ∀ n, config.network = some n → ¬config.Overflows n) ∧
    (config.enableIpv6 = true → config.enableIpv4 = true ∧ ∀ n, config.network = some n → ¬config.Accepts n) := by
  cases v4 : config.enableIpv4 with
  | false =>
    cases v6 : config.enableIpv6 with
    | false =>
      have same : ∀ build, checkNetworkConfig build config = .ok config := by
        simp [checkNetworkConfig, v4, v6, bind, Except.bind, pure, Except.pure]
      simp [safeOfEnd same (.inl ⟨config, rfl⟩)]
    | true =>
      have panics : checkNetworkConfig .checked config = .error .panicked := by
        simp [checkNetworkConfig, v4, v6, bind, Except.bind, pure, Except.pure]
      simp [unsafeOfPanic panics]
  | true =>
    cases net : config.network with
    | none =>
      have same : ∀ build, checkNetworkConfig build config = _ := fun build => by
        rw [checkIpv4First v4, checkIpv4, net]
      simp [safeOfEnd same (.inr ⟨_, rfl⟩)]
    | some n =>
      rw [endsSafelyIpv4 v4 net]
      simp only [Option.some.injEq, forall_eq', true_implies, true_and]

theorem edgesOverflow :
    ¬EndsSafely { enableIpv4 := true, network := some (cidr 0xFFFF0000 16) } ∧
    ¬EndsSafely { enableIpv4 := true, network := some (cidr 0xFFFFFF00 16), subnetMax := some 0xFFFFFF00 } ∧
    ¬EndsSafely { enableIpv4 := true, network := some (cidr 0x0A000000 0) } :=
  ⟨unsafeOfPanic (by decide), unsafeOfPanic (by decide), unsafeOfPanic (by decide)⟩

end FlannelNg
