import FlannelNg.Lease

/-! The network configuration and its check. -/
namespace FlannelNg
open Cidr Outcome

structure Config where
  enableIpv4 : Bool := false
  enableIpv6 : Bool := false
  network : Option Ipv4Network := none
  subnetMin : Option Ipv4Addr := none
  subnetMax : Option Ipv4Addr := none
  subnetLen : Nat := 0
  backendType : Option String := none
  backend : Option Json := none
  deriving DecidableEq, Repr

def parseBackendType : Option Json → String
  | none => "udp"
  | some be => ((be.asObject.bind (Json.get "Type")).bind Json.asStr).getD "udp"

namespace Ipv4

def add (build : Build) (a : Ipv4Addr) (n : BitVec 32) : Res Ipv4Addr := addBits build a n
def sub (build : Build) (a : Ipv4Addr) (n : BitVec 32) : Res Ipv4Addr := subBits build a n

def nextNetwork (build : Build) (sn : Ipv4Network) : Res (Option Ipv4Network) :=
  if 32 ≤ sn.prefixLen then .ok none
  else do
    let step ← shlBits build 1#32 (32 - sn.prefixLen)
    let nextIp ← addBits build sn.ip step
    return Ipv4Network.new nextIp sn.prefixLen

end Ipv4

def chooseSubnetLen (build : Build) (cfgNetwork : Ipv4Network) (subnetLen : Nat) : Res Nat :=
  if 0 < subnetLen then
    if 30 < subnetLen then .error (.bail "SubnetLen must be less than /31")
    else do
      let least ← addNat 8 build cfgNetwork.prefixLen 2
      if subnetLen < least then
        .error (.bail "network must be able to accommodate at least four subnets")
      else return subnetLen
  else if 28 < cfgNetwork.prefixLen then
    .error (.bail "network is too small. Minimum useful network prefix is /28")
  else if cfgNetwork.prefixLen ≤ 22 then .ok 24
  else addNat 8 build cfgNetwork.prefixLen 2

def chooseSubnetMin (build : Build) (cfgNetwork : Ipv4Network) (subnetSize : BitVec 32) :
    Option Ipv4Addr → Res Ipv4Addr
  | none => Ipv4.add build cfgNetwork.ip subnetSize
  | some subnetMin =>
    if cfgNetwork.contains subnetMin then .ok subnetMin
    else .error (.bail "SubnetMin is not in the network range")

def chooseSubnetMax (build : Build) (cfgNetwork : Ipv4Network) (subnetSize : BitVec 32) :
    Option Ipv4Addr → Res Ipv4Addr
  | none => do
    let next ← unwrap (← Ipv4.nextNetwork build cfgNetwork)
    Ipv4.sub build next.ip subnetSize
  | some subnetMax =>
    if cfgNetwork.contains subnetMax then .ok subnetMax
    else .error (.bail "SubnetMax is not in the network range")

def checkIpv4 (build : Build) (config : Config) : Res Config := do
  let cfgNetwork ← okOr "please define a correct Network parameter in the flannel config" config.network
  let subnetLen ← chooseSubnetLen build cfgNetwork config.subnetLen
  let bits ← subNat 8 build 32 subnetLen
  let subnetSize ← shlBits build 1#32 bits
  let subnetMin ← chooseSubnetMin build cfgNetwork subnetSize config.subnetMin
  let subnetMax ← chooseSubnetMax build cfgNetwork subnetSize config.subnetMax
  let mask ← shlBits build 0xFFFFFFFF#32 bits
  if subnetMin ≠ subnetMin &&& mask then .error (.bail "SubnetMin is not aligned to SubnetLen")
  else if subnetMax ≠ subnetMax &&& mask then .error (.bail "SubnetMax is not aligned to SubnetLen")
  else return { config with subnetLen, subnetMin := some subnetMin, subnetMax := some subnetMax }

def checkNetworkConfig (build : Build) (config : Config) : Res Config := do
  let config ← if config.enableIpv4 then checkIpv4 build config else pure config
  -- `todo!()`
  if config.enableIpv6 then .error .panicked else return config

/- `stored` is what reading the key `config` and deserialising its value gave. -/
def getNetworkConfig (build : Build) (stored : Res Config) : Res Config := do
  let config ← stored
  checkNetworkConfig build { config with enableIpv4 := true, backendType := some (parseBackendType config.backend) }

/- What an accepted configuration guarantees of the range it hands out. -/
structure Range (config : Config) (subnetMin subnetMax : Ipv4Addr) : Prop where
  least : config.subnetMin = some subnetMin
  greatest : config.subnetMax = some subnetMax
  lenLow : 2 ≤ config.subnetLen
  lenHigh : config.subnetLen ≤ 30
  minAligned : 2 ^ (32 - config.subnetLen) ∣ subnetMin.toNat
  maxAligned : 2 ^ (32 - config.subnetLen) ∣ subnetMax.toNat

theorem chosenLen {build cfgNetwork len subnetLen} (ok : chooseSubnetLen build cfgNetwork len = .ok subnetLen) :
    2 ≤ subnetLen ∧ subnetLen ≤ 30 := by
  have small := cfgNetwork.valid
  unfold chooseSubnetLen at ok
  rw [addNatOk (by omega)] at ok
  split at ok
  · split at ok <;> try contradiction
    simp only [bindOk, Except.ok.injEq] at ok
    obtain ⟨least, rfl, ok⟩ := ok
    split at ok <;> try contradiction
    cases Except.ok.inj ok
    omega
  · split at ok <;> try contradiction
    split at ok <;> cases Except.ok.inj ok <;> omega

theorem alignedOfMask {len : Nat} {a : Ipv4Addr} (same : a = a &&& maskOf len) : 2 ^ (32 - len) ∣ a.toNat := by
  rw [same, maskedNat]
  exact Nat.dvd_mul_left _ _

theorem checkedRange {build config accepted} (ok : checkIpv4 build config = .ok accepted) :
    ∃ subnetMin subnetMax, Range accepted subnetMin subnetMax := by
  simp only [checkIpv4, bindOk] at ok
  obtain ⟨cfgNetwork, _, subnetLen, hl, bits, hb, size, _, subnetMin, _, subnetMax, _, mask, hm, last⟩ := ok
  obtain ⟨low, high⟩ := chosenLen hl
  rw [subNatOk (by omega)] at hb
  cases Except.ok.inj hb
  rw [shlBitsOk (by omega), shiftedMask] at hm
  cases Except.ok.inj hm
  split at last <;> try contradiction
  rename_i minOk
  split at last <;> try contradiction
  rename_i maxOk
  cases Except.ok.inj last
  exact ⟨subnetMin, subnetMax, rfl, rfl, low, high, alignedOfMask (not_not.mp minOk), alignedOfMask (not_not.mp maxOk)⟩

theorem passedCheck {build config accepted} (ok : checkNetworkConfig build config = .ok accepted) :
    if config.enableIpv4 then checkIpv4 build config = .ok accepted else accepted = config := by
  cases enabled : config.enableIpv4 with
  | true =>
    simp only [checkNetworkConfig, enabled, if_true, bindOk] at ok ⊢
    obtain ⟨checked, ok, last⟩ := ok
    split at last
    · contradiction
    · exact Except.ok.inj last ▸ ok
  | false =>
    simp only [checkNetworkConfig, enabled, Bool.false_eq_true, if_false, pure, Except.pure, bind, Except.bind] at ok ⊢
    split at ok
    · contradiction
    · exact (Except.ok.inj ok).symm

theorem acceptedRange {build stored config} (ok : getNetworkConfig build stored = .ok config) :
    ∃ subnetMin subnetMax, Range config subnetMin subnetMax := by
  simp only [getNetworkConfig, bindOk] at ok
  obtain ⟨raw, _, ok⟩ := ok
  exact checkedRange (passedCheck ok)

/- The network 10.0.0.0/28, of which three blocks of four addresses are handed out. -/
def smallConfig : Config := { network := some (cidr 0x0A000000 28), subnetLen := 30 }

def smallAccepted : Config := {
  smallConfig with
  enableIpv4 := true
  subnetMin := some 0x0A000004
  subnetMax := some 0x0A00000C
  backendType := some "udp" }

theorem smallConfigAccepted (build : Build) : getNetworkConfig build (.ok smallConfig) = .ok smallAccepted := by
  cases build <;> decide

end FlannelNg
