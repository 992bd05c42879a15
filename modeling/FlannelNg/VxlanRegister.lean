import FlannelNg.OverlayAddr
import FlannelNg.UdpNetwork
import FlannelNg.Vxlan
import FlannelNg.VxlanLink

/-! The registration of the vxlan backend: the device is made first, then a lease is
acquired whose attributes carry its MAC, and its address is set on the device. -/
namespace FlannelNg
open Cidr Outcome

namespace Json

def asBool : Json → Option Bool
  | .bool b => some b
  | _ => none

def asU16 : Json → Option Nat
  | .num n => if 0 ≤ n ∧ n < 0x10000 then some n.toNat else none
  | _ => none

/- `Option` of a value, which `null` leaves unset. -/
def asOption {α : Type} (read : Json → Option α) : Json → Option (Option α)
  | .null => some none
  | value => (read value).map some

/- A member that may be missing. -/
def orDefault {α : Type} (fallback : α) (read : Json → Option α) : Option Json → Option α
  | none => some fallback
  | some value => read value

end Json

structure VxlanConfig where
  vxlanType : String
  vni : Nat
  port : Nat
  gbp : Bool
  directRouting : Bool
  mtu : Option Nat
  deriving DecidableEq, Repr

namespace VxlanConfig

/- `member` finds one by its name or by its position. -/
def read (member : String → Nat → Option Json) : Option VxlanConfig := do
  let vxlanType ← Json.orDefault "" Json.asStr (member "Type" 0)
  let vni ← Json.orDefault 0 Json.asU32 (member "VNI" 1)
  let port ← Json.orDefault 0 Json.asU16 (member "Port" 2)
  let gbp ← Json.orDefault false Json.asBool (member "GBP" 3)
  let directRouting ← Json.orDefault false Json.asBool (member "DirectRouting" 4)
  let mtu ← Json.orDefault none (Json.asOption Json.asU32) (member "MTU" 5)
  some ⟨vxlanType, vni, port, gbp, directRouting, mtu⟩

def fromJson : Json → Option VxlanConfig
  | .obj members => read (fun name _ => Json.get name members)
  | .arr items => if items.length ≤ 6 then read (fun _ position => items[position]?) else none
  | _ => none

/- The values that stand for unset ones. -/
def complete (extIface : ExternalInterface) (vxlanConfig : VxlanConfig) : VxlanConfig := {
  vxlanConfig with
  vni := if vxlanConfig.vni = 0 then 1 else vxlanConfig.vni
  port := if vxlanConfig.port = 0 then 8472 else vxlanConfig.port
  mtu := if vxlanConfig.mtu.isNone then some extIface.iface.mtu else vxlanConfig.mtu }

end VxlanConfig

structure VxlanDeviceAttrs where
  vni : Nat
  name : String
  mtu : Nat
  vtepIndex : Nat
  vtepAddr : IpAddr
  vtepPort : Nat
  gbp : Bool
  deriving DecidableEq, Repr

def vxlanOverhead : Nat := 50

/- A local unicast address: of the random bytes the two last bits of the first are set. -/
def newHardwareAddr (random : MacAddr6) : MacAddr6 := random &&& 0xFEFFFFFFFFFF ||| 0x020000000000

def VxlanDeviceAttrs.link (attrs : VxlanDeviceAttrs) (macAddr : MacAddr6) (mtu : Nat) : Link where
  linkAttrs := {
    name := attrs.name
    mtu
    hardwareAddr := some macAddr }
  linkKind := .vxlan {
    vxlanId := attrs.vni
    vtepDevIndex := attrs.vtepIndex
    srcAddr := some attrs.vtepAddr
    gbp := attrs.gbp }

namespace VxlanDevice

def new (build : Build) (calls : LinkCalls) (random : MacAddr6) (attrs : VxlanDeviceAttrs) (directRouting : Bool)
    (t : LinkTable) : Res VxlanDevice × LinkTable :=
  let macAddr := newHardwareAddr random
  match subNat 32 build attrs.mtu vxlanOverhead with
  | .error stop => (.error stop, t)
  | .ok mtu =>
    match ensureVxlanLink calls (attrs.link macAddr mtu) t with
    | (vxlanLink, t) => ((context "ensure_vxlan_link error" vxlanLink).map (fun link => ⟨link, directRouting⟩), t)

variable {A : Type} [DecidableEq A] [Inhabited A]

def configure (device : VxlanDevice) (equal : Addr A → Addr A → Bool) (calls : AddrCalls A) (setUp : Option String)
    (ipa flannelNet : Ipv4Network) (addrs : Nat → List (Addr A)) : Res Unit × (Nat → List (Addr A)) :=
  match ensureV4AddrOnLink equal calls ipa flannelNet (addrs device.linkIndex) with
  | (.error stop, left) => (.error stop, Function.update addrs device.linkIndex left)
  | (.ok (), left) => (answer setUp (.ok ()), Function.update addrs device.linkIndex left)

end VxlanDevice

/-- What the system answers while the vxlan device is made and set up. -/
structure VxlanSetup (A : Type) where
  random : MacAddr6
  link : LinkCalls
  addr : AddrCalls A := {}
  setUp : Option String := none

/-- The links of a host, their addresses and routes, and the store. -/
structure Host (K V A : Type) where
  links : LinkTable
  addrs : Nat → List (Addr A)
  routes : List Route
  db : Etcd K V

/- A link that goes takes its addresses and its routes with it. -/
def Host.withLinks {K V A : Type} (host : Host K V A) (links : LinkTable) : Host K V A := {
  host with
  links
  addrs := fun index => if host.links.lost links index then [] else host.addrs index
  routes := host.routes.filter (fun route => !host.links.lost links route.linkIndex) }

/- The configuration with its defaults and what the device is made of. -/
def vxlanAttrs (extIface : ExternalInterface) (config : Config) : Res (VxlanConfig × VxlanDeviceAttrs) := do
  let backend ← okOr "backend is not defined" config.backend
  let vxlanConfig ← okOr "invalid vxlan config" (VxlanConfig.fromJson backend)
  let vxlanConfig := vxlanConfig.complete extIface
  let mtu ← unwrap vxlanConfig.mtu
  return (vxlanConfig, {
    vni := vxlanConfig.vni
    name := "flannel." ++ toString vxlanConfig.vni
    mtu
    vtepIndex := extIface.iface.index
    vtepAddr := .v4 extIface.ifaceAddr
    vtepPort := vxlanConfig.port
    gbp := vxlanConfig.gbp })

/- `formatMac` is the text of a MAC address. -/
def vxlanLeaseAttrs (formatMac : MacAddr6 → String) (extIface : ExternalInterface) (vni : Nat) (mac : MacAddr6) : LeaseAttrs where
  publicIp := extIface.ifaceAddr
  backendType := some "vxlan"
  backendData := some (.obj [("VNI", .num vni), ("VtepMAC", .str (formatMac mac))])

/- The MTU of the backend configuration, or that of the external interface where it has none. -/
def configuredMtu (extIface : ExternalInterface) (config : Config) : Nat :=
  ((config.backend.bind VxlanConfig.fromJson).bind VxlanConfig.mtu).getD extIface.iface.mtu

/-- The device is at least as wide as the external interface, a new link gets the MTU that is
asked for, and a link that is there already has it. -/
structure VxlanFits {A : Type} (setup : VxlanSetup A) (extIface : ExternalInterface) (config : Config) (t : LinkTable) : Prop where
  wide : extIface.iface.mtu + vxlanOverhead ≤ configuredMtu extIface config
  made : ∀ vxlanConfig attrs, vxlanAttrs extIface config = .ok (vxlanConfig, attrs) →
    (∀ l, ¬TakenOver setup.link (attrs.link (newHardwareAddr setup.random) (attrs.mtu - vxlanOverhead)) t l) →
      setup.link.newMtu (attrs.mtu - vxlanOverhead) + vxlanOverhead = attrs.mtu
  taken : ∀ vxlanConfig attrs l, vxlanAttrs extIface config = .ok (vxlanConfig, attrs) →
    TakenOver setup.link (attrs.link (newHardwareAddr setup.random) (attrs.mtu - vxlanOverhead)) t l →
      l.linkAttrs.mtu + vxlanOverhead = attrs.mtu

/- Linux gives a vxlan link no more than its lower device carries, or 68 bytes if that is less. -/
def Caps (newMtu : Nat → Nat) (lower : Nat) : Prop := ∀ mtu, newMtu mtu ≤ max 68 (lower - vxlanOverhead)

/-- The device is at least as wide as the external interface, and a link that is there already
has the MTU that would be asked for. -/
structure VxlanKept {A : Type} (setup : VxlanSetup A) (extIface : ExternalInterface) (config : Config) (t : LinkTable) : Prop where
  wide : extIface.iface.mtu + vxlanOverhead ≤ configuredMtu extIface config
  kept : ∃ vxlanConfig attrs l, vxlanAttrs extIface config = .ok (vxlanConfig, attrs) ∧
    TakenOver setup.link (attrs.link (newHardwareAddr setup.random) (attrs.mtu - vxlanOverhead)) t l ∧
      l.linkAttrs.mtu + vxlanOverhead = attrs.mtu

section Register
variable {K V A : Type} [DecidableEq K] [DecidableEq A] [Inhabited A] (codec : Codec K V)
variable (equal : Addr A → Addr A → Bool) (formatMac : MacAddr6 → String)

def vxlanRegisterNetwork (build : Build) (fuel : Nat) (stored : Res Config) (attempts : Nat → Attempt K V)
    (setup : VxlanSetup A) (extIface : ExternalInterface) (config : Config) (host : Host K V A) :
    Res VxlanNetwork × Host K V A :=
  match vxlanAttrs extIface config with
  | .error stop => (.error stop, host)
  | .ok (vxlanConfig, attrs) =>
    match VxlanDevice.new build setup.link setup.random attrs vxlanConfig.directRouting host.links with
    | (.error stop, links) => (.error stop, host.withLinks links)
    | (.ok device, links) =>
      let host := host.withLinks links
      match unwrap device.link.linkAttrs.hardwareAddr with
      | .error stop => (.error stop, host)
      | .ok mac =>
        let leaseAttr := vxlanLeaseAttrs formatMac extIface vxlanConfig.vni mac
        let (acquired, db) := acquireLease codec build fuel stored leaseAttr attempts host.db
        let ready : Res (Lease × Ipv4Network × Ipv4Network) := do
          let lease ← acquired
          let net ← config.getFlannelNetwork
          let ipa ← okOr "invalid prefix" (Ipv4Network.new lease.subnet.ip 32)
          return (lease, net, ipa)
        match ready with
        | .error stop => (.error stop, { host with db })
        | .ok (lease, net, ipa) =>
          match device.configure equal setup.addr setup.setUp ipa net host.addrs with
          | (.error stop, addrs) => (.error stop, { host with addrs, db })
          | (.ok (), addrs) => (.ok ⟨lease, extIface, device, attrs.mtu⟩, { host with addrs, db })

variable {codec} {equal} {formatMac} {build : Build} {fuel : Nat} {stored : Res Config} {attempts : Nat → Attempt K V}
variable {setup : VxlanSetup A} {extIface : ExternalInterface} {config : Config} {host after : Host K V A} {n : VxlanNetwork}
variable {vxlanConfig : VxlanConfig} {attrs : VxlanDeviceAttrs}

theorem attrsMtu (read : vxlanAttrs extIface config = .ok (vxlanConfig, attrs)) :
    attrs.mtu = configuredMtu extIface config := by
  simp only [vxlanAttrs, bindOk, okOrOk, unwrapOk] at read
  obtain ⟨backend, given, raw, parsed, mtu, chosen, done⟩ := read
  rw [← (Prod.mk.inj (Except.ok.inj done)).2]
  cases unset : raw.mtu with
  | none =>
    simp only [VxlanConfig.complete, unset, Option.isNone_none, if_true, Option.some.injEq] at chosen
    simp [configuredMtu, given, parsed, unset, chosen]
  | some m =>
    simp only [VxlanConfig.complete, unset, Option.isNone_some, Bool.false_eq_true, if_false, Option.some.injEq] at chosen
    simp [configuredMtu, given, parsed, unset, chosen]

theorem deviceMade {calls : LinkCalls} {random : MacAddr6} {directRouting : Bool} {t later : LinkTable}
    {device : VxlanDevice} (made : VxlanDevice.new build calls random attrs directRouting t = (.ok device, later)) :
    ∃ mtu, subNat 32 build attrs.mtu vxlanOverhead = .ok mtu ∧
      ensureVxlanLink calls (attrs.link (newHardwareAddr random) mtu) t = (.ok device.link, later) := by
  unfold VxlanDevice.new at made
  split at made
  · simp at made
  · rename_i mtu subtracted
    refine ⟨mtu, subtracted, ?_⟩
    cases ensured : ensureVxlanLink calls (attrs.link (newHardwareAddr random) mtu) t with
    | mk vxlanLink left =>
      dsimp only at made
      rw [ensured] at made
      obtain ⟨same, final⟩ := Prod.mk.inj made
      obtain ⟨link, given, rfl⟩ := mapOk.mp same
      exact Prod.ext (contextOk.mp given) final

theorem vxlanRegistered (registered : vxlanRegisterNetwork codec equal formatMac build fuel stored attempts setup extIface
      config host = (.ok n, after)) : n.extIface = extIface ∧ ∃ vxlanConfig attrs, vxlanAttrs extIface config =
        .ok (vxlanConfig, attrs) ∧ VxlanDevice.new build setup.link setup.random attrs vxlanConfig.directRouting host.links =
          (.ok n.device, after.links) := by
  unfold vxlanRegisterNetwork at registered
  split at registered
  · simp at registered
  · rename_i vxlanConfig attrs read
    split at registered
    · simp at registered
    · rename_i device links made
      split at registered
      · simp at registered
      · dsimp only at registered
        split at registered
        · simp at registered
        · split at registered
          · simp at registered
          · obtain ⟨same, later⟩ := Prod.mk.inj registered
            cases Except.ok.inj same
            cases later
            exact ⟨rfl, vxlanConfig, attrs, read, made⟩

/- A link that is taken over keeps its own MTU. -/
theorem registeredMtu (registered : vxlanRegisterNetwork codec equal formatMac build fuel stored attempts setup extIface
      config host = (.ok n, after)) :
    (extIface.iface.mtu ≤ n.device.link.linkAttrs.mtu ∧
        n.device.link.linkAttrs.mtu + vxlanOverhead = configuredMtu extIface config) ↔
      VxlanFits setup extIface config host.links := by
  obtain ⟨_, vxlanConfig, attrs, read, made⟩ := vxlanRegistered registered
  obtain ⟨mtu, subtracted, ensured⟩ := deviceMade made
  rw [← attrsMtu read]
  by_cases enough : vxlanOverhead ≤ attrs.mtu
  · rw [subNatOk enough] at subtracted
    cases Except.ok.inj subtracted
    constructor
    · rintro ⟨covered, derived⟩
      have wide : extIface.iface.mtu + vxlanOverhead ≤ attrs.mtu := by omega
      refine ⟨attrsMtu read ▸ wide, fun vxlanConfig' attrs' read' noneTaken => ?_, fun vxlanConfig' attrs' l read' taken => ?_⟩
      · cases Except.ok.inj (read.symm.trans read')
        rcases ensuredLink ensured with ⟨created, _⟩ | ⟨kept, _⟩
        · rw [created.request] at derived
          exact derived
        · exact absurd kept (noneTaken _)
      · cases Except.ok.inj (read.symm.trans read')
        rcases ensuredLink ensured with ⟨_, noneTaken⟩ | ⟨kept, _⟩
        · exact absurd taken (noneTaken l)
        · cases Option.some.inj (taken.named.symm.trans kept.named)
          exact derived
    · intro fits
      have wide : extIface.iface.mtu + vxlanOverhead ≤ attrs.mtu := attrsMtu read ▸ fits.wide
      have derived : n.device.link.linkAttrs.mtu + vxlanOverhead = attrs.mtu := by
        rcases ensuredLink ensured with ⟨created, noneTaken⟩ | ⟨kept, _⟩
        · rw [created.request]
          exact fits.made vxlanConfig attrs read noneTaken
        · exact fits.taken vxlanConfig attrs _ read kept
      exact ⟨by omega, derived⟩
  · refine iff_of_false (fun both => enough (by omega)) (fun fits => enough ?_)
    have wide := fits.wide
    rw [← attrsMtu read] at wide
    omega

omit [DecidableEq A] [Inhabited A] in
/- A new link would have to be wider than the system makes it. -/
theorem cappedFits {t : LinkTable} (caps : Caps setup.link.newMtu extIface.iface.mtu) (large : 68 < extIface.iface.mtu)
    (read : vxlanAttrs extIface config = .ok (vxlanConfig, attrs)) :
    VxlanFits setup extIface config t ↔ VxlanKept setup extIface config t := by
  constructor
  · intro fits
    refine ⟨fits.wide, vxlanConfig, attrs, ?_⟩
    by_cases taken : ∃ l, TakenOver setup.link (attrs.link (newHardwareAddr setup.random) (attrs.mtu - vxlanOverhead)) t l
    · obtain ⟨l, taken⟩ := taken
      exact ⟨l, read, taken, fits.taken vxlanConfig attrs l read taken⟩
    · have got := fits.made vxlanConfig attrs read (fun l kept => taken ⟨l, kept⟩)
      have most := caps (attrs.mtu - vxlanOverhead)
      have wide := fits.wide
      rw [← attrsMtu read] at wide
      have fifty : vxlanOverhead = 50 := rfl
      omega
  · rintro ⟨wide, vxlanConfig', attrs', l, read', kept, same⟩
    cases Except.ok.inj (read.symm.trans read')
    refine ⟨wide, fun vxlanConfig' attrs' read' none_ => ?_, fun vxlanConfig' attrs' l' read' taken => ?_⟩
    · cases Except.ok.inj (read.symm.trans read')
      exact absurd kept (none_ l)
    · cases Except.ok.inj (read.symm.trans read')
      cases Option.some.inj (kept.named.symm.trans taken.named)
      exact same

end Register
end FlannelNg
