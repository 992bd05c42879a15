import FlannelNg.HostGw
import FlannelNg.VxlanRegister

/-! The backends behind one interface, and the MTU that a registered network advertises
against the MTU of the device that carries its packets. -/
namespace FlannelNg
open Cidr Outcome

inductive Backend where
  | udp
  | vxlan
  | hostGw
  deriving DecidableEq, Repr

inductive Network where
  | udp (n : UdpNetwork)
  | vxlan (n : VxlanNetwork)
  | hostGw (n : RouterNetwork)
  deriving DecidableEq, Repr

namespace Network

def mtu (build : Build) : Network → Res Nat
  | .udp n => n.mtu build
  | .vxlan n => .ok n.extIface.iface.mtu
  | .hostGw n => .ok n.mtu

/- The TUN device, the vxlan link or the external interface. -/
def deviceMtu (extIface : ExternalInterface) : Network → Option Nat
  | .udp n => n.tunFile.map Tun.mtu
  | .vxlan n => some n.device.link.linkAttrs.mtu
  | .hostGw _ => some extIface.iface.mtu

def tun : Network → Option Tun
  | .udp n => n.tunFile
  | _ => none

end Network

theorem insertedBelow {t : LinkTable} {link : Link} : ∀ l ∈ t.links ++ [link], l.asIndex < max t.nextIndex (link.asIndex + 1) := by
  rw [List.forall_mem_append, List.forall_mem_singleton]
  exact ⟨fun l mem => Nat.lt_of_lt_of_le (t.below l mem) (Nat.le_max_left _ _), Nat.le_max_right _ _⟩

def LinkTable.insert (t : LinkTable) (link : Link) : LinkTable where
  links := t.links ++ [link]
  nextIndex := max t.nextIndex (link.asIndex + 1)
  below := insertedBelow

def Tun.link (tun : Tun) : Link := ⟨{ index := tun.linkIndex, name := tun.name, mtu := tun.mtu }, .other "tun"⟩

/- The host with the TUN device, its address and its route. -/
def Host.withTun {K V A : Type} [Inhabited A] (host : Host K V A) : Option Tun → Host K V A
  | none => host
  | some tun => {
      host with
      links := host.links.insert tun.link
      addrs := Function.update host.addrs tun.linkIndex (host.addrs tun.linkIndex ++ [⟨.v4 tun.addr, default⟩])
      routes := host.routes ++ [tun.route] }

/- The link that is found by the name of the new device has this index. -/
def UdpSetup.withIndex (setup : UdpSetup) (index : Nat) : UdpSetup :=
  { setup with linkByName := setup.linkByName.map (fun link => link.map (fun _ => index)) }

theorem indexGiven {setup : UdpSetup} {index given : Nat} (named : (setup.withIndex index).linkByName = .ok (some given)) :
    given = index := by
  simp only [UdpSetup.withIndex] at named
  cases looked : setup.linkByName with
  | error message =>
    rw [looked] at named
    cases named
  | ok link =>
    rw [looked] at named
    obtain ⟨_, _, same⟩ := Option.map_eq_some_iff.mp (Except.ok.inj named)
    exact same.symm

/-- What the system answers during a registration. -/
structure Registration (K V A : Type) where
  fuel : Nat
  stored : Res Config
  attempts : Nat → Attempt K V
  tun : UdpSetup
  vxlan : VxlanSetup A

section Register
variable {K V A : Type} [DecidableEq K] [DecidableEq A] [Inhabited A] (codec : Codec K V)
variable (equal : Addr A → Addr A → Bool) (formatMac : MacAddr6 → String)

def hostGwRegisterNetwork (build : Build) (fuel : Nat) (stored : Res Config) (attempts : Nat → Attempt K V)
    (extIface : ExternalInterface) (db : Etcd K V) : Res RouterNetwork × Etcd K V :=
  match unwrap extIface.extAddr with
  | .error stop => (.error stop, db)
  | .ok publicIp =>
    let attrs : LeaseAttrs := { publicIp, backendType := some "host-gw" }
    let (l, db) := acquireLease codec build fuel stored attrs attempts db
    let registered := do
      let l ← l
      return {
        subnetLease := l
        routes := []
        mtu := extIface.iface.mtu
        linkIndex := extIface.iface.index
        backendType := "host-gw" }
    (registered, db)

def registerNetwork (build : Build) (r : Registration K V A) (extIface : ExternalInterface) (config : Config)
    (host : Host K V A) : Backend → Res Network × Host K V A
  | .udp =>
    let setup := r.tun.withIndex host.links.nextIndex
    let (n, db) := udpRegisterNetwork codec build r.fuel r.stored r.attempts setup extIface config host.db
    match n with
    -- the file is closed, and a device that is not persistent goes with it
    | .error stop => (.error stop, { host with db })
    | .ok n => (.ok (.udp n), { host with db }.withTun n.tunFile)
  | .vxlan =>
    let (n, host) := vxlanRegisterNetwork codec equal formatMac build r.fuel r.stored r.attempts r.vxlan extIface config host
    (n.map .vxlan, host)
  | .hostGw =>
    let (n, db) := hostGwRegisterNetwork codec build r.fuel r.stored r.attempts extIface host.db
    (n.map .hostGw, { host with db })

end Register

namespace Backend

def overhead : Backend → Nat
  | .udp => encapOverhead
  | .vxlan => vxlanOverhead
  | .hostGw => 0

/- The MTU from which that of the device is derived. -/
def sourceMtu (extIface : ExternalInterface) (config : Config) : Backend → Nat
  | .vxlan => configuredMtu extIface config
  | _ => extIface.iface.mtu

end Backend

/- The advertised MTU is one of the device, and with the overhead that is the one it is derived from. -/
def Carries (build : Build) (extIface : ExternalInterface) (config : Config) (backend : Backend) (n : Network) : Prop :=
  ∃ advertised device, n.mtu build = .ok advertised ∧ n.deviceMtu extIface = some device ∧ advertised ≤ device ∧
    device + backend.overhead = backend.sourceMtu extIface config

section Mtu
variable {K V A : Type} [DecidableEq K] [DecidableEq A] [Inhabited A] (codec : Codec K V)
variable (equal : Addr A → Addr A → Bool) (formatMac : MacAddr6 → String) (build : Build) (r : Registration K V A)
variable (extIface : ExternalInterface) (config : Config) (host : Host K V A)

/- The registration gets to the subtraction of the overhead. -/
def Subtracts : Backend → Prop
  | .udp => (∃ lease, (acquireLease codec build r.fuel r.stored { publicIp := extIface.ifaceAddr } r.attempts host.db).1 =
      .ok lease) ∧ config.network ≠ none ∧ (∃ name, r.tun.openTun = .ok name) ∧ r.tun.register = none
  | .vxlan => ∃ made, vxlanAttrs extIface config = .ok made
  | .hostGw => False

def Underflows (backend : Backend) : Prop :=
  Subtracts codec build r extIface config host backend ∧ backend.sourceMtu extIface config < backend.overhead

/- The registration fails, or nothing underflows and the network carries what it advertises. -/
def AdvertisesFitting (backend : Backend) : Prop :=
  let x := (registerNetwork codec equal formatMac build r extIface config host backend).1
  (∃ message, x = .error (.bail message)) ∨
    (¬Underflows codec build r extIface config host backend ∧ ∀ n, x = .ok n → Carries build extIface config backend n)

/- The registration gave a network, or an underflow that no error followed. -/
def Settles (backend : Backend) : Prop :=
  let x := (registerNetwork codec equal formatMac build r extIface config host backend).1
  (∃ n, x = .ok n) ∨ (Underflows codec build r extIface config host backend ∧ ¬∃ message, x = .error (.bail message))

def MtuFits : Backend → Prop
  | .udp => encapOverhead ≤ extIface.iface.mtu
  | .vxlan => VxlanFits r.vxlan extIface config host.links
  | .hostGw => True

variable {codec} {equal} {formatMac} {build} {r} {extIface} {config} {host}

theorem registeredUdp {bn : Network} {after : Host K V A} :
    registerNetwork codec equal formatMac build r extIface config host .udp = (.ok bn, after) ↔
      ∃ n db, bn = .udp n ∧ after = { host with db }.withTun n.tunFile ∧ udpRegisterNetwork codec build r.fuel r.stored
        r.attempts (r.tun.withIndex host.links.nextIndex) extIface config host.db = (.ok n, db) := by
  rw [registerNetwork]
  rcases udpRegisterNetwork codec build r.fuel r.stored r.attempts (r.tun.withIndex host.links.nextIndex) extIface config
    host.db with ⟨stop | n, db⟩
  · simp
  · constructor
    · intro registered
      obtain ⟨same, last⟩ := Prod.mk.inj registered
      exact ⟨n, db, (Except.ok.inj same).symm, last.symm, rfl⟩
    · rintro ⟨n', db', rfl, rfl, same⟩
      cases same
      rfl

/-- A device with the address of the network, which is routed over it. -/
structure TunFor (net : Ipv4Network) (tun : Tun) : Prop where
  addr : tun.addr = ⟨net.ip, 32, Nat.le_refl 32⟩
  route : tun.route = { linkIndex := tun.linkIndex, dst := some ⟨net.network, net.prefixLen, net.valid⟩ }

theorem configuredTun {setup : UdpSetup} {ifname : String} {net : Ipv4Network} {mtu : Nat} {tun : Tun}
    (configured : configureTun setup ifname net mtu = .ok tun) :
    setup.linkByName = .ok (some tun.linkIndex) ∧ tun.mtu = mtu ∧ TunFor net tun := by
  simp only [configureTun, bindOk, liftOk, okOrOk, newValid net.valid, newValid (Nat.le_refl 32), Option.some.injEq] at configured
  obtain ⟨link, looked, index, rfl, addr, rfl, _, _, _, _, _, _, dst, rfl, _, _, done⟩ := configured
  cases Except.ok.inj done
  exact ⟨looked, rfl, rfl, rfl⟩

theorem newTun {setup : UdpSetup} {port : Nat} {net : Ipv4Network} {lease : Lease} {n : UdpNetwork}
    (made : UdpNetwork.new build setup extIface port net lease = .ok n) :
    n.extIface = extIface ∧ n.subnetLease = lease ∧ ∃ tun, n.tunFile = some tun ∧ n.mtu build = .ok tun.mtu ∧
      setup.linkByName = .ok (some tun.linkIndex) ∧ TunFor net tun := by
  simp only [UdpNetwork.new, UdpNetwork.initTun, bindOk] at made
  obtain ⟨_, ⟨_, _, _, _, mtu, known, tun, configured, last⟩, socket, _, done⟩ := made
  cases Except.ok.inj last
  cases Except.ok.inj done
  obtain ⟨named, rfl, made⟩ := configuredTun configured
  exact ⟨rfl, rfl, tun, rfl, known, named, made⟩

theorem udpTun {setup : UdpSetup} {n : UdpNetwork} {fuel : Nat} {stored : Res Config} {attempts : Nat → Attempt K V}
    {db : Etcd K V} (registered : (udpRegisterNetwork codec build fuel stored attempts setup extIface config db).1 = .ok n) :
    n.extIface = extIface ∧ ∃ net tun, config.network = some net ∧ n.tunFile = some tun ∧ n.mtu build = .ok tun.mtu ∧
      setup.linkByName = .ok (some tun.linkIndex) ∧ TunFor ⟨n.subnetLease.subnet.ip, net.prefixLen, net.valid⟩ tun := by
  simp only [udpRegisterNetwork, bindOk, Config.getFlannelNetwork, okOrOk] at registered
  obtain ⟨lease, _, net, given, tunNet, valid, made⟩ := registered
  cases Option.some.inj ((newValid net.valid).symm.trans valid)
  obtain ⟨same, rfl, tun, device, known, named, isFor⟩ := newTun made
  exact ⟨same, net, tun, given, device, known, named, isFor⟩

theorem hostGwMtu {fuel : Nat} {stored : Res Config} {attempts : Nat → Attempt K V} {db : Etcd K V} {n : RouterNetwork}
    (registered : (hostGwRegisterNetwork codec build fuel stored attempts extIface db).1 = .ok n) :
    n.mtu = extIface.iface.mtu := by
  unfold hostGwRegisterNetwork at registered
  split at registered
  · contradiction
  · simp only [bindOk] at registered
    obtain ⟨_, _, done⟩ := registered
    rw [← Except.ok.inj done]

/- The advertised MTU and that of the device are determined by the network. -/
theorem carriesIff {backend : Backend} {n : Network} {advertised device : Nat} (known : n.mtu build = .ok advertised)
    (found : n.deviceMtu extIface = some device) : Carries build extIface config backend n ↔
      advertised ≤ device ∧ device + backend.overhead = backend.sourceMtu extIface config := by
  constructor
  · rintro ⟨advertised', device', known', found', fits⟩
    cases Except.ok.inj (known.symm.trans known')
    cases Option.some.inj (found.symm.trans found')
    exact fits
  · intro fits
    exact ⟨advertised, device, known, found, fits⟩

theorem registeredCarries {backend : Backend} {n : Network}
    (registered : (registerNetwork codec equal formatMac build r extIface config host backend).1 = .ok n) :
    Carries build extIface config backend n ↔ MtuFits r extIface config host backend := by
  cases backend with
  | udp =>
    obtain ⟨made, db, rfl, _, ok⟩ := registeredUdp.mp (Prod.ext registered rfl)
    obtain ⟨same, _, tun, _, device, known, _⟩ := udpTun (congrArg Prod.fst ok)
    have found : (Network.udp made).deviceMtu extIface = some tun.mtu := by rw [Network.deviceMtu, device, Option.map_some]
    have subtracted : subNat 32 build extIface.iface.mtu encapOverhead = .ok tun.mtu := by
      rw [← same]
      exact known
    have derived := subNatBack subtracted
    have advertised : (Network.udp made).mtu build = .ok tun.mtu := known
    rw [carriesIff advertised found]
    exact ⟨fun fits => derived.mp fits.2, fun enough => ⟨Nat.le_refl _, derived.mpr enough⟩⟩
  | vxlan =>
    obtain ⟨made, ok, rfl⟩ := mapOk.mp registered
    have known : (Network.vxlan made).mtu build = .ok extIface.iface.mtu := by
      rw [Network.mtu, (vxlanRegistered (Prod.ext ok rfl)).1]
    rw [carriesIff known rfl]
    exact registeredMtu (Prod.ext ok rfl)
  | hostGw =>
    obtain ⟨made, ok, rfl⟩ := mapOk.mp registered
    have known : (Network.hostGw made).mtu build = .ok extIface.iface.mtu := by rw [Network.mtu, hostGwMtu ok]
    rw [carriesIff known rfl]
    exact iff_of_true ⟨Nat.le_refl _, rfl⟩ trivial

omit [DecidableEq A] [Inhabited A] in
theorem underflowUnfit {backend : Backend} (underflows : Underflows codec build r extIface config host backend) :
    ¬MtuFits r extIface config host backend := by
  intro fits
  have small := underflows.2
  cases backend with
  | udp => exact absurd fits (Nat.not_le.mpr small)
  | vxlan =>
    have wide := fits.wide
    change configuredMtu extIface config < vxlanOverhead at small
    omega
  | hostGw => exact absurd small (Nat.not_lt_zero _)

/- With overflow checks the registration does not get past an underflow. -/
theorem underflowPanics {backend : Backend} (underflows : Underflows codec .checked r extIface config host backend) :
    (registerNetwork codec equal formatMac .checked r extIface config host backend).1 = .error .panicked := by
  obtain ⟨reached, small⟩ := underflows
  cases backend with
  | udp =>
    obtain ⟨⟨lease, acquired⟩, network, ⟨name, opened⟩, registers⟩ := reached
    obtain ⟨net, given⟩ := Option.ne_none_iff_exists'.mp network
    have under : subNat 32 .checked extIface.iface.mtu encapOverhead = .error .panicked := if_neg (Nat.not_le.mpr small)
    have stopped : (udpRegisterNetwork codec .checked r.fuel r.stored r.attempts (r.tun.withIndex host.links.nextIndex)
        extIface config host.db).1 = .error .panicked := by
      simp only [udpRegisterNetwork, acquired, bind, Except.bind, Config.getFlannelNetwork, given, okOr, newValid net.valid,
        UdpNetwork.new, UdpNetwork.initTun, UdpSetup.withIndex, opened, lift, registers, answer, UdpNetwork.mtu, under]
    simp only [registerNetwork, stopped]
  | vxlan =>
    obtain ⟨⟨vxlanConfig, attrs⟩, read⟩ := reached
    have under : subNat 32 .checked attrs.mtu vxlanOverhead = .error .panicked :=
      if_neg (Nat.not_le.mpr (attrsMtu read ▸ small))
    have stopped : (vxlanRegisterNetwork codec equal formatMac .checked r.fuel r.stored r.attempts r.vxlan extIface config
        host).1 = .error .panicked := by
      simp only [vxlanRegisterNetwork, read, VxlanDevice.new, under]
    exact congrArg (Except.map Network.vxlan) stopped
  | hostGw => exact absurd small (Nat.not_lt_zero _)

/- Where the registration settles it, the inputs decide. -/
theorem settledFits {backend : Backend} (settles : Settles codec equal formatMac build r extIface config host backend) :
    AdvertisesFitting codec equal formatMac build r extIface config host backend ↔
      MtuFits r extIface config host backend := by
  refine ⟨?_, fun fits => ?_⟩
  · rintro (⟨message, failed⟩ | ⟨noUnderflow, carried⟩)
    · rcases settles with ⟨n, registered⟩ | ⟨_, noError⟩
      · rw [failed] at registered
        contradiction
      · exact absurd ⟨message, failed⟩ noError
    · rcases settles with ⟨n, registered⟩ | ⟨underflows, _⟩
      · exact (registeredCarries registered).mp (carried n registered)
      · exact absurd underflows noUnderflow
  · exact .inr ⟨fun underflows => underflowUnfit underflows fits, fun n registered => (registeredCarries registered).mpr fits⟩

theorem settledVxlan (settles : Settles codec equal formatMac build r extIface config host .vxlan) :
    ∃ vxlanConfig attrs, vxlanAttrs extIface config = .ok (vxlanConfig, attrs) := by
  rcases settles with ⟨n, registered⟩ | ⟨⟨⟨⟨vxlanConfig, attrs⟩, read⟩, _⟩, _⟩
  · obtain ⟨made, ok, _⟩ := mapOk.mp registered
    obtain ⟨_, vxlanConfig, attrs, read, _⟩ := vxlanRegistered (Prod.ext ok rfl)
    exact ⟨vxlanConfig, attrs, read⟩
  · exact ⟨vxlanConfig, attrs, read⟩

/- Every run that does not settle it is in order. -/
theorem advertisesFitting {backend : Backend} :
    (Settles codec equal formatMac build r extIface config host backend →
      (AdvertisesFitting codec equal formatMac build r extIface config host backend ↔
        MtuFits r extIface config host backend)) ∧
    (¬Settles codec equal formatMac build r extIface config host backend →
      AdvertisesFitting codec equal formatMac build r extIface config host backend) ∧
    (Caps r.vxlan.link.newMtu extIface.iface.mtu → 68 < extIface.iface.mtu →
      Settles codec equal formatMac build r extIface config host .vxlan →
        (AdvertisesFitting codec equal formatMac build r extIface config host .vxlan ↔
          VxlanKept r.vxlan extIface config host.links)) := by
  refine ⟨settledFits, fun open_ => ?_, fun caps large settles => ?_⟩
  · by_cases failed : ∃ message,
        (registerNetwork codec equal formatMac build r extIface config host backend).1 = .error (.bail message)
    · exact .inl failed
    · refine .inr ⟨fun underflows => open_ (.inr ⟨underflows, failed⟩), fun n registered => ?_⟩
      exact absurd (.inl ⟨n, registered⟩) open_
  · obtain ⟨vxlanConfig, attrs, read⟩ := settledVxlan settles
    exact (settledFits settles).trans (cappedFits caps large read)

end Mtu

private def vxlanRound (_ : Nat) : Attempt Ipv4Network LeaseAttrs where
  read := ReadRpc.quiet 100 0
  pick := 0
  write := WriteRpc.quiet 1 0

private def vxlanType : Json := .obj [("Type", .str "vxlan")]

private def vxlanRegistration : Registration Ipv4Network LeaseAttrs Unit where
  fuel := 9
  stored := .ok { smallConfig with backend := some vxlanType }
  attempts := vxlanRound
  tun := { openTun := .error "no TUN device", linkByName := .ok none, ephemeral := 40000 }
  vxlan := { random := 0x0142AC110002, link := { newMtu := fun mtu => min mtu 1450 } }

private def vxlanIface : ExternalInterface where
  iface := ⟨2, 1500, "eth0"⟩
  ifaceAddr := 0xC0A80002
  extAddr := some 0xC0A80002

private def emptyHost : Host Ipv4Network LeaseAttrs Unit := ⟨⟨[], 3, by simp⟩, fun _ => [], [], Etcd.empty⟩

private def vxlanAccepted : Config := { smallAccepted with backend := some vxlanType }

private def defaultVxlan : VxlanNetwork where
  subnetLease := {
    Lease.default 0 with
    enableIpv4 := true
    subnet := cidr 0x0A000004 30
    attrs := vxlanLeaseAttrs (fun _ => "02:42:AC:11:00:02") vxlanIface 1 0x0242AC110002
    expiration := 86400 * SystemTime.nanos }
  extIface := vxlanIface
  device := {
    link := {
      linkAttrs := { index := 3, name := "flannel.1", mtu := 1450, hardwareAddr := some 0x0242AC110002 }
      linkKind := .vxlan { vxlanId := 1, vtepDevIndex := 2, srcAddr := some (.v4 0xC0A80002) } }
    directRouting := false }
  mtu := 1500

/- Without an MTU of the configuration the network advertises 1500 bytes over a link of 1450. -/
theorem defaultVxlanTooWide :
    (registerNetwork Codec.plain (fun x y => decide (x = y)) (fun _ => "02:42:AC:11:00:02") .checked vxlanRegistration
        vxlanIface vxlanAccepted emptyHost .vxlan).1 = .ok (.vxlan defaultVxlan) ∧
      (Network.vxlan defaultVxlan).mtu .checked = .ok 1500 ∧
      (Network.vxlan defaultVxlan).deviceMtu vxlanIface = some 1450 ∧
      ¬AdvertisesFitting Codec.plain (fun x y => decide (x = y)) (fun _ => "02:42:AC:11:00:02") .checked vxlanRegistration
        vxlanIface vxlanAccepted emptyHost .vxlan := by
  have registered : (registerNetwork Codec.plain (fun x y => decide (x = y)) (fun _ => "02:42:AC:11:00:02") .checked
      vxlanRegistration vxlanIface vxlanAccepted emptyHost .vxlan).1 = .ok (.vxlan defaultVxlan) := by decide
  refine ⟨registered, rfl, rfl, ?_⟩
  rintro (⟨message, failed⟩ | ⟨_, carried⟩)
  · rw [registered] at failed
    contradiction
  · have fits := (@carriesIff .checked vxlanIface vxlanAccepted .vxlan (.vxlan defaultVxlan) 1500 1450 rfl rfl).mp
      (carried _ registered)
    exact absurd fits.1 (by decide)

private def wideVxlan : Json := .obj [("Type", .str "vxlan"), ("MTU", .num 1550)]

private def wideAccepted : Config := { vxlanAccepted with backend := some wideVxlan }

private def wideLink : Link where
  linkAttrs := { index := 5, name := "flannel.1", mtu := 1500, hardwareAddr := some 0x0242AC110003 }
  linkKind := .vxlan { vxlanId := 1, srcAddr := some (.v4 0xC0A80002) }

private def wideHost : Host Ipv4Network LeaseAttrs Unit := ⟨⟨[wideLink], 6, by decide⟩, fun _ => [], [], Etcd.empty⟩

/- A link that somebody has made without a lower device is as wide as the configuration says. -/
theorem keptVxlanFits :
    (Network.mtu .checked <$> (registerNetwork Codec.plain (fun x y => decide (x = y)) (fun _ => "02:42:AC:11:00:03") .checked
        vxlanRegistration vxlanIface wideAccepted wideHost .vxlan).1) = .ok (.ok 1500) ∧
      AdvertisesFitting Codec.plain (fun x y => decide (x = y)) (fun _ => "02:42:AC:11:00:03") .checked vxlanRegistration
        vxlanIface wideAccepted wideHost .vxlan := by
  have caps : Caps vxlanRegistration.vxlan.link.newMtu vxlanIface.iface.mtu := fun mtu =>
    Nat.le_trans (Nat.min_le_right mtu 1450) (Nat.le_max_right 68 1450)
  have kept : VxlanKept vxlanRegistration.vxlan vxlanIface wideAccepted wideHost.links :=
    ⟨by decide, _, _, wideLink, rfl, ⟨rfl, _, _, rfl, fun _ => by decide⟩, rfl⟩
  have advertised : (Network.mtu .checked <$> (registerNetwork Codec.plain (fun x y => decide (x = y))
      (fun _ => "02:42:AC:11:00:03") .checked vxlanRegistration vxlanIface wideAccepted wideHost
      .vxlan).1) = .ok (.ok 1500) := by decide
  obtain ⟨n, registered, _⟩ := mapOk.mp advertised
  obtain ⟨_, _, capped⟩ := @advertisesFitting _ _ _ _ _ _ Codec.plain (fun x y => decide (x = y))
    (fun _ => "02:42:AC:11:00:03") .checked vxlanRegistration vxlanIface wideAccepted wideHost .vxlan
  exact ⟨advertised, (capped caps (by decide) (.inl ⟨n, registered⟩)).mpr kept⟩

end FlannelNg
