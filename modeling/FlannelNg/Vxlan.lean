import FlannelNg.Emitted
import FlannelNg.Links

/-! The forwarding state of the vxlan backend: a put of a vxlan lease sets an ARP
entry, an FDB entry and a route; every other event is passed over. The text of a
MAC address is read by `parseMac`. -/
namespace FlannelNg
open Cidr Replay Runs Outcome

structure VxlanLeaseAttrs where
  vni : Nat
  vtepMac : String
  deriving DecidableEq, Repr

/- An object with both members, or the array of the two values. -/
def VxlanLeaseAttrs.fromJson : Json → Option VxlanLeaseAttrs
  | .obj members => do
    let vni ← (Json.get "VNI" members).bind Json.asU32
    let vtepMac ← (Json.get "VtepMAC" members).bind Json.asStr
    some ⟨vni, vtepMac⟩
  | .arr [vni, vtepMac] => do
    let vni ← vni.asU32
    let vtepMac ← vtepMac.asStr
    some ⟨vni, vtepMac⟩
  | _ => none

structure Neighbor where
  ip : Ipv4Addr
  mac : MacAddr6
  deriving DecidableEq, Repr

structure VxlanDevice where
  link : Link
  directRouting : Bool
  deriving DecidableEq, Repr

structure VxlanNetwork where
  subnetLease : Lease
  extIface : ExternalInterface
  device : VxlanDevice
  mtu : Nat
  deriving DecidableEq, Repr

structure VxlanCalls where
  arp : Option String := none
  fdb : Option String := none
  route : Option String := none

namespace VxlanDevice

def linkIndex (device : VxlanDevice) : Nat := device.link.asIndex

def addArp (device : VxlanDevice) (n : Neighbor) (failure : Option String) (k : Kernel) : Res Kernel :=
  answer failure (.ok (k.neighSet {
    linkIndex := device.linkIndex
    state := nudPermanent
    type_ := rtnUnicast
    ip := n.ip
    hardwareAddr := n.mac }))

def addFdb (device : VxlanDevice) (n : Neighbor) (failure : Option String) (k : Kernel) : Res Kernel :=
  answer failure (.ok (k.neighSet {
    linkIndex := device.linkIndex
    family := afBridge
    state := nudPermanent
    flags := ntfSelf
    ip := n.ip
    hardwareAddr := n.mac }))

end VxlanDevice

/- The VTEP of a lease; none where the loop goes on with the next event. -/
def vtepMac (parseMac : String → Option MacAddr6) (attrs : LeaseAttrs) : Res (Option MacAddr6) :=
  if attrs.backendType ≠ some "vxlan" then .ok none
  else match attrs.backendData with
  | none => .ok none
  | some data => do
    let vxlanAttrs ← okOr "backend data" (VxlanLeaseAttrs.fromJson data)
    let mac ← okOr "MAC address" (parseMac vxlanAttrs.vtepMac)
    return some mac

namespace VxlanNetwork
variable (parseMac : String → Option MacAddr6) (n : VxlanNetwork)

def route (sn : Ipv4Network) : Route where
  linkIndex := n.device.linkIndex
  scope := rtScopeUniverse
  dst := some sn
  gw := some sn.ip
  flags := rtnhFOnlink

def handlePut (sn : Ipv4Network) (publicIp : Ipv4Addr) (mac : MacAddr6) (calls : VxlanCalls) (k : Kernel) :
    Res Unit × Kernel :=
  match n.device.addArp ⟨sn.ip, mac⟩ calls.arp k with
  | .error stop => (.error stop, k)
  | .ok k =>
    match n.device.addFdb ⟨publicIp, mac⟩ calls.fdb k with
    | .error stop => (.error stop, k)
    | .ok k =>
      match answer calls.route (.ok (k.routes.routeReplace (n.route sn))) with
      | .error stop => (.error stop, k)
      | .ok routes => (.ok (), { k with routes })

def handle (e : LeaseWatchEvent) (calls : VxlanCalls) (k : Kernel) : Res Unit × Kernel :=
  match vtepMac parseMac e.lease.attrs with
  | .error stop => (.error stop, k)
  | .ok none => (.ok (), k)
  | .ok (some mac) =>
    match e.eventType with
    | .put => n.handlePut e.lease.subnet e.lease.attrs.publicIp mac calls k
    | .delete => (.ok (), k)

/- The loop ends at the first error. -/
def step (x : Res Unit × Kernel) (a : LeaseWatchEvent × VxlanCalls) : Res Unit × Kernel :=
  match x with
  | (.error stop, k) => (.error stop, k)
  | (.ok (), k) => n.handle parseMac a.1 a.2 k

end VxlanNetwork

/- What a put of a vxlan lease says: the VTEP of a subnet and the address behind it. -/
structure Announcement where
  subnet : Ipv4Network
  mac : MacAddr6
  publicIp : Ipv4Addr
  deriving DecidableEq, Repr

def announcement (parseMac : String → Option MacAddr6) (e : LeaseWatchEvent) : Option Announcement :=
  match e.eventType, vtepMac parseMac e.lease.attrs with
  | .put, .ok (some mac) => some ⟨e.lease.subnet, mac, e.lease.attrs.publicIp⟩
  | _, _ => none

def WellFormedVtep (parseMac : String → Option MacAddr6) (e : LeaseWatchEvent) : Prop :=
  ∃ mac, vtepMac parseMac e.lease.attrs = .ok mac

instance (parseMac e) : Decidable (WellFormedVtep parseMac e) :=
  match read : vtepMac parseMac e.lease.attrs with
  | .ok mac => .isTrue ⟨mac, read⟩
  | .error _ => .isFalse (by
      rintro ⟨mac, ok⟩
      rw [read] at ok
      contradiction)

namespace Announcement
variable (n : VxlanNetwork) (a : Announcement)

def routeChange : Change (Option Ipv4Network) Route := .put (some a.subnet) (n.route a.subnet)
def arpChange : Change (Nat × Ipv4Addr) MacAddr6 := .put (n.device.linkIndex, a.subnet.ip) a.mac
def fdbChange : Change (Nat × MacAddr6) Ipv4Addr := .put (n.device.linkIndex, a.mac) a.publicIp

end Announcement

structure Announced (n : VxlanNetwork) (as : List Announcement) (k k' : Kernel) : Prop where
  routes : k'.routes.route = replay k.routes.route (as.map (Announcement.routeChange n))
  arp : k'.arp = replay k.arp (as.map (Announcement.arpChange n))
  fdb : k'.fdb = replay k.fdb (as.map (Announcement.fdbChange n))

variable {parseMac : String → Option MacAddr6} {n : VxlanNetwork} {e : LeaseWatchEvent} {k k' k'' : Kernel}
variable {events : List LeaseWatchEvent} {as bs : List Announcement}

theorem announcedNone : Announced n [] k k := ⟨rfl, rfl, rfl⟩

theorem announcedTrans (first : Announced n as k k') (later : Announced n bs k' k'') : Announced n (as ++ bs) k k'' := by
  constructor
  · rw [later.routes, first.routes, List.map_append, replayAppend]
  · rw [later.arp, first.arp, List.map_append, replayAppend]
  · rw [later.fdb, first.fdb, List.map_append, replayAppend]

theorem putAnnounced {sn : Ipv4Network} {publicIp : Ipv4Addr} {mac : MacAddr6} :
    ∃ k', n.handlePut sn publicIp mac {} k = (.ok (), k') ∧ Announced n [⟨sn, mac, publicIp⟩] k k' :=
  ⟨_, rfl, rfl, rfl, rfl⟩

theorem handleAnnounced (wf : WellFormedVtep parseMac e) :
    ∃ k', n.handle parseMac e {} k = (.ok (), k') ∧ Announced n (announcement parseMac e).toList k k' := by
  obtain ⟨mac, read⟩ := wf
  unfold VxlanNetwork.handle announcement
  rw [read]
  cases mac with
  | none => cases e.eventType <;> exact ⟨k, rfl, announcedNone⟩
  | some mac =>
    cases e.eventType with
    | put => exact putAnnounced
    | delete => exact ⟨k, rfl, announcedNone⟩

theorem runAnnounced (wf : ∀ e ∈ events, WellFormedVtep parseMac e) :
    ∃ k', run (n.step parseMac) (.ok (), k) (events.map (fun e => (e, {}))) = (.ok (), k') ∧
      Announced n (events.filterMap (announcement parseMac)) k k' := by
  induction events generalizing k with
  | nil => exact ⟨k, rfl, announcedNone⟩
  | cons e rest ih =>
    obtain ⟨k₁, handled, first⟩ := @handleAnnounced parseMac n e k (wf e List.mem_cons_self)
    obtain ⟨k₂, later, rest⟩ := @ih k₁ (fun e member => wf e (List.mem_cons_of_mem _ member))
    refine ⟨k₂, ?_, ?_⟩
    · rw [List.map_cons, runCons, VxlanNetwork.step, handled]
      exact later
    · have both := announcedTrans first rest
      rw [List.filterMap_cons]
      cases found : announcement parseMac e with
      | none =>
        rw [found] at both
        exact both
      | some a =>
        rw [found] at both
        exact both

/- Packets for the subnet go by its address and the ARP and FDB entries to the public address. -/
def Reaches (n : VxlanNetwork) (k : Kernel) (s : Ipv4Network) (publicIp : Ipv4Addr) : Prop :=
  ∃ r mac, k.routes.route (some s) = some r ∧ r.gw = some s.ip ∧ r.linkIndex = n.device.linkIndex ∧
    k.arp (n.device.linkIndex, s.ip) = some mac ∧ k.fdb (n.device.linkIndex, mac) = some publicIp

/-- Later events leave an announcement in force: none of them is a vxlan event of its
subnet, and no announcement takes its address, or its MAC for another public address. -/
structure InForce (parseMac : String → Option MacAddr6) (a : Announcement) (post : List LeaseWatchEvent) : Prop where
  latest : ∀ e ∈ post, e.lease.subnet = a.subnet → vtepMac parseMac e.lease.attrs = .ok none
  apart : ∀ e ∈ post, ∀ b, announcement parseMac e = some b →
    b.subnet.ip ≠ a.subnet.ip ∧ (b.mac = a.mac → b.publicIp = a.publicIp)

theorem announcementSource {a : Announcement} (found : announcement parseMac e = some a) :
    a.subnet = e.lease.subnet ∧ vtepMac parseMac e.lease.attrs = .ok (some a.mac) := by
  unfold announcement at found
  split at found
  · rename_i read
    cases Option.some.inj found
    exact ⟨rfl, read⟩
  · contradiction

theorem laterApart {a b : Announcement} {post : List LeaseWatchEvent} (force : InForce parseMac a post)
    (member : b ∈ post.filterMap (announcement parseMac)) :
    b.subnet ≠ a.subnet ∧ b.subnet.ip ≠ a.subnet.ip ∧ (b.mac = a.mac → b.publicIp = a.publicIp) := by
  obtain ⟨e, mem, found⟩ := List.mem_filterMap.mp member
  refine ⟨fun same => ?_, force.apart e mem b found⟩
  obtain ⟨subnet, read⟩ := announcementSource found
  rw [force.latest e mem (subnet.symm.trans same)] at read
  cases Except.ok.inj read

theorem inForceReaches {a : Announcement} {post : List LeaseWatchEvent} (force : InForce parseMac a post)
    (tables : Announced n (as ++ a :: post.filterMap (announcement parseMac)) k k') : Reaches n k' a.subnet a.publicIp := by
  refine ⟨n.route a.subnet, a.mac, ?_, rfl, rfl, ?_, ?_⟩
  · rw [tables.routes, List.map_append, List.map_cons]
    refine replayInForce rfl rfl fun d member same => ?_
    obtain ⟨b, mem, rfl⟩ := List.mem_map.mp member
    exact absurd (Option.some.inj same) (laterApart force mem).1
  · rw [tables.arp, List.map_append, List.map_cons]
    refine replayInForce rfl rfl fun d member same => ?_
    obtain ⟨b, mem, rfl⟩ := List.mem_map.mp member
    exact absurd (Prod.mk.inj same).2 (laterApart force mem).2.1
  · rw [tables.fdb, List.map_append, List.map_cons]
    refine replayInForce rfl rfl fun d member same => ?_
    obtain ⟨b, mem, rfl⟩ := List.mem_map.mp member
    exact congrArg some ((laterApart force mem).2.2 (Prod.mk.inj same).2)

theorem announcedMember {α : Type} {change : Announcement → α} {c : α}
    (member : c ∈ (events.filterMap (announcement parseMac)).map change) :
    ∃ e ∈ events, ∃ a, announcement parseMac e = some a ∧ change a = c := by
  obtain ⟨a, mem, rfl⟩ := List.mem_map.mp member
  obtain ⟨e, mem, found⟩ := List.mem_filterMap.mp mem
  exact ⟨e, mem, a, found, rfl⟩

theorem handleSkipped {calls : VxlanCalls} (skipped : vtepMac parseMac e.lease.attrs = .ok none) :
    n.handle parseMac e calls k = (.ok (), k) := by
  rw [VxlanNetwork.handle, skipped]

theorem runSkipped {x : Res Unit × Kernel} : run (n.step parseMac) x (events.map (fun e => (e, {}))) =
    run (n.step parseMac) x
      ((events.filter (fun e => decide (vtepMac parseMac e.lease.attrs ≠ .ok none))).map (fun e => (e, {}))) := by
  induction events generalizing x with
  | nil => rfl
  | cons e rest ih =>
    rw [List.map_cons, runCons, ih]
    by_cases skipped : vtepMac parseMac e.lease.attrs = .ok none
    · have same : n.step parseMac x (e, {}) = x := by
        obtain ⟨_ | _, k⟩ := x
        · rfl
        · exact handleSkipped skipped
      rw [same, List.filter_cons_of_neg (by simp [skipped])]
    · rw [List.filter_cons_of_pos (by simp [skipped])]
      rfl

theorem vxlanFollowsAnnouncements (parseMac : String → Option MacAddr6) (n : VxlanNetwork) (k : Kernel)
    (events : List LeaseWatchEvent) (wf : ∀ e ∈ events, WellFormedVtep parseMac e) :
    let x := run (n.step parseMac) (.ok (), k) (events.map (fun e => (e, {})))
    x.1 = .ok () ∧
    (∀ pre e post a, events = pre ++ e :: post → announcement parseMac e = some a → InForce parseMac a post →
      Reaches n x.2 a.subnet a.publicIp) ∧
    (∀ s : Ipv4Network, (∀ e ∈ events, ∀ a, announcement parseMac e = some a → a.subnet ≠ s) →
      x.2.routes.route (some s) = k.routes.route (some s)) ∧
    (∀ ip, (∀ e ∈ events, ∀ a, announcement parseMac e = some a → a.subnet.ip ≠ ip) →
      x.2.arp (n.device.linkIndex, ip) = k.arp (n.device.linkIndex, ip)) ∧
    x = run (n.step parseMac) (.ok (), k)
      ((events.filter (fun e => decide (vtepMac parseMac e.lease.attrs ≠ .ok none))).map (fun e => (e, {}))) := by
  obtain ⟨k', done, tables⟩ := @runAnnounced parseMac n k events wf
  intro x
  have state : x = (.ok (), k') := done
  refine ⟨by rw [state], ?_, ?_, ?_, runSkipped⟩
  · rintro pre e post a rfl found force
    rw [List.filterMap_append, List.filterMap_cons, found] at tables
    rw [state]
    exact inForceReaches force tables
  · intro s never
    rw [state, tables.routes]
    refine replayUntouched fun c member same => ?_
    obtain ⟨e, mem, a, found, rfl⟩ := announcedMember member
    exact never e mem a found (Option.some.inj same)
  · intro ip never
    rw [state, tables.arp]
    refine replayUntouched fun c member same => ?_
    obtain ⟨e, mem, a, found, rfl⟩ := announcedMember member
    exact never e mem a found (Prod.mk.inj same).2

/- The addresses that the leases below carry. -/
private def readMac (text : String) : Option MacAddr6 :=
  [("0e:2a:00:00:00:02", 0x0E2A00000002), ("0e:2a:00:00:00:03", 0x0E2A00000003)].lookup text

private def vtepLease (ip : Ipv4Addr) (len : Nat) (publicIp : Ipv4Addr) (mac : String) : Lease := {
  Lease.default 0 with
  subnet := cidr ip len
  attrs := {
    publicIp
    backendType := some "vxlan"
    backendData := some (.obj [("VNI", .num 1), ("VtepMAC", .str mac)]) } }

private def vxlanNetwork : VxlanNetwork where
  subnetLease := { Lease.default 0 with subnet := cidr 0x0A000100 24 }
  extIface := { iface := ⟨2, 1500, "eth0"⟩, ifaceAddr := 1, extAddr := some 1 }
  device := ⟨⟨{ index := 3, name := "flannel.1", mtu := 1450 }, .vxlan { vxlanId := 1 }⟩, false⟩
  mtu := 1500

private def vxlanRun (batches : List (List LeaseWatchEvent)) : Kernel :=
  (run (vxlanNetwork.step readMac) (.ok (), .empty)
    ((LeaseWatcher.emits vxlanNetwork.subnetLease [] batches).map (fun e => (e, {})))).2

theorem vxlanStateDrifts :
    let peer := vtepLease 0x0A000200 24 2 "0e:2a:00:00:00:02"
    let retyped := { peer with attrs := { publicIp := 2, backendType := some "host-gw" } }
    let smaller := vtepLease 0x0A000200 25 3 "0e:2a:00:00:00:03"
    let second := vtepLease 0x0A000300 24 5 "0e:2a:00:00:00:02"
    ((vxlanRun [[⟨peer, .put⟩], [⟨retyped, .put⟩]]).routes.hop peer.subnet = some (some 0x0A000200, 3) ∧
      (vxlanRun [[⟨peer, .put⟩], [⟨retyped, .put⟩]]).arp (3, 0x0A000200) = some 0x0E2A00000002) ∧
    ¬Reaches vxlanNetwork (vxlanRun [[⟨peer, .put⟩], [⟨smaller, .put⟩]]) peer.subnet 2 ∧
    ¬Reaches vxlanNetwork (vxlanRun [[⟨peer, .put⟩], [⟨second, .put⟩]]) peer.subnet 2 := by
  refine ⟨by decide, ?_, ?_⟩
  · rintro ⟨_, mac, _, _, _, arp, fdb⟩
    cases Option.some.inj (arp : some (0x0E2A00000003 : MacAddr6) = some mac)
    exact absurd fdb (by decide)
  · rintro ⟨_, mac, _, _, _, arp, fdb⟩
    cases Option.some.inj (arp : some (0x0E2A00000002 : MacAddr6) = some mac)
    exact absurd fdb (by decide)

theorem renewedVtepReached :
    let batches := [[⟨vtepLease 0x0A000200 24 2 "0e:2a:00:00:00:02", .put⟩],
      [⟨vtepLease 0x0A000200 24 4 "0e:2a:00:00:00:03", .put⟩]]
    Reaches vxlanNetwork (vxlanRun batches) (cidr 0x0A000200 24) 4 := by
  intro batches
  obtain ⟨_, reaches, _⟩ := vxlanFollowsAnnouncements readMac vxlanNetwork .empty
    (LeaseWatcher.emits vxlanNetwork.subnetLease [] batches) (by decide)
  exact reaches [⟨vtepLease 0x0A000200 24 2 "0e:2a:00:00:00:02", .put⟩] _ []
    ⟨cidr 0x0A000200 24, 0x0E2A00000003, 4⟩ rfl rfl ⟨nofun, nofun⟩

end FlannelNg
