import FlannelNg.ClusterEvents
import FlannelNg.HostGw
import FlannelNg.MacText
import FlannelNg.VxlanRegister

/-! The kernel tables of a node in a cluster. Each backend sets its tables by the events
about leases of its own type, so the entries of that type are reached as they say. Only where
no other type was ever entered are there no further routes. -/
namespace FlannelNg
open Cidr Outcome Replay Runs

section Events
variable {own : Lease} {db : Store} {events : List LeaseWatchEvent} {v : View} {P : LeaseAttrs → Prop} {t : String}
variable {kv : KeyValue Ipv4Network LeaseAttrs}

theorem learnKnown {e : LeaseWatchEvent} (known : ∀ s attrs, v s = some attrs → P attrs)
    (put : e.eventType = .put → P e.lease.attrs) : ∀ s attrs, learn v e s = some attrs → P attrs := by
  intro s attrs present
  by_cases here : s = e.lease.subnet
  · subst here
    cases kind : e.eventType with
    | put =>
      rw [learnPut kind] at present
      exact Option.some.inj present ▸ put kind
    | delete =>
      rw [learnDelete kind] at present
      contradiction
  · rw [learnOther here] at present
    exact known s attrs present

/- A delete has the attributes of an earlier put, or none. -/
theorem namedAll (names : Along learn NamesKnown v events) (puts : ∀ e ∈ events, e.eventType = .put → P e.lease.attrs)
    (known : ∀ s attrs, v s = some attrs → P attrs) (nothing : P {}) : ∀ e ∈ events, P e.lease.attrs := by
  induction events generalizing v with
  | nil => exact List.forall_mem_nil _
  | cons first rest ih =>
    rw [List.forall_mem_cons] at puts ⊢
    refine ⟨?_, ih names.2 puts.2 (learnKnown known puts.1)⟩
    cases kind : first.eventType with
    | put => exact puts.1 kind
    | delete =>
      rw [names.1 kind]
      cases found : v first.lease.subnet with
      | none => exact nothing
      | some attrs => exact known _ attrs found

/- Where all puts are of one type, the events of the type say what all do. -/
theorem learnTypedAll (names : Along learn NamesKnown v events)
    (puts : ∀ e ∈ events, e.eventType = .put → e.lease.attrs.backendType = some t)
    (known : ∀ s attrs, v s = some attrs → attrs.backendType = some t) : run (learnTyped t) v events = run learn v events := by
  induction events generalizing v with
  | nil => rfl
  | cons first rest ih =>
    rw [List.forall_mem_cons] at puts
    have same : learnTyped t v first = learn v first := by
      unfold learnTyped
      split
      · rfl
      · rename_i other
        have untyped : first.lease.attrs.backendType ≠ some t := by simpa [ofType] using other
        cases kind : first.eventType with
        | put => exact absurd (puts.1 kind) untyped
        | delete =>
          -- it is about a subnet of which nothing is known
          have absent : v first.lease.subnet = none := by
            cases found : v first.lease.subnet with
            | none => rfl
            | some attrs =>
              rw [names.1 kind, found, Option.getD_some] at untyped
              exact absurd (known _ attrs found) untyped
          funext s
          by_cases here : s = first.lease.subnet
          · rw [here, learnDelete kind, absent]
          · rw [learnOther here]
    rw [runCons, runCons, same]
    exact ih names.2 puts.2 (learnKnown known puts.1)

theorem othersViewEntry (member : kv ∈ otherEntries own.subnet db) : othersView own.subnet db kv.key = some kv.value := by
  have distinct : Keyed.Distinct KeyValue.key (otherEntries own.subnet db) :=
    Keyed.distinctSublist db.distinct List.filter_sublist
  rw [othersViewIs, (Keyed.memIff distinct).mp member]
  rfl

end Events

section HostGw
variable {network : RouterNetwork} {table : RouteTable} {before after : Store} {events : List LeaseWatchEvent}

theorem toldGateways (free : ∀ s, table.route (some s) = none) (told : Told network.subnetLease before after events)
    (s : Ipv4Network) : Mirrors network s (othersView network.subnetLease.subnet after) (run (learnTyped network.backendType) unknown events)
      (run Routing.step (.ok (), ⟨network, table⟩) (events.map (fun e => (e, {})))) := by
  have start : Mirrors network s unknown unknown (.ok (), ⟨network, table⟩) :=
    ⟨rfl, rfl, rfl, by simp [RouteTable.hop, free, unknown], fun _ => nofun⟩
  have mirrors := runMirrors told.names start
  rw [learnRun, told.view] at mirrors
  exact mirrors

end HostGw

/-- The vxlan nodes enter what their registration makes of their device, and no two of them
have devices of one MAC. -/
structure OwnVteps {N : Type} (formatMac : MacAddr6 → String) (mac : N → MacAddr6) (attrsOf : N → LeaseAttrs) : Prop where
  made : ∀ n, (attrsOf n).backendType = some "vxlan" → ∃ extIface vni, vni < 2 ^ 32 ∧
    attrsOf n = vxlanLeaseAttrs formatMac extIface vni (mac n)
  apart : ∀ n m, (attrsOf n).backendType = some "vxlan" → (attrsOf m).backendType = some "vxlan" → mac n = mac m → n = m

section Vxlan
variable {formatMac : MacAddr6 → String} {parseMac : String → Option MacAddr6} {n : VxlanNetwork} {k : Kernel}
variable {events : List LeaseWatchEvent} {e : LeaseWatchEvent} {s : Ipv4Network} {attrs : LeaseAttrs}

theorem vtepMembers {vni mac : Json} : VxlanLeaseAttrs.fromJson (.obj [("VNI", vni), ("VtepMAC", mac)]) =
    vni.asU32.bind (fun vni => mac.asStr.map (VxlanLeaseAttrs.mk vni)) := by
  have first : Json.get "VNI" [("VNI", vni), ("VtepMAC", mac)] = some vni := List.lookup_cons_self
  have second : Json.get "VtepMAC" [("VNI", vni), ("VtepMAC", mac)] = some mac := rfl
  unfold VxlanLeaseAttrs.fromJson
  simp only [first, second, Option.bind_some, Option.map_eq_bind]
  rfl

theorem vtepRead {data : Json} {found : VxlanLeaseAttrs} {mac : MacAddr6} (isVxlan : attrs.backendType = some "vxlan")
    (given : attrs.backendData = some data) (read : VxlanLeaseAttrs.fromJson data = some found)
    (parsed : parseMac found.vtepMac = some mac) : vtepMac parseMac attrs = .ok (some mac) := by
  rw [vtepMac, if_neg (not_not.mpr isVxlan), given]
  simp only [read, okOr, bind, Except.bind, parsed]
  rfl

/- The MAC that a registration announces is the one that the other nodes read. -/
theorem announcedVtep (readsBack : ∀ mac, parseMac (formatMac mac) = some mac) {extIface : ExternalInterface} {vni : Nat}
    (small : vni < 2 ^ 32) (mac : MacAddr6) : vtepMac parseMac (vxlanLeaseAttrs formatMac extIface vni mac) = .ok (some mac) := by
  have number : Json.asU32 (.num vni) = some vni := by
    rw [Json.asU32, if_pos ⟨Int.natCast_nonneg _, by omega⟩, Int.toNat_natCast]
  have read : VxlanLeaseAttrs.fromJson (.obj [("VNI", .num vni), ("VtepMAC", .str (formatMac mac))]) =
      some ⟨vni, formatMac mac⟩ := by
    rw [vtepMembers, number]
    rfl
  exact vtepRead rfl rfl read (readsBack mac)

theorem announcementPut {a : Announcement} (found : announcement parseMac e = some a) :
    e.eventType = .put ∧ a.publicIp = e.lease.attrs.publicIp := by
  unfold announcement at found
  split at found
  · rename_i put _
    cases Option.some.inj found
    exact ⟨put, rfl⟩
  · contradiction

theorem lastPut (present : replay unknown (events.map LeaseWatchEvent.change) s = some attrs) :
    ∃ pre e post, events = pre ++ e :: post ∧ e.eventType = .put ∧ e.lease.subnet = s ∧ e.lease.attrs = attrs ∧
      ∀ e' ∈ post, e'.lease.subnet ≠ s := by
  induction events using List.reverseRecOn with
  | nil => contradiction
  | append_singleton events last ih =>
    rw [List.map_append, List.map_singleton, replaySnoc, applyAt, changeKey] at present
    split at present
    · rename_i here
      cases kind : last.eventType with
      | put =>
        rw [valueOfPut kind] at present
        exact ⟨events, last, [], rfl, kind, here.symm, Option.some.inj present, List.forall_mem_nil _⟩
      | delete =>
        rw [valueOfDelete kind] at present
        contradiction
    · rename_i elsewhere
      obtain ⟨pre, e, post, parts, put, subnet, same, later⟩ := ih present
      refine ⟨pre, e, post ++ [last], by rw [parts, List.append_assoc, List.cons_append], put, subnet, same, ?_⟩
      rw [List.forall_mem_append, List.forall_mem_singleton]
      exact ⟨later, Ne.symm elsewhere⟩

section Told
variable {N : Type} [DecidableEq N] {build : Build} {config : Config} {attrsOf : N → LeaseAttrs} {mac : N → MacAddr6}
variable {before after : Cluster N} {own : Lease} {base : Nat}

omit [DecidableEq N] in
theorem vtepOf (readsBack : ∀ mac, parseMac (formatMac mac) = some mac) (vteps : OwnVteps formatMac mac attrsOf) (m : N) :
    vtepMac parseMac (attrsOf m) =
      .ok (if (attrsOf m).backendType = some "vxlan" then some (mac m) else none) := by
  split
  · rename_i isVxlan
    obtain ⟨extIface, vni, small, made⟩ := vteps.made m isVxlan
    rw [made]
    exact announcedVtep readsBack small (mac m)
  · rename_i other
    rw [vtepMac, if_pos other]

omit [DecidableEq N] in
theorem toldWellFormed (readsBack : ∀ mac, parseMac (formatMac mac) = some mac) (vteps : OwnVteps formatMac mac attrsOf)
    (heard : Heard build config attrsOf base own before after events) : ∀ e ∈ events, WellFormedVtep parseMac e := by
  have read : ∀ e ∈ events, ∃ found, vtepMac parseMac e.lease.attrs = .ok found := by
    refine namedAll (P := fun attrs => ∃ found, vtepMac parseMac attrs = .ok found) heard.told.names (fun e member put => ?_)
      (fun _ _ => nofun) ⟨none, rfl⟩
    obtain ⟨m, value⟩ := heardEntered heard e member put
    rw [value]
    exact ⟨_, vtepOf readsBack vteps m⟩
  exact read

omit [DecidableEq N] in
/- An entry that is there stays announced: later announcements are of other addresses, and
those of its MAC are of its node. -/
theorem entryInForce (readsBack : ∀ mac, parseMac (formatMac mac) = some mac) (vteps : OwnVteps formatMac mac attrsOf)
    (heard : Heard build config attrsOf base own before after events) {kv : KeyValue Ipv4Network LeaseAttrs}
    (member : kv ∈ otherEntries own.subnet after.db) (isVxlan : kv.value.backendType = some "vxlan") :
    ∃ pre e post a, events = pre ++ e :: post ∧ announcement parseMac e = some a ∧ InForce parseMac a post ∧
      a.subnet = kv.key ∧ a.publicIp = kv.value.publicIp := by
  have stored := (List.mem_filter.mp member).1
  have view := othersViewEntry member
  rw [← heard.told.view] at view
  obtain ⟨pre, e, post, parts, put, subnet, attrs, later⟩ := lastPut view
  obtain ⟨m, value⟩ := heard.last.entries kv stored
  have vtep : vtepMac parseMac e.lease.attrs = .ok (some (mac m)) := by
    rw [attrs, value, vtepOf readsBack vteps m, if_pos (value ▸ isVxlan)]
  refine ⟨pre, e, post, ⟨kv.key, mac m, kv.value.publicIp⟩, parts, ?_, ⟨?_, ?_⟩, rfl, rfl⟩
  · rw [announcement, put, vtep, subnet, attrs]
  · exact fun e' mem same => absurd same (later e' mem)
  · intro e' mem b found
    obtain ⟨put', ip'⟩ := announcementPut found
    obtain ⟨subnet', vtep'⟩ := announcementSource found
    constructor
    · intro sameIp
      rw [subnet'] at sameIp
      exact later e' mem (sameSubnet heard parts put subnet stored mem put' sameIp)
    · intro sameMac
      obtain ⟨m', value'⟩ := heardEntered heard e' (by rw [parts]; simp [mem]) put'
      rw [value', vtepOf readsBack vteps m'] at vtep'
      split at vtep'
      · rename_i isVxlan'
        have same : m' = m := by
          refine vteps.apart m' m isVxlan' (value ▸ isVxlan) ?_
          exact (Option.some.inj (Except.ok.inj vtep')).trans sameMac
        rw [ip', value', same, value]
      · cases Except.ok.inj vtep'

end Told
end Vxlan

section Cluster
variable {N : Type} [DecidableEq N] {build : Build} {publicIp : N → Ipv4Addr} {config : Config} {attrsOf : N → LeaseAttrs}
variable {rpc : ReadRpc Ipv4Network LeaseAttrs} {responses : List (WatchResponse Ipv4Network LeaseAttrs)} {registered : Nat}
variable {c before after : Cluster N} {pre post : List (Action N)}

theorem vtepsFollowCluster {formatMac : MacAddr6 → String} {parseMac : String → Option MacAddr6} {mac : N → MacAddr6}
    (readsBack : ∀ mac, parseMac (formatMac mac) = some mac) (vteps : OwnVteps formatMac mac attrsOf) (n : VxlanNetwork)
    (k : Kernel) (unstarted : Unstarted build config attrsOf c) (permitted : ∀ a ∈ pre ++ post, StartsAs publicIp attrsOf a)
    (snapshot : run (step build publicIp) c pre = before) (reached : run (step build publicIp) before post = after)
    (caughtUp : CaughtUp rpc responses registered before.db after.db) :
    ∃ results k', watchLeasesInner Codec.plain rpc before.db responses = .ok results ∧
      run (n.step parseMac) (.ok (), k) ((received n.subnetLease results).map (fun e => (e, {}))) = (.ok (), k') ∧
      ∀ kv ∈ otherEntries n.subnetLease.subnet after.db, kv.value.backendType = some "vxlan" →
        Reaches n k' kv.key kv.value.publicIp := by
  obtain ⟨results, inner, heard⟩ := runHeard n.subnetLease unstarted permitted snapshot reached caughtUp
  obtain ⟨k', done, tables⟩ := @runAnnounced parseMac n k _ (toldWellFormed readsBack vteps heard)
  refine ⟨results, k', inner, done, fun kv member isVxlan => ?_⟩
  obtain ⟨earlier, e, later, a, parts, found, force, subnet, ip⟩ := entryInForce readsBack vteps heard member isVxlan
  rw [parts, List.filterMap_append, List.filterMap_cons, found] at tables
  exact subnet ▸ ip ▸ inForceReaches force tables

end Cluster

/- The nodes of an empty store join one after the other, each with the attributes of its backend. -/
private def joins (attrsOf : Bool → LeaseAttrs) (n : Bool) (id : Int) : List (Action Bool) :=
  [.act n (.start (attrsOf n)), .act n (.read (ReadRpc.quiet 100 0) 9 0), writing n id]

private def joinedResponse (attrsOf : Bool → LeaseAttrs) : WatchResponse Ipv4Network LeaseAttrs where
  events := [⟨.put ⟨cidr 0x0A000004 30, attrsOf false, 1⟩, some 100, 0⟩, ⟨.put ⟨cidr 0x0A000008 30, attrsOf true, 2⟩, some 100, 0⟩]
  revision := 3
  canceled := false

private theorem newUnstarted {attrsOf : Bool → LeaseAttrs} : Unstarted .checked smallAccepted attrsOf newCluster where
  accepted := smallConfigAccepted .checked
  apart := ⟨nofun, nofun⟩
  recorded := recordedEmpty
  entries := nofun
  idle := fun _ => rfl

private theorem joinsPermitted {attrsOf : Bool → LeaseAttrs} (own : ∀ n, (attrsOf n).publicIp = addressOf n) :
    ∀ a ∈ joins attrsOf false 1 ++ joins attrsOf true 2, StartsAs addressOf attrsOf a := by
  have same : ∀ n, { attrsOf n with publicIp := addressOf n } = attrsOf n := fun n => own n ▸ rfl
  have joined : ∀ n id, ∀ a ∈ joins attrsOf n id, StartsAs addressOf attrsOf a := by
    intro n id
    simp only [joins, writing, List.forall_mem_cons]
    refine ⟨⟨trivial, ?_⟩, ⟨fun _ => rfl, ?_⟩, ⟨trivial, ?_⟩, List.forall_mem_nil _⟩
    · rintro _ _ ⟨⟩
      exact same n
    · rintro _ _ ⟨⟩
    · rintro _ _ ⟨⟩
  exact List.forall_mem_append.mpr ⟨joined false 1, joined true 2⟩

private theorem joinedCaughtUp {attrsOf : Bool → LeaseAttrs} {before after : Store} (entries : before.kvs ≠ [])
    (delivered : (joinedResponse attrsOf).events.map Delivery.event =
      (deliveredTxns after.log before.revision 1 after.log.length).flatten) :
    CaughtUp (ReadRpc.quiet 100 0) [joinedResponse attrsOf] 1 before after where
  succeeds := rfl
  answered := fun _ => ⟨100, rfl, (by decide : 0 / SystemTime.nanos + 100 < 2 ^ 63)⟩
  entries := entries
  delivered := delivered
  answered' := by
    have ttl : ∀ d ∈ (joinedResponse attrsOf).events, d.ttl = some 100 ∧ d.now = 0 := by simp [joinedResponse]
    intro d member kv _
    obtain ⟨ttl, now⟩ := ttl d (by simpa using member)
    exact ⟨100, ttl, by rw [now]; decide⟩
  live := by simp [joinedResponse]

private def gatewayAttrs (n : Bool) : LeaseAttrs := { publicIp := addressOf n, backendType := some "host-gw" }

private def firstGateway : RouterNetwork where
  subnetLease := { Lease.default 0 with subnet := cidr 0x0A000004 30, attrs := gatewayAttrs false }
  routes := []
  mtu := 1500
  linkIndex := 2
  backendType := "host-gw"

private def externalOf (n : Bool) : ExternalInterface := { iface := ⟨2, 1500, "eth0"⟩, ifaceAddr := addressOf n, extAddr := none }

private def deviceMac (n : Bool) : MacAddr6 := if n then 0x0E2A00000002 else 0x0E2A00000001

private def vtepAttrs (n : Bool) : LeaseAttrs := vxlanLeaseAttrs MacText.format (externalOf n) 1 (deviceMac n)

private theorem vtepsOwn : OwnVteps MacText.format deviceMac vtepAttrs where
  made := fun n _ => ⟨externalOf n, 1, by decide, rfl⟩
  apart := by
    intro n m _ _
    cases n <;> cases m <;> decide

private def firstVtep : VxlanNetwork where
  subnetLease := { Lease.default 0 with subnet := cidr 0x0A000004 30, attrs := vtepAttrs false }
  extIface := externalOf false
  device := ⟨⟨{ index := 3, name := "flannel.1", mtu := 1450 }, .vxlan { vxlanId := 1 }⟩, false⟩
  mtu := 1500

theorem joinedVtepReached : ∃ results k',
    watchLeasesInner Codec.plain (ReadRpc.quiet 100 0) (run (step .checked addressOf) newCluster (joins vtepAttrs false 1)).db
      [joinedResponse vtepAttrs] = .ok results ∧
    run (firstVtep.step MacText.parse) (.ok (), .empty) ((received firstVtep.subnetLease results).map (fun e => (e, {}))) =
      (.ok (), k') ∧
    Reaches firstVtep k' (cidr 0x0A000008 30) 2 := by
  obtain ⟨results, k', inner, ran, reached⟩ := vtepsFollowCluster MacText.readsBack vtepsOwn firstVtep .empty newUnstarted
    (@joinsPermitted vtepAttrs fun _ => rfl) rfl rfl (@joinedCaughtUp vtepAttrs _ _ (by decide) (by decide))
  exact ⟨results, k', inner, ran, reached ⟨cidr 0x0A000008 30, vtepAttrs true, 2⟩ (by decide) rfl⟩

end FlannelNg
