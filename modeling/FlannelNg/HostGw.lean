import FlannelNg.Emitted
import FlannelNg.Netlink

/-! The routes of the host-gw backend. The loop looks at the events of leases of its
own backend type and sets the kernel route of their subnet; the other events are
ignored, so that a subnet which changes its type keeps the route. -/
namespace FlannelNg
open Cidr Replay Runs Outcome

structure RouterNetwork where
  subnetLease : Lease
  routes : List Route
  mtu : Nat
  linkIndex : Nat
  backendType : String
  deriving DecidableEq, Repr

def routeEqual (x y : Route) : Bool :=
  x.dst.isSome && y.dst.isSome && x.dst == y.dst && x.gw.isSome && y.gw.isSome && x.gw == y.gw &&
    x.linkIndex == y.linkIndex

structure RouteCalls where
  list : Option String := none
  del : Option String := none
  relist : Option String := none
  add : Option String := none

structure Routing where
  network : RouterNetwork
  table : RouteTable

def RouterNetwork.getRoute (n : RouterNetwork) (lease : Lease) : Route where
  dst := some lease.subnet
  gw := some lease.attrs.publicIp
  linkIndex := n.linkIndex
  flags := rtnhFOnlink

namespace Routing

def push (s : Routing) (route : Route) : Routing :=
  { s with network := { s.network with routes := s.network.routes ++ [route] } }

def forget (s : Routing) (route : Route) : Routing :=
  { s with network := { s.network with routes := s.network.routes.filter (fun it => !routeEqual it route) } }

/- Same destination, another gateway or link: the old route is deleted. -/
def deleteStale (s : Routing) (calls : RouteCalls) (route : Route) : List Route → Res Unit × Routing
  | [] => (.ok (), s)
  | old :: _ =>
    if routeEqual old route then (.ok (), s)
    else match answer calls.del (s.table.routeDel old) with
      | .error stop => (.error stop, s)
      | .ok table => (.ok (), { s with table }.forget old)

def addMissing (s : Routing) (calls : RouteCalls) (route : Route) (routeList : List Route) : Res Unit × Routing :=
  if routeList.head?.any (routeEqual · route) then (.ok (), s)
  else match answer calls.add (s.table.routeAdd route) with
    | .error stop => (.error stop, s)
    | .ok table => (.ok (), { s with table })

def routeAdd (s : Routing) (calls : RouteCalls) (route : Route) : Res Unit × Routing :=
  let s := s.push route
  match answer calls.list (.ok (s.table.routeListFiltered route.dst)) with
  | .error stop => (.error stop, s)
  | .ok routeList =>
    match s.deleteStale calls route routeList with
    | (.error stop, s) => (.error stop, s)
    | (.ok (), s) =>
      match answer calls.relist (.ok (s.table.routeListFiltered route.dst)) with
      | .error stop => (.error stop, s)
      | .ok routeList => s.addMissing calls route routeList

/- An error of `route_del` is printed only. -/
def routeDelete (s : Routing) (calls : RouteCalls) (route : Route) : Res Unit × Routing :=
  let s := s.forget route
  match answer calls.del (s.table.routeDel route) with
  | .error _ => (.ok (), s)
  | .ok table => (.ok (), { s with table })

def handle (s : Routing) (event : LeaseWatchEvent) (calls : RouteCalls) : Res Unit × Routing :=
  match event.eventType with
  | .put =>
    if event.lease.attrs.backendType ≠ some s.network.backendType then (.ok (), s)
    else s.routeAdd calls (s.network.getRoute event.lease)
  | .delete =>
    if event.lease.attrs.backendType ≠ some s.network.backendType then (.ok (), s)
    else s.routeDelete calls (s.network.getRoute event.lease)

/- The loop ends at the first error. -/
def step (x : Res Unit × Routing) (a : LeaseWatchEvent × RouteCalls) : Res Unit × Routing :=
  match x with
  | (.error stop, s) => (.error stop, s)
  | (.ok (), s) => s.handle a.1 a.2

variable {s s' : Routing} {route old : Route} {k : Ipv4Network} {g : Ipv4Addr}

def SameConfig (s s' : Routing) : Prop :=
  s'.network.linkIndex = s.network.linkIndex ∧ s'.network.backendType = s.network.backendType

theorem routeEqualHop (equal : routeEqual old route = true) : old.gw = route.gw ∧ old.linkIndex = route.linkIndex := by
  simp only [routeEqual, Bool.and_eq_true, beq_iff_eq] at equal
  exact ⟨equal.1.2, equal.2⟩

theorem delInstalled {t : RouteTable} (found : t.route route.dst = some old) :
    t.routeDel old = .ok (t.erase route.dst) := by
  have dst := t.filed _ _ found
  simp [RouteTable.routeDel, dst, found]

theorem deleteStaleQuiet : ∃ s', s.deleteStale {} route (s.table.routeListFiltered route.dst) = (.ok (), s') ∧
    SameConfig s s' ∧
    (s'.table = s.table ∧ (∀ old, s.table.route route.dst = some old → routeEqual old route = true) ∨
      s'.table = s.table.erase route.dst) := by
  unfold RouteTable.routeListFiltered
  cases found : s.table.route route.dst with
  | none => exact ⟨s, rfl, ⟨rfl, rfl⟩, .inl ⟨rfl, by simp⟩⟩
  | some old =>
    simp only [Option.toList_some, deleteStale]
    by_cases equal : routeEqual old route = true
    · refine ⟨s, if_pos equal, ⟨rfl, rfl⟩, .inl ⟨rfl, fun old' same => ?_⟩⟩
      rw [← Option.some.inj same]
      exact equal
    · rw [if_neg equal, delInstalled found]
      exact ⟨_, rfl, ⟨rfl, rfl⟩, .inr rfl⟩

theorem addMissingQuiet (dst : route.dst = some k)
    (free : ∀ old, s.table.route route.dst = some old → routeEqual old route = true) :
    ∃ s', s.addMissing {} route (s.table.routeListFiltered route.dst) = (.ok (), s') ∧ SameConfig s s' ∧
      s'.table.hop = Function.update s.table.hop k (some (route.gw, route.linkIndex)) := by
  unfold RouteTable.routeListFiltered addMissing
  cases found : s.table.route route.dst with
  | none =>
    refine ⟨{ s with table := s.table.install route }, ?_, ⟨rfl, rfl⟩, RouteTable.hopInstall dst⟩
    simp [answer, RouteTable.routeAdd, found]
  | some old =>
    have equal := free old found
    refine ⟨s, by simp [equal], ⟨rfl, rfl⟩, ?_⟩
    obtain ⟨gw, link⟩ := routeEqualHop equal
    funext j
    by_cases same : j = k
    · rw [same, Function.update_self, RouteTable.hop, ← dst, found, Option.map_some, gw, link]
    · rw [Function.update_of_ne same]

theorem routeAddQuiet (dst : route.dst = some k) : ∃ s', s.routeAdd {} route = (.ok (), s') ∧ SameConfig s s' ∧
    s'.table.hop = Function.update s.table.hop k (some (route.gw, route.linkIndex)) := by
  obtain ⟨s₁, stale, config₁, table₁⟩ := @deleteStaleQuiet (s.push route) route
  have free : ∀ old, s₁.table.route route.dst = some old → routeEqual old route = true := by
    rcases table₁ with ⟨same, equal⟩ | erased
    · rw [same]
      exact equal
    · intro old found
      simp [erased, RouteTable.erase] at found
  -- the second listing sees what the deletion left
  obtain ⟨s₂, added, config₂, hop⟩ := addMissingQuiet dst free
  refine ⟨s₂, ?_, ⟨config₂.1.trans config₁.1, config₂.2.trans config₁.2⟩, ?_⟩
  · simp only [routeAdd, answer, stale]
    exact added
  · rw [hop]
    rcases table₁ with ⟨same, _⟩ | erased
    · rw [same]
      rfl
    · rw [erased, dst, RouteTable.hopErase, Function.update_idem]
      rfl

theorem routeDeleteQuiet (dst : route.dst = some k) : ∃ s', s.routeDelete {} route = (.ok (), s') ∧ SameConfig s s' ∧
    (∀ j ≠ k, s'.table.hop j = s.table.hop j) ∧
    (s.table.hop k = some (route.gw, route.linkIndex) → s'.table.hop k = none) := by
  unfold routeDelete
  simp only [answer, forget]
  by_cases leads : ((s.table.route route.dst).any fun old => old.gw = route.gw && old.linkIndex = route.linkIndex) = true
  · have done : s.table.routeDel route = .ok (s.table.erase route.dst) := if_pos leads
    rw [done, dst]
    refine ⟨_, rfl, ⟨rfl, rfl⟩, ?_, ?_⟩
    · intro j other
      rw [RouteTable.hopErase, Function.update_of_ne other]
    · intro _
      rw [RouteTable.hopErase, Function.update_self]
  · have failed : s.table.routeDel route = .error (.bail "No such process") := if_neg leads
    rw [failed]
    refine ⟨_, rfl, ⟨rfl, rfl⟩, fun _ _ => rfl, fun here => ?_⟩
    obtain ⟨old, found, same⟩ := Option.map_eq_some_iff.mp here
    obtain ⟨gw, link⟩ := Prod.mk.inj same
    simp [dst, found, gw, link] at leads

end Routing

def ofType (backendType : String) (e : LeaseWatchEvent) : Bool := e.lease.attrs.backendType == some backendType

/- The view that the events of one backend type give. -/
def learnTyped (backendType : String) (v : View) (e : LeaseWatchEvent) : View :=
  if ofType backendType e then learn v e else v

section Run
variable {network : RouterNetwork} {k : Ipv4Network} {v typed : View} {x : Res Unit × Routing} {e : LeaseWatchEvent}

/-- The kernel leads a subnet to where the events of the type say, and they say what
all events do where the subnet has a lease of the type. -/
structure Mirrors (network : RouterNetwork) (k : Ipv4Network) (v typed : View) (x : Res Unit × Routing) : Prop where
  going : x.1 = .ok ()
  linkIndex : x.2.network.linkIndex = network.linkIndex
  backendType : x.2.network.backendType = network.backendType
  leads : x.2.table.hop k = (typed k).map (fun attrs => (some attrs.publicIp, network.linkIndex))
  agrees : ∀ attrs, v k = some attrs → attrs.backendType = some network.backendType → typed k = some attrs

theorem learnTypedOther {t : String} (other : k ≠ e.lease.subnet) : learnTyped t typed e k = typed k := by
  unfold learnTyped
  split
  · exact learnOther other
  · rfl

theorem agreesLearn {t : String} (agrees : ∀ attrs, v k = some attrs → attrs.backendType = some t → typed k = some attrs) :
    ∀ attrs, learn v e k = some attrs → attrs.backendType = some t → learnTyped t typed e k = some attrs := by
  intro attrs known type
  by_cases here : k = e.lease.subnet
  · subst here
    cases kind : e.eventType with
    | put =>
      rw [learnPut kind] at known
      have same := Option.some.inj known
      have matched : ofType t e = true := by rw [ofType, same, type, beq_self_eq_true]
      rw [learnTyped, if_pos matched, learnPut kind, same]
    | delete =>
      rw [learnDelete kind] at known
      contradiction
  · rw [learnOther here] at known
    rw [learnTypedOther here]
    exact agrees attrs known type

theorem handleIgnored {s : Routing} {calls : RouteCalls} (ignored : ofType s.network.backendType e = false) :
    s.handle e calls = (.ok (), s) := by
  have other : e.lease.attrs.backendType ≠ some s.network.backendType := by simpa [ofType] using ignored
  unfold Routing.handle
  split <;> rw [if_pos other]

theorem handleTyped {s : Routing} {calls : RouteCalls} (matched : ofType s.network.backendType e = true) :
    s.handle e calls = match e.eventType with
      | .put => s.routeAdd calls (s.network.getRoute e.lease)
      | .delete => s.routeDelete calls (s.network.getRoute e.lease) := by
  have same : e.lease.attrs.backendType = some s.network.backendType := by simpa [ofType] using matched
  unfold Routing.handle
  split <;> exact if_neg (not_not.mpr same)

theorem deletedKnown {t : String} (names : NamesKnown v e) (kind : e.eventType = .delete) (matched : ofType t e = true) :
    v e.lease.subnet = some e.lease.attrs := by
  have typed : e.lease.attrs.backendType = some t := by simpa [ofType] using matched
  have named := names kind
  cases found : v e.lease.subnet with
  | none =>
    rw [named, found] at typed
    contradiction
  | some attrs => rw [named, found, Option.getD_some]

theorem stepMirrors (names : NamesKnown v e) (inv : Mirrors network k v typed x) :
    Mirrors network k (learn v e) (learnTyped network.backendType typed e) (Routing.step x (e, {})) := by
  obtain ⟨_, s⟩ := x
  obtain ⟨rfl, link, type, leads, agrees⟩ := inv
  dsimp only at link type leads
  have agrees' := agreesLearn (e := e) agrees
  change Mirrors network k _ _ (s.handle e {})
  cases matched : ofType s.network.backendType e with
  | false =>
    rw [handleIgnored matched]
    rw [type] at matched
    refine ⟨rfl, link, type, ?_, agrees'⟩
    rw [learnTyped, if_neg (by simp [matched])]
    exact leads
  | true =>
    cases kind : e.eventType with
    | put =>
      obtain ⟨s', done, config, hop⟩ := @Routing.routeAddQuiet s (s.network.getRoute e.lease) e.lease.subnet rfl
      simp only [handleTyped matched, kind, done]
      rw [type] at matched
      refine ⟨rfl, config.1.trans link, config.2.trans type, ?_, agrees'⟩
      dsimp only
      rw [hop, learnTyped, if_pos matched]
      by_cases here : k = e.lease.subnet
      · rw [here, Function.update_self, learnPut kind, ← link]
        rfl
      · rw [Function.update_of_ne here, learnOther here, leads]
    | delete =>
      obtain ⟨s', done, config, others, freed⟩ :=
        @Routing.routeDeleteQuiet s (s.network.getRoute e.lease) e.lease.subnet rfl
      simp only [handleTyped matched, kind, done]
      rw [type] at matched
      refine ⟨rfl, config.1.trans link, config.2.trans type, ?_, agrees'⟩
      dsimp only
      rw [learnTyped, if_pos matched]
      by_cases here : k = e.lease.subnet
      · subst here
        -- a delete of the type names a lease the backend knows, so its route is the installed one
        have known := deletedKnown names kind matched
        have typed : e.lease.attrs.backendType = some network.backendType := by simpa [ofType] using matched
        rw [learnDelete kind]
        refine freed ?_
        rw [leads, agrees _ known typed, ← link]
        rfl
      · rw [others k here, learnOther here, leads]

theorem runMirrors {events : List LeaseWatchEvent} (names : Along learn NamesKnown v events)
    (inv : Mirrors network k v typed x) :
    Mirrors network k (run learn v events) (run (learnTyped network.backendType) typed events)
      (run Routing.step x (events.map (fun e => (e, {})))) := by
  induction events generalizing v typed x with
  | nil => exact inv
  | cons e rest ih => exact ih names.2 (stepMirrors names.1 inv)

theorem learnTypedRun {t : String} {events : List LeaseWatchEvent} :
    run (learnTyped t) v events = replay v ((events.filter (ofType t)).map LeaseWatchEvent.change) := by
  induction events generalizing v with
  | nil => rfl
  | cons e rest ih =>
    rw [runCons, ih, learnTyped]
    cases matched : ofType t e <;> simp [matched, learn]

end Run

theorem routesFollowTypedEvents (network : RouterNetwork) (table : RouteTable) (snapshot : List Lease)
    (batches : List (List LeaseWatchEvent)) (fresh : Keyed.Distinct Lease.subnet snapshot)
    (stored : ∀ events ∈ batches, ∀ e ∈ events, FromStore e)
    (handled : List LeaseWatchEvent) (part : handled <+: LeaseWatcher.emits network.subnetLease snapshot batches)
    (s : Ipv4Network) (free : table.route (some s) = none) :
    let x := run Routing.step (.ok (), ⟨network, table⟩) (handled.map (fun e => (e, {})))
    let last := latest s ((handled.filter (ofType network.backendType)).map LeaseWatchEvent.change)
    x.1 = .ok () ∧
    (x.2.table.route (some s) ≠ none ↔ ∃ attrs, last = some (.put s attrs)) ∧
    ∀ attrs, last = some (.put s attrs) → ∃ r, x.2.table.route (some s) = some r ∧
      r.gw = some attrs.publicIp ∧ r.linkIndex = network.linkIndex := by
  obtain ⟨later, all⟩ := part
  have names := @LeaseWatcher.deletesNameKnown network.subnetLease snapshot batches fresh stored
  rw [← all, alongAppend] at names
  have start : Mirrors network s unknown unknown (.ok (), ⟨network, table⟩) :=
    ⟨rfl, rfl, rfl, by simp [RouteTable.hop, free, unknown], fun _ => nofun⟩
  obtain ⟨going, _, _, leads, _⟩ := runMirrors names.1 start
  rw [learnTypedRun, replayAt] at leads
  have key := fun c => @latestKey _ _ _ s c ((handled.filter (ofType network.backendType)).map LeaseWatchEvent.change)
  dsimp only
  generalize latest s ((handled.filter (ofType network.backendType)).map LeaseWatchEvent.change) = last at leads key ⊢
  generalize run Routing.step (.ok (), ⟨network, table⟩) (handled.map (fun e => (e, {}))) = x at going leads ⊢
  refine ⟨going, ?_, ?_⟩
  · have routed : x.2.table.route (some s) ≠ none ↔ x.2.table.hop s ≠ none := by simp [RouteTable.hop]
    rw [routed, leads]
    cases found : last with
    | none => simp [unknown]
    | some c =>
      cases c with
      | put j attrs =>
        obtain rfl : j = s := (key _ found).1
        simp [Change.value]
      | delete j => simp [Change.value]
  · intro attrs found
    rw [found] at leads
    obtain ⟨r, installed, same⟩ := Option.map_eq_some_iff.mp leads
    obtain ⟨gw, link⟩ := Prod.mk.inj same
    exact ⟨r, installed, gw, link⟩

private def hostGwNetwork : RouterNetwork where
  subnetLease := { Lease.default 0 with subnet := cidr 0x0A000100 24 }
  routes := []
  mtu := 1500
  linkIndex := 2
  backendType := "host-gw"

private def typedLease (ip publicIp : Ipv4Addr) (backendType : String) : Lease := {
  Lease.default 0 with
  subnet := cidr ip 24
  attrs := { publicIp, backendType := some backendType } }

private def storeDelete (ip : Ipv4Addr) : LeaseWatchEvent :=
  ⟨{ Lease.default 0 with subnet := cidr ip 24 }, .delete⟩

theorem retypedSubnetKeepsRoute :
    let batches := [[⟨typedLease 0x0A000200 2 "host-gw", .put⟩], [⟨typedLease 0x0A000200 3 "vxlan", .put⟩],
      [storeDelete 0x0A000200]]
    let events := LeaseWatcher.emits hostGwNetwork.subnetLease [] batches
    let s := (typedLease 0x0A000200 2 "host-gw").subnet
    let after := fun n => (run Routing.step (.ok (), ⟨hostGwNetwork, .empty⟩) ((events.take n).map (fun e => (e, {})))).2
    latest s ((events.take 2).map LeaseWatchEvent.change) = some (.put s (typedLease 0x0A000200 3 "vxlan").attrs) ∧
    (after 2).table.hop s = some (some 2, 2) ∧
    latest s ((events.take 3).map LeaseWatchEvent.change) = some (.delete s) ∧
    (after 3).table.hop s = some (some 2, 2) := by
  decide

private def gatewayBatches : List (List LeaseWatchEvent) := [
  [⟨typedLease 0x0A000200 5 "host-gw", .put⟩, ⟨typedLease 0x0A000300 3 "host-gw", .put⟩], [storeDelete 0x0A000300]]

theorem movedGatewayFollowed :
    let x := run Routing.step (.ok (), ⟨hostGwNetwork, .empty⟩)
      ((LeaseWatcher.emits hostGwNetwork.subnetLease [typedLease 0x0A000200 2 "host-gw"] gatewayBatches).map
        (fun e => (e, {})))
    (∃ r, x.2.table.route (some (cidr 0x0A000200 24)) = some r ∧ r.gw = some 5 ∧ r.linkIndex = 2) ∧
      x.2.table.route (some (cidr 0x0A000300 24)) = none := by
  have follow := fun s => routesFollowTypedEvents hostGwNetwork .empty [typedLease 0x0A000200 2 "host-gw"] gatewayBatches
    (by decide) (by decide) _ (List.prefix_refl _) s rfl
  refine ⟨(follow _).2.2 (typedLease 0x0A000200 5 "host-gw").attrs (by decide), ?_⟩
  by_contra present
  obtain ⟨attrs, put⟩ := (follow _).2.1.mp present
  exact nomatch (Option.some.inj put : Change.delete _ = Change.put _ attrs)

end FlannelNg
