import FlannelNg.HostGw

/-! Whether the route list of the host-gw backend lists what is installed. A put pushes
its route before anything else: a route that the list has already is there twice, and one
whose netlink calls fail stays in the list without being in the kernel. -/
namespace FlannelNg
open Cidr Runs Outcome

theorem routeEqualIff {x y : Route} : routeEqual x y = true ↔
    ∃ d g, x.dst = some d ∧ y.dst = some d ∧ x.gw = some g ∧ y.gw = some g ∧ x.linkIndex = y.linkIndex := by
  simp only [routeEqual, Bool.and_eq_true, beq_iff_eq, Option.isSome_iff_exists]
  constructor
  · rintro ⟨⟨⟨⟨⟨⟨⟨d, hd⟩, _⟩, dst⟩, g, hg⟩, _⟩, gw⟩, link⟩
    exact ⟨d, g, hd, dst ▸ hd, hg, gw ▸ hg, link⟩
  · rintro ⟨d, g, xd, yd, xg, yg, link⟩
    exact ⟨⟨⟨⟨⟨⟨⟨d, xd⟩, d, yd⟩, xd.trans yd.symm⟩, g, xg⟩, g, yg⟩, xg.trans yg.symm⟩, link⟩

theorem routeEqualSymm {x y : Route} (equal : routeEqual x y = true) : routeEqual y x = true := by
  obtain ⟨d, g, xd, yd, xg, yg, link⟩ := routeEqualIff.mp equal
  exact routeEqualIff.mpr ⟨d, g, yd, xd, yg, xg, link.symm⟩

theorem routeEqualTrans {x y z : Route} (left : routeEqual x y = true) (right : routeEqual y z = true) :
    routeEqual x z = true := by
  obtain ⟨d, g, xd, yd, xg, yg, link⟩ := routeEqualIff.mp left
  obtain ⟨d', g', yd', zd, yg', zg, link'⟩ := routeEqualIff.mp right
  cases Option.some.inj (yd.symm.trans yd')
  cases Option.some.inj (yg.symm.trans yg')
  exact routeEqualIff.mpr ⟨d, g, xd, zd, xg, zg, link.trans link'⟩

theorem getRouteEqual {n : RouterNetwork} {lease : Lease} : routeEqual (n.getRoute lease) (n.getRoute lease) = true :=
  routeEqualIff.mpr ⟨lease.subnet, lease.attrs.publicIp, rfl, rfl, rfl, rfl, rfl⟩

/- The installed route for the destination that has another gateway or link. -/
def RouteTable.stale (t : RouteTable) (route : Route) : Option Route :=
  (t.route route.dst).filter (fun old => !routeEqual old route)

def RouteTable.has (t : RouteTable) (route : Route) : Prop := ∃ there, t.route route.dst = some there ∧ routeEqual there route = true

namespace Routing

/-- No two routes of the list are equal, and the kernel has each of them. -/
structure Tracks (s : Routing) : Prop where
  distinct : s.network.routes.Pairwise (fun x y => routeEqual x y = false)
  installed : ∀ route ∈ s.network.routes, s.table.has route

/-- None of the netlink calls that a put of the route makes fails. -/
structure GoesThrough (t : RouteTable) (calls : RouteCalls) (route : Route) : Prop where
  list : calls.list = none
  del : t.stale route ≠ none → calls.del = none
  relist : calls.relist = none
  add : ¬t.has route → calls.add = none

variable {s s' : Routing} {calls : RouteCalls} {route old : Route} {t : RouteTable}

theorem staleSome : t.stale route = some old ↔ t.route route.dst = some old ∧ routeEqual old route = false := by
  simp [RouteTable.stale, Option.filter_eq_some_iff]

theorem staleNone (has : t.has route) : t.stale route = none := by
  obtain ⟨there, found, equal⟩ := has
  simp [RouteTable.stale, found, Option.filter, equal]

theorem staleMissing (stale : t.stale route = some old) : ¬t.has route := fun has => by
  rw [staleNone has] at stale
  contradiction

theorem freeMissing (free : t.route route.dst = none) : ¬t.has route := by
  rintro ⟨there, installed, _⟩
  rw [free] at installed
  contradiction

theorem hasOrStale : t.has route ∨ t.stale route ≠ none ∨ t.route route.dst = none := by
  cases found : t.route route.dst with
  | none => exact .inr (.inr rfl)
  | some there =>
    cases equal : routeEqual there route with
    | true => exact .inl ⟨there, found, equal⟩
    | false => exact .inr (.inl (by rw [staleSome.mpr ⟨found, equal⟩]; simp))

theorem deleteStaleIs : s.deleteStale calls route (s.table.routeListFiltered route.dst) =
    match s.table.stale route, calls.del with
    | none, _ => (.ok (), s)
    | some _, some message => (.error (.bail message), s)
    | some old, none => (.ok (), { s with table := s.table.erase route.dst }.forget old) := by
  unfold RouteTable.routeListFiltered RouteTable.stale
  cases found : s.table.route route.dst with
  | none => rfl
  | some old =>
    cases equal : routeEqual old route with
    | true => simp [deleteStale, equal, Option.filter]
    | false =>
      simp only [Option.toList_some, deleteStale, equal, Bool.false_eq_true, if_false, delInstalled found]
      cases calls.del <;> simp [answer, Option.filter, equal]

theorem addMissingHas (has : s.table.has route) :
    s.addMissing calls route (s.table.routeListFiltered route.dst) = (.ok (), s) := by
  obtain ⟨there, found, equal⟩ := has
  simp [addMissing, RouteTable.routeListFiltered, found, equal]

theorem addMissingFree (free : s.table.route route.dst = none) :
    s.addMissing calls route (s.table.routeListFiltered route.dst) = match calls.add with
    | some message => (.error (.bail message), s)
    | none => (.ok (), { s with table := s.table.install route }) := by
  cases add : calls.add <;> simp [addMissing, RouteTable.routeListFiltered, RouteTable.routeAdd, free, add, answer]

theorem routeAddHas (has : s.table.has route) : s.routeAdd calls route =
    match calls.list, calls.relist with
    | some message, _ => (.error (.bail message), s.push route)
    | none, some message => (.error (.bail message), s.push route)
    | none, none => (.ok (), s.push route) := by
  have stale : (s.push route).deleteStale calls route ((s.push route).table.routeListFiltered route.dst) =
      (.ok (), s.push route) := by
    rw [deleteStaleIs, show (s.push route).table.stale route = none from staleNone has]
  unfold routeAdd
  cases calls.list with
  | some message => rfl
  | none =>
    simp only [answer, stale]
    cases calls.relist with
    | some message => rfl
    | none => exact addMissingHas has

theorem routeAddFree (free : s.table.route route.dst = none) : s.routeAdd calls route =
    match calls.list, calls.relist, calls.add with
    | some message, _, _ => (.error (.bail message), s.push route)
    | none, some message, _ => (.error (.bail message), s.push route)
    | none, none, some message => (.error (.bail message), s.push route)
    | none, none, none => (.ok (), { s.push route with table := s.table.install route }) := by
  have stale : (s.push route).deleteStale calls route ((s.push route).table.routeListFiltered route.dst) =
      (.ok (), s.push route) := by
    rw [deleteStaleIs, show (s.push route).table.stale route = none by simp [RouteTable.stale, push, free]]
  unfold routeAdd
  cases calls.list with
  | some message => rfl
  | none =>
    simp only [answer, stale]
    cases calls.relist with
    | some message => rfl
    | none =>
      refine (addMissingFree (s := s.push route) free).trans ?_
      cases calls.add <;> rfl

/- The state after the stale route is deleted. -/
def replaced (s : Routing) (old route : Route) : Routing :=
  { s.push route with table := s.table.erase route.dst }.forget old

theorem routeAddStale (stale : s.table.stale route = some old) : s.routeAdd calls route =
    match calls.list, calls.del, calls.relist, calls.add with
    | some message, _, _, _ => (.error (.bail message), s.push route)
    | none, some message, _, _ => (.error (.bail message), s.push route)
    | none, none, some message, _ => (.error (.bail message), s.replaced old route)
    | none, none, none, some message => (.error (.bail message), s.replaced old route)
    | none, none, none, none =>
      (.ok (), { s.replaced old route with table := (s.table.erase route.dst).install route }) := by
  have here : (s.push route).table.stale route = some old := stale
  have free : (s.replaced old route).table.route route.dst = none := Function.update_self ..
  unfold routeAdd
  cases calls.list with
  | some message => rfl
  | none =>
    simp only [answer, deleteStaleIs, here]
    cases calls.del with
    | some message => rfl
    | none =>
      simp only
      cases calls.relist with
      | some message => rfl
      | none =>
        refine (addMissingFree free).trans ?_
        cases calls.add <;> rfl

theorem keepsEqual (stale : s.table.stale route = some old) {it : Route} (equal : routeEqual it route = true) :
    (!routeEqual it old) = true := by
  rw [Bool.not_eq_true']
  by_contra same
  have other := (staleSome.mp stale).2
  rw [routeEqualTrans (routeEqualSymm (Bool.eq_true_of_not_eq_false same)) equal] at other
  contradiction

theorem replacedRoutes (stale : s.table.stale route = some old) (whole : routeEqual route route = true) :
    (s.replaced old route).network.routes =
      s.network.routes.filter (fun it => !routeEqual it old) ++ [route] := by
  simp only [replaced, forget, push, List.filter_append, List.filter_singleton, keepsEqual stale whole, cond_true]

/- Whatever fails, the list has the new route behind the old ones, and only a stale route may be gone. -/
theorem routeAddRoutes (whole : routeEqual route route = true) :
    ∃ keep : Route → Bool, (∀ it, routeEqual it route = true → keep it = true) ∧
      (s.routeAdd calls route).2.network.routes = s.network.routes.filter keep ++ [route] := by
  have pushed : ∃ keep : Route → Bool, (∀ it, routeEqual it route = true → keep it = true) ∧
      (s.push route).network.routes = s.network.routes.filter keep ++ [route] :=
    ⟨fun _ => true, fun _ _ => rfl, by rw [List.filter_true]; rfl⟩
  rcases @hasOrStale route s.table with has | stale | free
  · rw [routeAddHas has]
    cases calls.list <;> cases calls.relist <;> exact pushed
  · obtain ⟨old, stale⟩ := Option.ne_none_iff_exists'.mp stale
    have forgot : ∃ keep : Route → Bool, (∀ it, routeEqual it route = true → keep it = true) ∧
        (s.replaced old route).network.routes = s.network.routes.filter keep ++ [route] :=
      ⟨fun it => !routeEqual it old, fun it => keepsEqual stale, replacedRoutes stale whole⟩
    rw [routeAddStale stale]
    cases calls.list with
    | some message => exact pushed
    | none =>
      cases calls.del with
      | some message => exact pushed
      | none => cases calls.relist <;> cases calls.add <;> exact forgot
  · rw [routeAddFree free]
    cases calls.list <;> cases calls.relist <;> cases calls.add <;> exact pushed

theorem routeAddGrows (whole : routeEqual route route = true) :
    (s.routeAdd calls route).2.network.routes ≠ s.network.routes := by
  intro same
  obtain ⟨keep, keeps, routes⟩ := @routeAddRoutes s calls route whole
  have count := congrArg (List.count route) (routes.symm.trans same)
  rw [List.count_append, List.count_filter (keeps route whole), List.count_singleton_self] at count
  exact Nat.succ_ne_self _ count

theorem routeAddTwice (whole : routeEqual route route = true) (mem : old ∈ s.network.routes)
    (equal : routeEqual old route = true) : ¬Tracks (s.routeAdd calls route).2 := by
  intro tracks
  obtain ⟨keep, keeps, routes⟩ := @routeAddRoutes s calls route whole
  have distinct := tracks.distinct
  rw [routes, List.pairwise_append] at distinct
  have apart := distinct.2.2 old (List.mem_filter.mpr ⟨mem, keeps old equal⟩) route List.mem_cons_self
  rw [equal] at apart
  contradiction

theorem routeAddOk : (s.routeAdd calls route).1 = .ok () ↔ GoesThrough s.table calls route := by
  rcases @hasOrStale route s.table with has | stale | free
  · rw [routeAddHas has]
    constructor
    · intro ok
      cases list : calls.list <;> cases relist : calls.relist <;> rw [list, relist] at ok <;> try contradiction
      exact ⟨list, fun stale => absurd (staleNone has) stale, relist, fun missing => absurd has missing⟩
    · intro through
      rw [through.list, through.relist]
  · obtain ⟨old, found⟩ := Option.ne_none_iff_exists'.mp stale
    rw [routeAddStale found]
    constructor
    · intro ok
      cases list : calls.list <;> cases del : calls.del <;> cases relist : calls.relist <;> cases add : calls.add <;>
        rw [list, del, relist, add] at ok <;> try contradiction
      exact ⟨list, fun _ => del, relist, fun _ => add⟩
    · intro through
      rw [through.list, through.del stale, through.relist, through.add (staleMissing found)]
  · rw [routeAddFree free]
    constructor
    · intro ok
      cases list : calls.list <;> cases relist : calls.relist <;> cases add : calls.add <;>
        rw [list, relist, add] at ok <;> try contradiction
      refine ⟨list, fun stale => absurd ?_ stale, relist, fun _ => add⟩
      simp [RouteTable.stale, free]
    · intro through
      rw [through.list, through.relist, through.add (freeMissing free)]

theorem hasInstalled {t : RouteTable} (whole : routeEqual route route = true) : (t.install route).has route :=
  ⟨route, Function.update_self .., whole⟩

theorem hasInstall {it : Route} (other : it.dst ≠ route.dst) (has : t.has it) : (t.install route).has it := by
  obtain ⟨there, found, equal⟩ := has
  exact ⟨there, (Function.update_of_ne other ..).trans found, equal⟩

theorem hasErase {it : Route} {dst : Option Ipv4Network} (other : it.dst ≠ dst) (has : t.has it) : (t.erase dst).has it := by
  obtain ⟨there, found, equal⟩ := has
  exact ⟨there, (Function.update_of_ne other ..).trans found, equal⟩

/- The list with the new route behind some of the old ones. -/
theorem tracksBehind (keep : Route → Bool) (tracks : Tracks s) (new : ∀ old ∈ s.network.routes, routeEqual old route = false)
    (routes : s'.network.routes = s.network.routes.filter keep ++ [route]) (has : s'.table.has route)
    (kept : ∀ it ∈ s.network.routes, keep it = true → s'.table.has it) : Tracks s' := by
  constructor
  · rw [routes, List.pairwise_append]
    refine ⟨tracks.distinct.filter keep, List.pairwise_singleton _ _, fun it mem r last => ?_⟩
    rw [List.mem_singleton.mp last]
    exact new it (List.mem_filter.mp mem).1
  · rw [routes, List.forall_mem_append, List.forall_mem_singleton]
    exact ⟨fun it mem => kept it (List.mem_filter.mp mem).1 (List.mem_filter.mp mem).2, has⟩

theorem routeAddTracks (whole : routeEqual route route = true) (tracks : Tracks s)
    (new : ∀ old ∈ s.network.routes, routeEqual old route = false) (through : GoesThrough s.table calls route) :
    Tracks (s.routeAdd calls route).2 := by
  rcases @hasOrStale route s.table with has | stale | free
  · rw [routeAddHas has, through.list, through.relist]
    refine tracksBehind (fun _ => true) tracks new ?_ has (fun it mem _ => tracks.installed it mem)
    rw [List.filter_true]
    rfl
  · obtain ⟨old, found⟩ := Option.ne_none_iff_exists'.mp stale
    rw [routeAddStale found, through.list, through.del stale, through.relist, through.add (staleMissing found)]
    refine tracksBehind _ tracks new (replacedRoutes found whole) (hasInstalled whole) (fun it mem keep => ?_)
    -- a route of the same destination equals the stale one, and that is taken out of the list
    have other : it.dst ≠ route.dst := by
      intro same
      obtain ⟨there, installed, equal⟩ := tracks.installed it mem
      rw [same, (staleSome.mp found).1] at installed
      rw [Option.some.inj installed, routeEqualSymm equal] at keep
      contradiction
    exact hasInstall other (hasErase other (tracks.installed it mem))
  · rw [routeAddFree free, through.list, through.relist, through.add (freeMissing free)]
    refine tracksBehind (fun _ => true) tracks new ?_ (hasInstalled whole) (fun it mem _ => ?_)
    · rw [List.filter_true]
      rfl
    · refine hasInstall (fun same => ?_) (tracks.installed it mem)
      obtain ⟨there, installed, _⟩ := tracks.installed it mem
      rw [same, free] at installed
      contradiction

theorem forgetTracks (tracks : Tracks s) : Tracks (s.forget route) where
  distinct := tracks.distinct.filter _
  installed := fun it mem => tracks.installed it (List.mem_filter.mp mem).1

theorem eraseTracks (has : s.table.has route) (tracks : Tracks s) :
    Tracks { s.forget route with table := s.table.erase route.dst } := by
  constructor
  · exact tracks.distinct.filter _
  · intro it mem
    obtain ⟨mem, apart⟩ := List.mem_filter.mp mem
    refine hasErase (fun same => ?_) (tracks.installed it mem)
    -- what is erased equals the route, and so would a route of the list with its destination
    obtain ⟨gone, found, leads⟩ := has
    obtain ⟨there, installed, equal⟩ := tracks.installed it mem
    rw [same, found] at installed
    cases Option.some.inj installed
    rw [routeEqualTrans (routeEqualSymm equal) leads] at apart
    contradiction

theorem routeDelHas {table : RouteTable} (whole : routeEqual route route = true) (deleted : t.routeDel route = .ok table) :
    t.has route ∧ table = t.erase route.dst := by
  unfold RouteTable.routeDel at deleted
  split at deleted <;> try contradiction
  rename_i leads
  obtain ⟨there, installed, leads⟩ := (Option.any_eq_true _ _).mp leads
  obtain ⟨d, g, dst, _, gw, _, _⟩ := routeEqualIff.mp whole
  simp only [Bool.and_eq_true, decide_eq_true_eq] at leads
  refine ⟨⟨there, installed, ?_⟩, (Except.ok.inj deleted).symm⟩
  exact routeEqualIff.mpr ⟨d, g, (t.filed _ _ installed).trans dst, dst, leads.1.trans gw, gw, leads.2⟩

theorem routeDeleteTracks (whole : routeEqual route route = true) (tracks : Tracks s) :
    Tracks (s.routeDelete calls route).2 := by
  unfold routeDelete
  dsimp only
  split
  · exact forgetTracks tracks
  · rename_i table deleted
    cases del : calls.del with
    | some message =>
      rw [del] at deleted
      contradiction
    | none =>
      rw [del] at deleted
      obtain ⟨has, rfl⟩ := routeDelHas whole deleted
      exact eraseTracks has tracks

theorem routeDeleteOk : (s.routeDelete calls route).1 = .ok () := by
  unfold routeDelete
  dsimp only
  split <;> rfl

/-- After the step the list tracks what is installed; a step that fails leaves the list as
it was, and a put of a listed route does not make it longer. -/
structure KeepsList (x : Res Unit × Routing) (a : LeaseWatchEvent × RouteCalls) : Prop where
  tracks : Tracks (step x a).2
  failed : (step x a).1 ≠ .ok () → (step x a).2.network.routes = x.2.network.routes
  renewed : a.1.eventType = .put → (∃ old ∈ x.2.network.routes, routeEqual old (x.2.network.getRoute a.1.lease) = true) →
    (step x a).2.network.routes.length ≤ x.2.network.routes.length

/- A put of the backend's type brings a route that is not listed, and its netlink calls go through. -/
def PutsNewRoute (x : Res Unit × Routing) (a : LeaseWatchEvent × RouteCalls) : Prop :=
  x.1 = .ok () → a.1.eventType = .put → ofType x.2.network.backendType a.1 = true →
    (∀ old ∈ x.2.network.routes, routeEqual old (x.2.network.getRoute a.1.lease) = false) ∧
      GoesThrough x.2.table a.2 (x.2.network.getRoute a.1.lease)

variable {x : Res Unit × Routing} {a : LeaseWatchEvent × RouteCalls}

theorem stepSame (tracks : Tracks x.2) (same : (step x a).2 = x.2) : KeepsList x a where
  tracks := same ▸ tracks
  failed := fun _ => by rw [same]
  renewed := fun _ _ => by rw [same]

theorem stepKeepsIff (tracks : Tracks x.2) : KeepsList x a ↔ PutsNewRoute x a := by
  obtain ⟨going, s⟩ := x
  obtain ⟨e, calls⟩ := a
  cases going with
  | error stop => exact ⟨fun _ => nofun, fun _ => stepSame tracks rfl⟩
  | ok =>
    cases matched : ofType s.network.backendType e with
    | false =>
      refine ⟨fun _ _ _ type => ?_, fun _ => stepSame tracks (by rw [step, handleIgnored matched])⟩
      rw [matched] at type
      contradiction
    | true =>
      have done : step (.ok (), s) (e, calls) = s.handle e calls := rfl
      rw [handleTyped matched] at done
      cases kind : e.eventType with
      | delete =>
        rw [kind] at done
        refine ⟨fun _ _ put => ?_, fun _ => ⟨done ▸ routeDeleteTracks getRouteEqual tracks, ?_, ?_⟩⟩
        · rw [kind] at put
          contradiction
        · exact fun failed => absurd (done ▸ routeDeleteOk) failed
        · rw [kind]
          exact nofun
      | put =>
        rw [kind] at done
        constructor
        · rintro ⟨tracks', failed, _⟩ _ _ _
          rw [done] at tracks' failed
          refine ⟨fun old mem => ?_, ?_⟩
          · by_contra equal
            exact routeAddTwice getRouteEqual mem (Bool.eq_true_of_not_eq_false equal) tracks'
          · by_contra stuck
            exact routeAddGrows getRouteEqual (failed (fun ok => stuck (routeAddOk.mp ok)))
        · intro permitted
          obtain ⟨new, through⟩ := permitted rfl kind matched
          refine ⟨done ▸ routeAddTracks getRouteEqual tracks new through, fun failed => ?_, fun _ listed => ?_⟩
          · exact absurd (done ▸ routeAddOk.mpr through) failed
          · obtain ⟨old, mem, equal⟩ := listed
            exact absurd equal (Bool.not_eq_true _ ▸ new old mem)

theorem routesTrackIff (network : RouterNetwork) (table : RouteTable) (actions : List (LeaseWatchEvent × RouteCalls)) :
    Along step KeepsList (.ok (), ⟨{ network with routes := [] }, table⟩) actions ↔
      Along step PutsNewRoute (.ok (), ⟨{ network with routes := [] }, table⟩) actions :=
  alongCongr (fun x => Tracks x.2) (fun _ _ tracks => stepKeepsIff tracks) (fun _ _ _ keeps => keeps.tracks)
    ⟨.nil, by simp⟩

end Routing

private def emptyRouter : RouterNetwork where
  subnetLease := { Lease.default 0 with subnet := cidr 0x0A000100 24 }
  routes := []
  mtu := 1500
  linkIndex := 2
  backendType := "host-gw"

private def peerPut : LeaseWatchEvent where
  lease := { Lease.default 0 with subnet := cidr 0x0A000200 24, attrs := { publicIp := 2, backendType := some "host-gw" } }
  eventType := .put

/- A lease and its renewal, and a lease whose route the kernel refuses. -/
theorem listedTwiceOrMissing :
    let x := run Routing.step (.ok (), ⟨emptyRouter, .empty⟩) [(peerPut, {}), (peerPut, {})]
    let y := run Routing.step (.ok (), ⟨emptyRouter, .empty⟩) [(peerPut, { add := some "Network is unreachable" })]
    (x.1 = .ok () ∧ x.2.network.routes.length = 2 ∧ ¬Routing.Tracks x.2) ∧
      (y.1 = .error (.bail "Network is unreachable") ∧ y.2.network.routes.length = 1 ∧
        y.2.table.route (some peerPut.lease.subnet) = none ∧ ¬Routing.Tracks y.2) := by
  refine ⟨⟨by decide, by decide, fun tracks => ?_⟩, by decide, by decide, by decide, fun tracks => ?_⟩
  · exact absurd tracks.distinct (by decide)
  · obtain ⟨there, installed, _⟩ := tracks.installed (emptyRouter.getRoute peerPut.lease) (by decide)
    have absent : RouteTable.empty.route (emptyRouter.getRoute peerPut.lease).dst = none := rfl
    exact absurd (absent.symm.trans installed) (by simp)

end FlannelNg
