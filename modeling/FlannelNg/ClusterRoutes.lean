import Mathlib.Data.List.Find
import FlannelNg.ClusterView
import FlannelNg.UdpRoutes

/-! The routes of a node in a cluster: an address is routed to where the present entry of
its subnet says, once the node has received what the others wrote. -/
namespace FlannelNg
open Cidr Outcome Replay Runs

/- The entries of the other subnets. -/
def otherEntries (own : Ipv4Network) (db : Store) : List (KeyValue Ipv4Network LeaseAttrs) :=
  db.kvs.filter (fun kv => decide (kv.key ≠ own))

/- The entry of another subnet that the address is in. -/
def entryOf (own : Ipv4Network) (db : Store) (d : Ipv4Addr) : Option (KeyValue Ipv4Network LeaseAttrs) :=
  (otherEntries own db).find? (fun kv => kv.key.contains d)

/- What a watcher with nothing outstanding has told its backend. -/
def othersView (own : Ipv4Network) (db : Store) : View := Function.update (storeView id id db.kvs) own none

section View
variable {own : Ipv4Network} {db : Store} {routes : List RouteEntry} {d : Ipv4Addr}

theorem othersViewIs (s : Ipv4Network) :
    othersView own db s = (Keyed.lookup KeyValue.key s (otherEntries own db)).map KeyValue.value := by
  rw [otherEntries, Keyed.lookupFilter (p := fun k => decide (k ≠ own)), othersView, Function.update_apply]
  by_cases mine : s = own
  · simp [mine]
  · rw [if_neg mine, if_pos (decide_eq_true mine)]
    rfl

theorem othersMember {s : Ipv4Network} {attrs : LeaseAttrs} (present : othersView own db s = some attrs) :
    ∃ kv ∈ db.kvs, kv.key = s ∧ kv.key ≠ own ∧ kv.value = attrs := by
  rw [othersViewIs] at present
  obtain ⟨kv, found, value⟩ := Option.map_eq_some_iff.mp present
  obtain ⟨member, key⟩ := Keyed.lookupSome found
  obtain ⟨stored, other⟩ := List.mem_filter.mp member
  exact ⟨kv, stored, key, of_decide_eq_true other, value⟩

theorem entriesRepresent : Keyed.Represents KeyValue.key (fun kv => kv.value.publicIp) (otherEntries own db)
    (nextHops (othersView own db)) := by
  have distinct : Keyed.Distinct KeyValue.key (otherEntries own db) :=
    Keyed.distinctSublist db.distinct List.filter_sublist
  constructor
  · intro kv member
    rw [nextHops, othersViewIs, (Keyed.memIff distinct).mp member]
    rfl
  · intro s hop known
    rw [nextHops, othersViewIs] at known
    obtain ⟨attrs, present, _⟩ := Option.map_eq_some_iff.mp known
    obtain ⟨kv, found, _⟩ := Option.map_eq_some_iff.mp present
    exact ⟨kv, Keyed.lookupSome found⟩

theorem entryFound (apart : Apart db) {kv : KeyValue Ipv4Network LeaseAttrs} {d : Ipv4Addr} (stored : kv ∈ db.kvs)
    (other : kv.key ≠ own) (inside : kv.key.contains d = true) : entryOf own db d = some kv := by
  have member : kv ∈ otherEntries own db := List.mem_filter.mpr ⟨stored, decide_eq_true other⟩
  cases found : entryOf own db d with
  | none => exact absurd inside (List.find?_eq_none.mp found kv member)
  | some kv' =>
    have stored' := (List.mem_filter.mp (List.mem_of_find?_eq_some found)).1
    have inside' : kv'.key.contains d = true := by simpa using List.find?_some found
    have same : kv'.key = kv.key := by
      by_contra differ
      exact apart.disjoint kv' stored' kv stored differ d ⟨inside', inside⟩
    exact congrArg some (List.inj_on_of_nodup_map db.distinct stored' stored same)

theorem routedToEntry (apart : Apart db)
    (rep : Keyed.Represents RouteEntry.dst RouteEntry.nextHop routes (nextHops (othersView own db))) :
    (findRoute routes d).map (Option.map RouteEntry.nextHop) =
      .ok ((entryOf own db d).map (fun kv => kv.value.publicIp)) := by
  have searched : entryOf own db d = (otherEntries own db).find? (fun kv => routedBy d kv.key) := by
    refine List.find?_congr fun kv member => ?_
    exact (routedByCanonical (apart.canonical kv (List.mem_filter.mp member).1)).symm
  rw [findRouteFind, searched]
  refine congrArg Except.ok (Keyed.representsSame rep entriesRepresent ?_)
  intro s t a b here there hit hit'
  obtain ⟨attrs, present, _⟩ := Option.map_eq_some_iff.mp here
  obtain ⟨attrs', present', _⟩ := Option.map_eq_some_iff.mp there
  obtain ⟨kv, member, rfl, _⟩ := othersMember present
  obtain ⟨kv', member', rfl, _⟩ := othersMember present'
  by_contra differ
  exact apart.disjoint kv member kv' member' differ d ⟨(routedExact.mp hit).2, (routedExact.mp hit').2⟩

end View

section Cluster
variable {N : Type} [DecidableEq N] {build : Build} {publicIp : N → Ipv4Addr} {config : Config}
variable {rpc : ReadRpc Ipv4Network LeaseAttrs} {responses : List (WatchResponse Ipv4Network LeaseAttrs)} {registered : Nat}

/- The events that a backend with this lease has received. -/
def received (own : Lease) (results : List LeaseWatchResult) : List LeaseWatchEvent :=
  (run Watch.handle (Watch.start own) results).emitted

theorem receivedView {own : Lease} {results : List LeaseWatchResult} {db : Store}
    (inStep : InStep own (run Watch.handle (Watch.start own) results) (storeView id id db.kvs)) :
    replay unknown ((received own results).map LeaseWatchEvent.change) = othersView own.subnet db :=
  matchesOfStep inStep

theorem receivedRoutes {own : Lease} {results : List LeaseWatchResult} {db : Store} (apart : Apart db)
    (inStep : InStep own (run Watch.handle (Watch.start own) results) (storeView id id db.kvs)) (d : Ipv4Addr) :
    (findRoute ((received own results).foldl handleLeaseEvent []) d).map (Option.map RouteEntry.nextHop) =
      .ok ((entryOf own.subnet db d).map (fun kv => kv.value.publicIp)) := by
  have rep := @runRepresents [] unknown (received own results) Keyed.representsNil
  rw [receivedView inStep] at rep
  exact routedToEntry apart rep

theorem routesFollowCluster {c : Cluster N} {pre post : List (Action N)} (own : Lease)
    (accepted : getNetworkConfig build c.stored = .ok config) (recorded : Recorded Codec.plain c.db) (apart : Apart c.db)
    (idle : ∀ n, c.node n = .idle) (permitted : ∀ a ∈ pre ++ post, SteadyAnswered a)
    (caughtUp : CaughtUp rpc responses registered (run (step build publicIp) c pre).db
      (run (step build publicIp) c (pre ++ post)).db) :
    ∃ results, watchLeasesInner Codec.plain rpc (run (step build publicIp) c pre).db responses = .ok results ∧
      ∀ d, (findRoute ((received own results).foldl handleLeaseEvent []) d).map (Option.map RouteEntry.nextHop) =
        .ok ((entryOf own.subnet (run (step build publicIp) c (pre ++ post)).db d).map (fun kv => kv.value.publicIp)) := by
  have safe : Safe build config (run (step build publicIp) c (pre ++ post)) :=
    runSafe ⟨accepted, apart, fun n => idle n ▸ trivial⟩ permitted
  have later : (run (step build publicIp) c pre).db.log <+: (run (step build publicIp) c (pre ++ post)).db.log := by
    rw [runAppend]
    exact runLog
  obtain ⟨results, inner, inStep⟩ := caughtUpInStep own (runRecorded recorded) (runRecorded recorded) later caughtUp
  exact ⟨results, inner, fun d => receivedRoutes safe.apart inStep d⟩

end Cluster

/- Two nodes on an empty store: the first has its lease before the second starts. -/
def newCluster : Cluster Bool := quietCluster Etcd.empty settledEmpty

def firstJoins : List (Action Bool) := choosing false ++ [writing false 1]

def secondJoins : List (Action Bool) := choosing true ++ [writing true 2]

def firstLease : Lease := { Lease.default 0 with subnet := cidr 0x0A000004 30, attrs := { publicIp := 1 } }

/- The two creations, as the watch of the first node receives them. -/
def joinResponse : WatchResponse Ipv4Network LeaseAttrs where
  events := [⟨.put ⟨cidr 0x0A000004 30, { publicIp := 1 }, 1⟩, some 100, 0⟩,
    ⟨.put ⟨cidr 0x0A000008 30, { publicIp := 2 }, 2⟩, some 100, 0⟩]
  revision := 3
  canceled := false

theorem joinCaughtUp : CaughtUp (ReadRpc.quiet 100 0) [joinResponse] 1 (run (step .checked addressOf) newCluster firstJoins).db
    (run (step .checked addressOf) newCluster (firstJoins ++ secondJoins)).db where
  succeeds := rfl
  answered := fun _ => ⟨100, rfl, (by decide : 0 / SystemTime.nanos + 100 < 2 ^ 63)⟩
  entries := by decide
  delivered := by decide
  answered' := by
    intro d member kv _
    have ttl : ∀ d ∈ [joinResponse].flatMap WatchResponse.events, d.ttl = some 100 ∧ d.now = 0 := by decide
    obtain ⟨ttl, now⟩ := ttl d member
    exact ⟨100, ttl, by rw [now]; decide⟩
  live := by decide

theorem joinedRouted : ∃ results,
    watchLeasesInner Codec.plain (ReadRpc.quiet 100 0) (run (step .checked addressOf) newCluster firstJoins).db
      [joinResponse] = .ok results ∧
    ∀ d, (findRoute ((received firstLease results).foldl handleLeaseEvent []) d).map (Option.map RouteEntry.nextHop) =
      .ok ((entryOf firstLease.subnet (run (step .checked addressOf) newCluster (firstJoins ++ secondJoins)).db d).map
        (fun kv => kv.value.publicIp)) :=
  routesFollowCluster firstLease (smallConfigAccepted .checked) recordedEmpty ⟨by decide, by decide⟩ (fun _ => rfl)
    (by simp [firstJoins, secondJoins, choosing, writing, SteadyAnswered, ReadRpc.quiet]) joinCaughtUp

end FlannelNg
