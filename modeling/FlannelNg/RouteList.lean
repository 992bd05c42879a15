import FlannelNg.UdpRoutes
import FlannelNg.Undo

/-! How many entries the route list of the UDP backend holds. A put pushes an entry
also when its destination has one already, and only a delete takes entries out. -/
namespace FlannelNg
open Cidr Replay

def puts (s : Ipv4Network) (e : LeaseWatchEvent) : Bool := e.lease.subnet = s && e.eventType = .put

def deletes (s : Ipv4Network) (e : LeaseWatchEvent) : Bool := e.lease.subnet = s && e.eventType = .delete

/- How often a subnet is put after its last delete. -/
def putsSinceDelete (s : Ipv4Network) (events : List LeaseWatchEvent) : Nat :=
  (events.reverse.takeWhile (fun e => !deletes s e)).countP (puts s)

/- The subnets whose latest event is a put, each once. -/
def liveSubnets (events : List LeaseWatchEvent) : List Ipv4Network :=
  (events.map (fun e => e.lease.subnet)).dedup.filter (fun s => (lastOf s events).any (fun e => e.eventType = .put))

structure OneEntryEach (events : List LeaseWatchEvent) (routes : List RouteEntry) : Prop where
  unique : (routes.map RouteEntry.dst).Nodup
  length : routes.length = (liveSubnets events).length

variable {s : Ipv4Network} {e : LeaseWatchEvent} {events : List LeaseWatchEvent} {routes : List RouteEntry}

theorem handleDst : (handleLeaseEvent routes e).map RouteEntry.dst = match e.eventType with
    | .put => routes.map RouteEntry.dst ++ [e.lease.subnet]
    | .delete => (routes.map RouteEntry.dst).filter (fun dst => decide (dst ≠ e.lease.subnet)) := by
  unfold handleLeaseEvent
  cases e.eventType with
  | put =>
    have kept : RouteEntry.dst ∘ (fun r => if r.dst = e.lease.subnet then
        { r with nextHop := e.lease.attrs.publicIp } else r) = RouteEntry.dst := by
      funext r
      simp only [Function.comp_apply]
      split <;> rfl
    simp only [List.map_append, List.map_map, kept, List.map_singleton]
  | delete => simp only [List.filter_map, Function.comp_def]

theorem putsSinceSnoc : putsSinceDelete s (events ++ [e]) =
    if e.lease.subnet ≠ s then putsSinceDelete s events
    else match e.eventType with
      | .put => putsSinceDelete s events + 1
      | .delete => 0 := by
  unfold putsSinceDelete
  rw [List.reverse_append, List.reverse_singleton, List.singleton_append, List.takeWhile_cons]
  by_cases same : e.lease.subnet = s <;> cases kind : e.eventType <;> simp [deletes, puts, same, kind]

/- Of every subnet there are as many entries as it was put since its last delete. -/
theorem entriesOf : ((events.foldl handleLeaseEvent []).map RouteEntry.dst).count s = putsSinceDelete s events := by
  induction events using List.reverseRecOn with
  | nil => rfl
  | append_singleton pre e ih =>
    rw [List.foldl_append, List.foldl_cons, List.foldl_nil, handleDst, putsSinceSnoc, ← ih]
    by_cases same : e.lease.subnet = s
    · rw [if_neg (not_not.mpr same)]
      cases e.eventType with
      | put => simp [same]
      | delete => simp [List.count_eq_zero, same]
    · rw [if_pos same]
      cases e.eventType with
      | put => simp [same]
      | delete => exact List.count_filter (by simpa using Ne.symm same)

theorem lastOfSnoc : lastOf s (events ++ [e]) = if e.lease.subnet = s then some e else lastOf s events := by
  by_cases same : e.lease.subnet = s <;> simp [lastOf, same]

theorem putSinceDelete : 0 < putsSinceDelete s events ↔ ∃ p, lastOf s events = some p ∧ p.eventType = .put := by
  induction events using List.reverseRecOn with
  | nil => simp [putsSinceDelete, lastOf]
  | append_singleton pre e ih =>
    rw [putsSinceSnoc, lastOfSnoc]
    by_cases same : e.lease.subnet = s
    · rw [if_neg (not_not.mpr same), if_pos same]
      cases kind : e.eventType <;> simp [kind]
    · rw [if_pos same, if_neg same]
      exact ih

theorem memLive : s ∈ liveSubnets events ↔ s ∈ (events.foldl handleLeaseEvent []).map RouteEntry.dst := by
  have listed : s ∈ (events.foldl handleLeaseEvent []).map RouteEntry.dst ↔ 0 < putsSinceDelete s events := by
    rw [← List.count_pos_iff, entriesOf]
  rw [listed, putSinceDelete, liveSubnets, List.mem_filter, List.mem_dedup, Option.any_eq_true]
  constructor
  · rintro ⟨_, p, last, put⟩
    exact ⟨p, last, of_decide_eq_true put⟩
  · rintro ⟨p, last, put⟩
    have same : p.lease.subnet = s := by simpa using List.find?_some last
    have member : p ∈ events := List.mem_reverse.mp (List.mem_of_find?_eq_some last)
    exact ⟨same ▸ List.mem_map_of_mem member, p, last, decide_eq_true put⟩

theorem routeListUniqueIff (events : List LeaseWatchEvent) :
    OneEntryEach events (events.foldl handleLeaseEvent []) ↔ ∀ s, putsSinceDelete s events ≤ 1 := by
  constructor
  · intro one s
    rw [← entriesOf]
    exact List.nodup_iff_count_le_one.mp one.unique s
  · intro once
    have unique : ((events.foldl handleLeaseEvent []).map RouteEntry.dst).Nodup :=
      List.nodup_iff_count_le_one.mpr (fun s => entriesOf.trans_le (once s))
    have live : (liveSubnets events).Nodup := (List.nodup_dedup _).filter _
    have perm := (List.perm_ext_iff_of_nodup unique live).mpr (fun s => memLive.symm)
    exact ⟨unique, (List.length_map _).symm.trans perm.length_eq⟩

private def renewed : LeaseWatchEvent := ⟨{ Lease.default 0 with subnet := cidr 0x0A000200 24, attrs := { publicIp := 2 } }, .put⟩

theorem renewalGrowsRoutes : ¬OneEntryEach [renewed, renewed] ([renewed, renewed].foldl handleLeaseEvent []) ∧
    ([renewed, renewed].foldl handleLeaseEvent []).length = 2 ∧ (liveSubnets [renewed, renewed]).length = 1 :=
  ⟨fun one => absurd one.unique (by decide), by decide, by decide⟩

end FlannelNg
