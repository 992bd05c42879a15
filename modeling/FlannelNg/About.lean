import Mathlib.Data.List.TakeWhile
import FlannelNg.UdpLoop
import FlannelNg.Vxlan

/-! What the watcher and the backends make of the events about some of the subnets. It
depends on those events alone, as long as the loop of the vxlan backend goes on: a VTEP
that it cannot read stops it. -/
namespace FlannelNg
open Cidr Outcome Replay Runs

/- The events of the subnets that are looked at. -/
def about (p : Ipv4Network → Bool) (events : List LeaseWatchEvent) : List LeaseWatchEvent :=
  events.filter (fun e => p e.lease.subnet)

namespace LeaseWatcher

/- Two watchers that hold the same of the subnets that are looked at. -/
structure Alike (p : Ipv4Network → Bool) (w w' : LeaseWatcher) : Prop where
  owner : w.ownLease = w'.ownLease
  distinct : Keyed.Distinct Lease.subnet w.leases
  distinct' : Keyed.Distinct Lease.subnet w'.leases
  holds : ∀ s, p s = true → Keyed.lookup Lease.subnet s w.leases = Keyed.lookup Lease.subnet s w'.leases

variable {p : Ipv4Network → Bool} {w w' : LeaseWatcher} {e : LeaseWatchEvent} {events more : List LeaseWatchEvent}

theorem updateOneAlike (alike : Alike p w w') (inside : p e.lease.subnet = true) :
    (w.updateOne e).1 = (w'.updateOne e).1 ∧ Alike p (w.updateOne e).2 (w'.updateOne e).2 := by
  refine ⟨?_, ?_, updateOneDistinct alike.distinct, updateOneDistinct alike.distinct', fun s looked => ?_⟩
  · have subject : w.subject e = w'.subject e := by
      unfold subject
      rw [alike.holds _ inside]
    rw [updateOneSays, updateOneSays, alike.owner, subject]
  · rw [updateOneOwner, updateOneOwner, alike.owner]
  · rw [updateOneLookup alike.distinct, updateOneLookup alike.distinct', alike.owner, alike.holds s looked]

theorem updateOneOutside (alike : Alike p w w') (outside : p e.lease.subnet = false) :
    about p (w.updateOne e).1 = [] ∧ Alike p (w.updateOne e).2 w' := by
  refine ⟨?_, ?_, updateOneDistinct alike.distinct, alike.distinct', fun s looked => ?_⟩
  · rw [updateOneSays]
    split
    · rfl
    · simp [about, subjectSubnet, outside]
  · rw [updateOneOwner, alike.owner]
  · have apart : e.lease.subnet ≠ s := by
      rintro rfl
      exact Bool.false_ne_true (outside.symm.trans looked)
    rw [updateOneLookup alike.distinct, if_pos (.inr apart), alike.holds s looked]

/- What is emitted about the subnets looked at depends on the events about them alone. -/
theorem updateAbout (alike : Alike p w w') : about p (w.update events).1 = about p (w'.update (about p events)).1 := by
  induction events generalizing w w' with
  | nil => rfl
  | cons e rest ih =>
    cases looked : p e.lease.subnet with
    | true =>
      obtain ⟨same, alike'⟩ := updateOneAlike alike looked
      have kept : about p (e :: rest) = e :: about p rest := List.filter_cons_of_pos looked
      rw [kept, update, update]
      simp only [about, List.filter_append] at ih ⊢
      rw [ih alike', same]
    | false =>
      obtain ⟨silent, alike'⟩ := updateOneOutside alike looked
      have dropped : about p (e :: rest) = about p rest := List.filter_cons_of_neg (by simp [looked])
      rw [dropped, update]
      simp only [about, List.filter_append] at ih silent ⊢
      rw [silent, List.nil_append, ih alike']

theorem updateSameAbout (distinct : Keyed.Distinct Lease.subnet w.leases) (same : about p events = about p more) :
    about p (w.update events).1 = about p (w.update more).1 := by
  have alike : Alike p w w := ⟨rfl, distinct, distinct, fun _ _ => rfl⟩
  calc about p (w.update events).1
      = about p (w.update (about p events)).1 := updateAbout alike
    _ = about p (w.update (about p more)).1 := by rw [same]
    _ = about p (w.update more).1 := (updateAbout alike).symm

end LeaseWatcher

/- The routes of the UDP backend for the batches that the watcher sent. -/
def udpRoutes (mtu : Nat) (watch : Watch) : List RouteEntry :=
  (run (UdpLoop.step mtu) {} (watch.sent.map Input.events)).routes

section Udp
variable {p : Ipv4Network → Bool} {routes : List RouteEntry} {e : LeaseWatchEvent} {events : List LeaseWatchEvent}

theorem udpRoutesEmitted {mtu : Nat} {watch : Watch} : udpRoutes mtu watch = watch.emitted.foldl handleLeaseEvent [] := by
  have going := @runOngoing mtu (watch.sent.map Input.events) (fun input mem => by
    obtain ⟨batch, _, rfl⟩ := List.mem_map.mp mem
    trivial)
  rw [udpRoutes, going.routes, List.flatMap_map]
  exact congrArg (fun events => events.foldl handleLeaseEvent []) List.flatMap_id'

theorem handleAbout : (handleLeaseEvent routes e).filter (fun r => p r.dst) =
    if p e.lease.subnet = true then handleLeaseEvent (routes.filter (fun r => p r.dst)) e
    else routes.filter (fun r => p r.dst) := by
  unfold handleLeaseEvent
  cases e.eventType with
  | put =>
    let set := fun r : RouteEntry => if r.dst = e.lease.subnet then { r with nextHop := e.lease.attrs.publicIp } else r
    have kept : ∀ r, (set r).dst = r.dst := fun r => by
      simp only [set]
      split <;> rfl
    have mapped : (routes.map set).filter (fun r => p r.dst) = (routes.filter (fun r => p r.dst)).map set := by
      rw [List.filter_map]
      simp only [Function.comp_def, kept]
    simp only [List.filter_append]
    rw [mapped]
    by_cases looked : p e.lease.subnet = true
    · rw [if_pos looked, List.filter_cons_of_pos (p := fun r : RouteEntry => p r.dst) looked]
      rfl
    · rw [if_neg looked, List.filter_cons_of_neg (p := fun r : RouteEntry => p r.dst) looked, List.filter_nil,
        List.append_nil]
      refine (List.map_congr_left fun r mem => ?_).trans (List.map_id _)
      have apart : r.dst ≠ e.lease.subnet := fun same => looked (same ▸ (List.mem_filter.mp mem).2)
      exact if_neg apart
  | delete =>
    simp only [List.filter_filter]
    by_cases looked : p e.lease.subnet = true
    · rw [if_pos looked]
      simp only [Bool.and_comm]
    · rw [if_neg looked]
      refine List.filter_congr fun r _ => ?_
      have apart : p r.dst = true → r.dst ≠ e.lease.subnet := fun inside same => looked (same ▸ inside)
      cases inside : p r.dst <;> simp [inside, apart]

theorem routesAbout : (events.foldl handleLeaseEvent routes).filter (fun r => p r.dst) =
    (about p events).foldl handleLeaseEvent (routes.filter (fun r => p r.dst)) := by
  induction events generalizing routes with
  | nil => rfl
  | cons e rest ih =>
    rw [List.foldl_cons, ih, handleAbout]
    cases looked : p e.lease.subnet <;> simp [about, looked]

end Udp

section Lists
variable {α β : Type} {f : α → Option β} {q : β → Bool} {r : α → Bool} {xs ys : List α}

theorem dropWhileFilterMap : (xs.filterMap f).dropWhile q = (xs.dropWhile (fun x => (f x).all q)).filterMap f := by
  induction xs with
  | nil => rfl
  | cons x rest ih =>
    cases found : f x with
    | none => simp [found, ih]
    | some y =>
      rw [List.filterMap_cons_some found]
      cases passes : q y with
      | true => rw [List.dropWhile_cons_of_pos passes, List.dropWhile_cons_of_pos (by simp [found, passes]), ih]
      | false =>
        rw [List.dropWhile_cons_of_neg (by simp [passes]), List.dropWhile_cons_of_neg (by simp [found, passes]),
          List.filterMap_cons_some found]

theorem dropWhileFront {P : α → Prop} (back : ∀ y ∈ ys, P y) :
    (∀ x ∈ (xs ++ ys).dropWhile r, P x) ↔ ∀ x ∈ xs.dropWhile r, P x := by
  induction xs with
  | nil =>
    refine iff_of_true (fun y mem => back y ((List.dropWhile_sublist r).subset mem)) (by simp)
  | cons x rest ih =>
    cases passes : r x with
    | true =>
      rw [List.cons_append, List.dropWhile_cons_of_pos passes, List.dropWhile_cons_of_pos passes]
      exact ih
    | false =>
      rw [List.cons_append, List.dropWhile_cons_of_neg (by simp [passes]), List.dropWhile_cons_of_neg (by simp [passes]),
        ← List.cons_append]
      constructor
      · exact fun all y mem => all y (List.mem_append_left _ mem)
      · intro all y mem
        rcases List.mem_append.mp mem with front | last
        · exact all y front
        · exact back y last

end Lists

section Vxlan
variable (parseMac : String → Option MacAddr6)

/- The events that the loop gets through, up to the first VTEP that it cannot read. -/
def handledEvents (events : List LeaseWatchEvent) : List LeaseWatchEvent :=
  events.takeWhile (fun e => decide (WellFormedVtep parseMac e))

def vxlanKernel (n : VxlanNetwork) (k : Kernel) (events : List LeaseWatchEvent) : Kernel :=
  (run (n.step parseMac) (.ok (), k) (events.map (fun e => (e, {})))).2

variable {parseMac} {n : VxlanNetwork} {k : Kernel} {p : Ipv4Network → Bool} {w : LeaseWatcher} {own : Ipv4Network}
variable {s : Ipv4Network} {e : LeaseWatchEvent} {events more : List LeaseWatchEvent}

theorem stoppedStays {stop : Stop} {actions : List (LeaseWatchEvent × VxlanCalls)} :
    run (n.step parseMac) (.error stop, k) actions = (.error stop, k) := by
  induction actions with
  | nil => rfl
  | cons a rest ih => exact ih

theorem kernelHandled : vxlanKernel parseMac n k events = vxlanKernel parseMac n k (handledEvents parseMac events) := by
  unfold vxlanKernel
  induction events generalizing k with
  | nil => rfl
  | cons e rest ih =>
    by_cases wf : WellFormedVtep parseMac e
    · obtain ⟨k', handled, _⟩ := @handleAnnounced parseMac n e k wf
      have kept : handledEvents parseMac (e :: rest) = e :: handledEvents parseMac rest :=
        List.takeWhile_cons_of_pos (by simpa using wf)
      rw [kept, List.map_cons, List.map_cons, runCons, runCons, VxlanNetwork.step, handled]
      exact ih
    · have cut : handledEvents parseMac (e :: rest) = [] := List.takeWhile_cons_of_neg (by simpa using wf)
      have failed : ∃ stop, n.handle parseMac e {} k = (.error stop, k) := by
        unfold VxlanNetwork.handle
        cases read : vtepMac parseMac e.lease.attrs with
        | error stop => exact ⟨stop, rfl⟩
        | ok mac => exact absurd ⟨mac, read⟩ wf
      obtain ⟨stop, failed⟩ := failed
      rw [cut, List.map_cons, runCons, VxlanNetwork.step, failed, stoppedStays]
      rfl

/- The route of a subnet looked at depends on the events about those subnets alone. -/
theorem announcedAbout {m : Option Ipv4Network → Option Route} (looked : p s = true) :
    replay m ((events.filterMap (announcement parseMac)).map (Announcement.routeChange n)) (some s) =
      replay m (((about p events).filterMap (announcement parseMac)).map (Announcement.routeChange n)) (some s) := by
  induction events generalizing m with
  | nil => rfl
  | cons e rest ih =>
    cases found : announcement parseMac e with
    | none =>
      rw [List.filterMap_cons_none found, ih]
      cases inside : p e.lease.subnet <;> simp [about, inside, found]
    | some a =>
      have subnet : a.subnet = e.lease.subnet := by
        unfold announcement at found
        split at found
        · cases Option.some.inj found
          rfl
        · contradiction
      rw [List.filterMap_cons_some found, List.map_cons, replayCons, ih]
      cases inside : p e.lease.subnet with
      | true => simp [about, inside, found]
      | false =>
        have apart : (some s : Option Ipv4Network) ≠ (a.routeChange n).key := by
          rintro same
          rw [Option.some.inj same, subnet, inside] at looked
          contradiction
        have dropped : about p (e :: rest) = about p rest := List.filter_cons_of_neg (by simp [inside])
        rw [dropped]
        exact replayCongrAt (by rw [applyAt, if_neg apart])

theorem routeAbout (looked : p s = true)
    (same : about p (handledEvents parseMac events) = about p (handledEvents parseMac more)) :
    (vxlanKernel parseMac n k events).routes.route (some s) = (vxlanKernel parseMac n k more).routes.route (some s) := by
  have wf : ∀ es, ∀ e ∈ handledEvents parseMac es, WellFormedVtep parseMac e := fun es e mem => by
    simpa using List.mem_takeWhile_imp mem
  rw [kernelHandled, @kernelHandled parseMac n k more]
  obtain ⟨k₁, ran₁, first⟩ := @runAnnounced parseMac n k _ (wf events)
  obtain ⟨k₂, ran₂, last⟩ := @runAnnounced parseMac n k _ (wf more)
  unfold vxlanKernel
  rw [ran₁, ran₂, first.routes, last.routes, announcedAbout looked, same, ← announcedAbout looked]

/- Apart from that of the own subnet, no lease is held whose VTEP cannot be read. -/
def HoldsReadable (parseMac : String → Option MacAddr6) (w : LeaseWatcher) : Prop :=
  ∀ s l, s ≠ w.ownLease.subnet → Keyed.lookup Lease.subnet s w.leases = some l → WellFormedVtep parseMac ⟨l, .put⟩

/- The backend passes over the own subnet, which is never emitted. -/
def passes (parseMac : String → Option MacAddr6) (own : Ipv4Network) (e : LeaseWatchEvent) : Bool :=
  decide (e.lease.subnet = own) || decide (WellFormedVtep parseMac e)

theorem subjectReadable (held : HoldsReadable parseMac w) (other : e.lease.subnet ≠ w.ownLease.subnet)
    (wf : WellFormedVtep parseMac e) : WellFormedVtep parseMac ⟨w.subject e, e.eventType⟩ := by
  unfold LeaseWatcher.subject
  cases e.eventType with
  | put => exact wf
  | delete =>
    cases found : Keyed.lookup Lease.subnet e.lease.subnet w.leases with
    | none => exact wf
    | some l => exact held _ l other found

theorem holdsStep (distinct : Keyed.Distinct Lease.subnet w.leases) (held : HoldsReadable parseMac w)
    (wf : WellFormedVtep parseMac e) : HoldsReadable parseMac (w.updateOne e).2 := by
  intro s l other found
  rw [LeaseWatcher.updateOneOwner] at other
  rw [LeaseWatcher.updateOneLookup distinct] at found
  split at found
  · exact held s l other found
  · split at found
    · cases Option.some.inj found
      exact wf
    · contradiction

/- Up to the first put of an unreadable VTEP, nothing emitted stops the loop. -/
theorem updateDropped (distinct : Keyed.Distinct Lease.subnet w.leases) (held : HoldsReadable parseMac w)
    (stored : ∀ e ∈ events, FromStore e) : ∃ w' : LeaseWatcher, w'.ownLease = w.ownLease ∧
      (w.update events).1.dropWhile (fun e => decide (WellFormedVtep parseMac e)) =
        (w'.update (events.dropWhile (passes parseMac w.ownLease.subnet))).1 := by
  induction events generalizing w with
  | nil => exact ⟨w, rfl, rfl⟩
  | cons e rest ih =>
    have later := fun e' mem => stored e' (List.mem_cons_of_mem e mem)
    have distinct' := LeaseWatcher.updateOneDistinct (e := e) distinct
    by_cases mine : e.lease.subnet = w.ownLease.subnet
    · have silent : w.updateOne e = ([], w) := if_pos mine
      obtain ⟨w', owner, dropped⟩ := ih distinct held later
      refine ⟨w', owner, ?_⟩
      rw [List.dropWhile_cons_of_pos (by simp [passes, mine]), ← dropped]
      simp [LeaseWatcher.update, silent]
    · by_cases wf : WellFormedVtep parseMac e
      · obtain ⟨w', owner, dropped⟩ := ih distinct' (holdsStep distinct held wf) later
        rw [LeaseWatcher.updateOneOwner] at owner dropped
        refine ⟨w', owner, ?_⟩
        rw [List.dropWhile_cons_of_pos (by simp [passes, wf]), ← dropped]
        simp [LeaseWatcher.update, LeaseWatcher.updateOneSays, mine, subjectReadable held mine wf]
      · -- a put, since the store's deletes carry no backend data; from here on all is kept
        have put : e.eventType = .put := by
          cases type : e.eventType with
          | put => rfl
          | delete =>
            refine absurd ⟨none, ?_⟩ wf
            rw [stored e List.mem_cons_self type]
            rfl
        refine ⟨w, rfl, ?_⟩
        have first : (w.updateOne e).1 = [e] := by
          rw [LeaseWatcher.updateOneSays, if_neg mine, LeaseWatcher.subject, put]
          cases e
          exact congrArg (fun type => [LeaseWatchEvent.mk _ type]) put.symm
        rw [List.dropWhile_cons_of_neg (by simp [passes, mine, wf])]
        simp [LeaseWatcher.update, first, wf]

theorem updateSubnets : (w.update events).1.map (fun e => e.lease.subnet) =
    (events.filter (fun e => decide (e.lease.subnet ≠ w.ownLease.subnet))).map (fun e => e.lease.subnet) := by
  have keys := congrArg (List.map Change.key) (@LeaseWatcher.updateEmits w events)
  simpa [LeaseWatcher.others, Function.comp_def, changeKey] using keys

theorem aboutNothing (mine : p w.ownLease.subnet = false) :
    about p (w.update events).1 = [] ↔ ∀ e ∈ events, p e.lease.subnet = false := by
  have subnets := @updateSubnets w events
  constructor
  · intro none_ e mem
    by_cases own : e.lease.subnet = w.ownLease.subnet
    · rw [own, mine]
    · have kept : e ∈ events.filter (fun e => decide (e.lease.subnet ≠ w.ownLease.subnet)) :=
        List.mem_filter.mpr ⟨mem, by simpa using own⟩
      have named : e.lease.subnet ∈ (w.update events).1.map (fun e => e.lease.subnet) := by
        rw [subnets]
        exact List.mem_map_of_mem kept
      obtain ⟨e', emitted, same⟩ := List.mem_map.mp named
      rw [← same]
      exact Bool.eq_false_of_not_eq_true (List.filter_eq_nil_iff.mp none_ e' emitted)
  · intro all
    refine List.filter_eq_nil_iff.mpr fun e' emitted => ?_
    have named := List.mem_map_of_mem (f := fun e => e.lease.subnet) emitted
    rw [subnets] at named
    obtain ⟨e, mem, same⟩ := List.mem_map.mp named
    change ¬p e'.lease.subnet = true
    rw [← same, all e (List.mem_of_mem_filter mem)]
    exact Bool.false_ne_true

end Vxlan

end FlannelNg
