import FlannelNg.Watcher

/-! The events that reach a backend in one run of the watcher: a reset from empty and
then updates. They are the changes of the subnets of other nodes, and each delete
carries the attributes of the lease that it deletes. -/
namespace FlannelNg
open Cidr Replay Runs

namespace LeaseWatcher

def updates : LeaseWatcher → List (List LeaseWatchEvent) → List LeaseWatchEvent × LeaseWatcher
  | w, [] => ([], w)
  | w, events :: rest =>
    let (batch, w) := w.update events
    let (later, w) := updates w rest
    (batch ++ later, w)

/- What a new watcher emits for a snapshot and the batches of events after it. -/
def emits (ownLease : Lease) (snapshot : List Lease) (batches : List (List LeaseWatchEvent)) : List LeaseWatchEvent :=
  let (batch, w) := reset ⟨ownLease, []⟩ snapshot
  batch ++ (w.updates batches).1

end LeaseWatcher

/- The attributes of the live leases of the other nodes, after a snapshot and events. -/
def live (ownLease : Lease) (snapshot : List Lease) (batches : List (List LeaseWatchEvent)) : View :=
  Function.update (replay (held snapshot) (batches.flatten.map LeaseWatchEvent.change)) ownLease.subnet none

def learn (v : View) (e : LeaseWatchEvent) : View := apply v e.change

/- The store knows of a deleted entry nothing but its key. -/
def FromStore (e : LeaseWatchEvent) : Prop := e.eventType = .delete → e.lease.attrs = {}

instance (e) : Decidable (FromStore e) := by unfold FromStore; infer_instance

/- A delete names the attributes known of its subnet, or none where nothing is known. -/
def NamesKnown (v : View) (e : LeaseWatchEvent) : Prop :=
  e.eventType = .delete → e.lease.attrs = (v e.lease.subnet).getD {}

variable {w : LeaseWatcher} {own : Lease} {snapshot : List Lease} {events more : List LeaseWatchEvent}
variable {batches : List (List LeaseWatchEvent)} {v : View} {e : LeaseWatchEvent} {s : Ipv4Network}

theorem learnRun : run learn v events = replay v (events.map LeaseWatchEvent.change) := by
  induction events generalizing v with
  | nil => rfl
  | cons e rest ih => exact ih

theorem learnOther (other : s ≠ e.lease.subnet) : learn v e s = v s := by
  rw [learn, applyAt, changeKey, if_neg other]

theorem learnPut (put : e.eventType = .put) : learn v e e.lease.subnet = some e.lease.attrs := by
  rw [learn, applyAt, changeKey, if_pos rfl, valueOfPut put]

theorem learnDelete (delete : e.eventType = .delete) : learn v e e.lease.subnet = none := by
  rw [learn, applyAt, changeKey, if_pos rfl, valueOfDelete delete]

theorem liveMember {attrs : LeaseAttrs} (present : live own snapshot batches s = some attrs) :
    s ∈ snapshot.map Lease.subnet ++ batches.flatten.map (fun e => e.lease.subnet) := by
  have other : s ≠ own.subnet := by
    rintro rfl
    simp [live] at present
  rw [live, Function.update_of_ne other, replayAt] at present
  rw [List.mem_append]
  cases last : latest s (batches.flatten.map LeaseWatchEvent.change) with
  | none =>
    rw [last] at present
    obtain ⟨l, found, _⟩ := Option.map_eq_some_iff.mp present
    exact .inl (Keyed.keyMem.mpr ⟨l, found⟩)
  | some c =>
    obtain ⟨same, member⟩ := latestKey last
    obtain ⟨e, mem, rfl⟩ := List.mem_map.mp member
    rw [changeKey] at same
    exact .inr (same ▸ List.mem_map.mpr ⟨e, mem, rfl⟩)

namespace LeaseWatcher

theorem updateAppend : w.update (events ++ more) =
    ((w.update events).1 ++ ((w.update events).2.update more).1, ((w.update events).2.update more).2) := by
  induction events generalizing w with
  | nil => rfl
  | cons e rest ih => simp only [List.cons_append, update, ih, List.append_assoc]

theorem updatesFlatten : w.updates batches = w.update batches.flatten := by
  induction batches generalizing w with
  | nil => rfl
  | cons events rest ih => simp only [updates, List.flatten_cons, updateAppend, ih]

theorem handledUpdates {t : Watch} : (run Watch.handle t (batches.map (fun events => { events }))).emitted =
    t.emitted ++ (t.watcher.updates batches).1 := by
  induction batches generalizing t with
  | nil => exact (List.append_nil _).symm
  | cons events rest ih =>
    have one : Watch.batchOf t.watcher { events } = t.watcher.update events := by
      cases events <;> rfl
    rw [List.map_cons, runCons, ih, handleEmitted, handleWatcher, one, List.append_assoc]
    rfl

theorem emitsHandled : emits own snapshot batches =
    (run Watch.handle (Watch.start own) ({ snapshot } :: batches.map (fun events => { events }))).emitted := by
  have first : Watch.batchOf (Watch.start own).watcher { snapshot } = reset ⟨own, []⟩ snapshot := by
    cases snapshot <;> rfl
  rw [runCons, handledUpdates, handleEmitted, handleWatcher, first]
  rfl

theorem resetFirst (fresh : Keyed.Distinct Lease.subnet snapshot) : reset ⟨own, []⟩ snapshot =
    ((snapshot.filter (fun nl => decide (nl.subnet ≠ own.subnet))).map (fun nl => ⟨nl, .put⟩), ⟨own, snapshot⟩) := by
  simp [reset, @resetLoopSpec own.subnet snapshot [] [] List.nodup_nil fresh]

theorem emitsParts (fresh : Keyed.Distinct Lease.subnet snapshot) : emits own snapshot batches =
    (snapshot.filter (fun nl => decide (nl.subnet ≠ own.subnet))).map (fun nl => ⟨nl, .put⟩) ++
      (update ⟨own, snapshot⟩ batches.flatten).1 := by
  simp only [emits, resetFirst fresh, updatesFlatten]

theorem firstReplay (fresh : Keyed.Distinct Lease.subnet snapshot) :
    replay unknown (((snapshot.filter (fun nl => decide (nl.subnet ≠ own.subnet))).map
      (fun nl => ⟨nl, .put⟩)).map LeaseWatchEvent.change) = Function.update (held snapshot) own.subnet none := by
  funext s
  rw [List.map_map, show LeaseWatchEvent.change ∘ (fun nl => ⟨nl, .put⟩) = fun nl => .put nl.subnet nl.attrs from rfl,
    replayPuts (Keyed.distinctSublist fresh List.filter_sublist),
    Keyed.lookupFilter (p := fun k => decide (k ≠ own.subnet))]
  by_cases mine : s = own.subnet <;> simp [mine, unknown, held]

theorem emitsReplay (fresh : Keyed.Distinct Lease.subnet snapshot) :
    replay unknown ((emits own snapshot batches).map LeaseWatchEvent.change) = live own snapshot batches := by
  rw [emitsParts fresh, List.map_append, replayAppend, firstReplay fresh, updateEmits]
  funext s
  by_cases mine : s = own.subnet
  · rw [mine, othersOwn, live, Function.update_self, Function.update_self]
  · rw [live, Function.update_of_ne mine, othersAt mine]
    exact replayCongrAt (Function.update_of_ne mine _ _)

theorem updateOneNames (known : e.lease.subnet ≠ w.ownLease.subnet → v e.lease.subnet = held w.leases e.lease.subnet)
    (stored : FromStore e) : Along learn NamesKnown v (w.updateOne e).1 := by
  rw [updateOneSays]
  split
  · trivial
  · rename_i other
    refine ⟨fun (delete : e.eventType = .delete) => ?_, trivial⟩
    rw [subjectSubnet, known other, held, subject, delete]
    cases Keyed.lookup Lease.subnet e.lease.subnet w.leases with
    | none => exact stored delete
    | some old => rfl

theorem updateNames (distinct : Keyed.Distinct Lease.subnet w.leases)
    (agrees : ∀ s ≠ w.ownLease.subnet, v s = held w.leases s) (stored : ∀ e ∈ events, FromStore e) :
    Along learn NamesKnown v (w.update events).1 := by
  induction events generalizing w v with
  | nil => trivial
  | cons e rest ih =>
    rw [update, alongAppend]
    refine ⟨updateOneNames (agrees _) (stored e List.mem_cons_self), ih (updateOneDistinct distinct) ?_ ?_⟩
    · intro s other
      rw [updateOneOwner] at other
      rw [learnRun, updateOneEmits, updateOneHeld distinct]
      split
      · exact agrees s other
      · exact @replayCongrAt _ _ _ _ _ s [e.change] (agrees s other)
    · exact fun e member => stored e (List.mem_cons_of_mem _ member)

theorem deletesNameKnown (fresh : Keyed.Distinct Lease.subnet snapshot)
    (stored : ∀ events ∈ batches, ∀ e ∈ events, FromStore e) :
    Along learn NamesKnown unknown (emits own snapshot batches) := by
  rw [emitsParts fresh, alongAppend]
  constructor
  · refine alongMono (fun _ e (put : e.eventType = .put) delete => ?_) (alongOfMem fun e member => ?_)
    · rw [put] at delete
      contradiction
    · obtain ⟨nl, _, rfl⟩ := List.mem_map.mp member
      rfl
  · refine updateNames fresh ?_ ?_
    · intro s other
      rw [learnRun, firstReplay fresh, Function.update_of_ne other]
    · intro e member
      obtain ⟨events, mem, member⟩ := List.mem_flatten.mp member
      exact stored events mem e member

end LeaseWatcher
end FlannelNg
