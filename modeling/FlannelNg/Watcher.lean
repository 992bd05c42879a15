import FlannelNg.Lease
import FlannelNg.Lib.Replay
import FlannelNg.Lib.Runs

/-! The lease watcher: the leases it holds, the events it emits for a snapshot or for
watch events, and the loop that feeds it. Its events are changes of a map from
subnets to attributes. -/
namespace FlannelNg
open Cidr Replay

abbrev View := Ipv4Network → Option LeaseAttrs

def unknown : View := fun _ => none

structure LeaseWatcher where
  ownLease : Lease
  leases : List Lease
  deriving DecidableEq, Repr

namespace LeaseWatcher

/- The loop over the new leases; those already held are taken out of the old list. -/
def resetLoop (own : Ipv4Network) :
    (new old : List Lease) → List LeaseWatchEvent → List LeaseWatchEvent × List Lease
  | [], old, batch => (batch, old)
  | nl :: rest, old, batch =>
    if nl.subnet = own then resetLoop own rest old batch
    else match Keyed.lookup Lease.subnet nl.subnet old with
      | none => resetLoop own rest old (batch ++ [⟨nl, .put⟩])
      | some _ => resetLoop own rest (Keyed.remove Lease.subnet nl.subnet old) batch

def reset (w : LeaseWatcher) (leases : List Lease) : List LeaseWatchEvent × LeaseWatcher :=
  let (batch, old) := resetLoop w.ownLease.subnet leases w.leases []
  (batch ++ old.map (fun it => ⟨it, .delete⟩), { w with leases })

def add (w : LeaseWatcher) (lease : Lease) : LeaseWatchEvent × LeaseWatcher :=
  (⟨lease, .put⟩, { w with leases := Keyed.upsert Lease.subnet lease w.leases })

def remove (w : LeaseWatcher) (lease : Lease) : LeaseWatchEvent × LeaseWatcher :=
  match Keyed.lookup Lease.subnet lease.subnet w.leases with
  | some old => (⟨old, .delete⟩, { w with leases := Keyed.remove Lease.subnet lease.subnet w.leases })
  | none => (⟨lease, .delete⟩, w)

def updateOne (w : LeaseWatcher) (e : LeaseWatchEvent) : List LeaseWatchEvent × LeaseWatcher :=
  if e.lease.subnet = w.ownLease.subnet then ([], w)
  else match e.eventType with
    | .put => let (out, w) := w.add e.lease; ([out], w)
    | .delete => let (out, w) := w.remove e.lease; ([out], w)

def update : LeaseWatcher → List LeaseWatchEvent → List LeaseWatchEvent × LeaseWatcher
  | w, [] => ([], w)
  | w, e :: rest =>
    let (out, w) := w.updateOne e
    let (batch, w) := update w rest
    (out ++ batch, w)

end LeaseWatcher

structure Watch where
  watcher : LeaseWatcher
  sent : List (List LeaseWatchEvent)
  deriving DecidableEq, Repr

namespace Watch

def start (ownLease : Lease) : Watch := ⟨⟨ownLease, []⟩, []⟩

def batchOf (w : LeaseWatcher) (wr : LeaseWatchResult) : List LeaseWatchEvent × LeaseWatcher :=
  if !wr.events.isEmpty then w.update wr.events
  else if !wr.snapshot.isEmpty then w.reset wr.snapshot
  else ([], w)

/- An empty batch is not sent. -/
def handle (s : Watch) (wr : LeaseWatchResult) : Watch :=
  let (batch, watcher) := batchOf s.watcher wr
  { watcher, sent := if batch.isEmpty then s.sent else s.sent ++ [batch] }

def emitted (s : Watch) : List LeaseWatchEvent := s.sent.flatten

end Watch

theorem handleWatcher {s : Watch} {wr : LeaseWatchResult} :
    (s.handle wr).watcher = (Watch.batchOf s.watcher wr).2 := rfl

theorem handleEmitted {s : Watch} {wr : LeaseWatchResult} :
    (s.handle wr).emitted = s.emitted ++ (Watch.batchOf s.watcher wr).1 := by
  simp only [Watch.handle, Watch.emitted]
  split
  · rename_i empty
    rw [List.isEmpty_iff.mp empty, List.append_nil]
  · simp

def LeaseWatchEvent.change (e : LeaseWatchEvent) : Change Ipv4Network LeaseAttrs :=
  match e.eventType with
  | .put => .put e.lease.subnet e.lease.attrs
  | .delete => .delete e.lease.subnet

/- The attributes that a list of leases gives to a subnet. -/
def held (leases : List Lease) : View := fun s => (Keyed.lookup Lease.subnet s leases).map Lease.attrs

variable {w w' : LeaseWatcher} {s : Ipv4Network} {own : Ipv4Network} {new old : List Lease}
variable {batch : List LeaseWatchEvent} {e : LeaseWatchEvent} {events : List LeaseWatchEvent} {wr : LeaseWatchResult}

theorem changeKey (e : LeaseWatchEvent) : e.change.key = e.lease.subnet := by
  unfold LeaseWatchEvent.change
  split <;> rfl

theorem valueOfPut (put : e.eventType = .put) : e.change.value = some e.lease.attrs := by
  rw [LeaseWatchEvent.change, put]
  rfl

theorem valueOfDelete (delete : e.eventType = .delete) : e.change.value = none := by
  rw [LeaseWatchEvent.change, delete]
  rfl

theorem heldNone {leases : List Lease} : held leases s = none ↔ Keyed.lookup Lease.subnet s leases = none := by
  simp [held]

namespace LeaseWatcher

theorem resetLoopSpec (distinct : Keyed.Distinct Lease.subnet old) (fresh : Keyed.Distinct Lease.subnet new) :
    resetLoop own new old batch =
      (batch ++ (new.filter (fun nl => decide (nl.subnet ≠ own) && (Keyed.lookup Lease.subnet nl.subnet old).isNone)).map
          (fun nl => ⟨nl, .put⟩),
        old.filter (fun ol => decide (ol.subnet = own) || (Keyed.lookup Lease.subnet ol.subnet new).isNone)) := by
  induction new generalizing old batch with
  | nil => simp [resetLoop]
  | cons nl rest ih =>
    obtain ⟨absent, fresh⟩ := List.nodup_cons.mp (by simpa [Keyed.Distinct] using fresh :
      (nl.subnet :: rest.map Lease.subnet).Nodup)
    have others : ∀ x ∈ rest, x.subnet ≠ nl.subnet := fun x mem same =>
      absent (by rw [← same]; exact List.mem_map_of_mem mem)
    unfold resetLoop
    by_cases mine : nl.subnet = own
    · rw [if_pos mine, ih distinct fresh]
      rw [List.filter_cons_of_neg (by simp [mine])]
      congr 1
      refine List.filter_congr fun ol _ => ?_
      by_cases same : ol.subnet = own
      · simp [same]
      · simp [Keyed.lookupCons, mine, Ne.symm same]
    · rw [if_neg mine]
      cases found : Keyed.lookup Lease.subnet nl.subnet old with
      | none =>
        rw [ih distinct fresh, List.filter_cons_of_pos (by simp [mine, found])]
        simp only [List.append_assoc, List.map_cons, List.singleton_append]
        congr 1
        refine List.filter_congr fun ol mem => ?_
        have differ : ol.subnet ≠ nl.subnet := Keyed.lookupNone.mp found ol mem
        simp [Keyed.lookupCons, Ne.symm differ]
      | some ol =>
        change resetLoop own rest (Keyed.remove Lease.subnet nl.subnet old) batch = _
        rw [ih (Keyed.distinctRemove distinct) fresh, List.filter_cons_of_neg (by simp [found]),
          Keyed.removeFilter distinct, List.filter_filter]
        congr 1
        · congr 2
          refine List.filter_congr fun x mem => ?_
          rw [← Keyed.removeFilter distinct, Keyed.lookupRemove distinct, if_neg (others x mem)]
        · refine List.filter_congr fun x _ => ?_
          by_cases same : x.subnet = nl.subnet
          · simp [same, mine, Keyed.lookupCons]
          · simp [same, Ne.symm same, Keyed.lookupCons]

theorem resetEmits (distinct : Keyed.Distinct Lease.subnet w.leases) (fresh : Keyed.Distinct Lease.subnet new) :
    (w.reset new).1.map LeaseWatchEvent.change =
      (new.filter (fun nl => decide (nl.subnet ≠ w.ownLease.subnet) &&
        (Keyed.lookup Lease.subnet nl.subnet w.leases).isNone)).map (fun nl => .put nl.subnet nl.attrs) ++
      (w.leases.filter (fun ol => decide (ol.subnet = w.ownLease.subnet) ||
        (Keyed.lookup Lease.subnet ol.subnet new).isNone)).map (fun ol => .delete ol.subnet) := by
  simp only [reset, resetLoopSpec distinct fresh, List.nil_append, List.map_append, List.map_map]
  rfl

theorem resetReplay (distinct : Keyed.Distinct Lease.subnet w.leases) (fresh : Keyed.Distinct Lease.subnet new)
    (m : View) (s : Ipv4Network) : replay m ((w.reset new).1.map LeaseWatchEvent.change) s =
      if (s = w.ownLease.subnet ∨ held new s = none) ∧ held w.leases s ≠ none then none
      else if s ≠ w.ownLease.subnet ∧ held w.leases s = none then (held new s).or (m s) else m s := by
  rw [resetEmits distinct fresh, replayAppend, replayDeletes, replayPuts (Keyed.distinctSublist fresh List.filter_sublist),
    Keyed.lookupFilter (p := fun k => decide (k = w.ownLease.subnet) || (Keyed.lookup Lease.subnet k new).isNone),
    Keyed.lookupFilter (p := fun k => decide (k ≠ w.ownLease.subnet) && (Keyed.lookup Lease.subnet k w.leases).isNone)]
  unfold held
  cases Keyed.lookup Lease.subnet s w.leases <;> cases Keyed.lookup Lease.subnet s new <;>
    by_cases mine : s = w.ownLease.subnet <;> simp [mine]

theorem resetAt (distinct : Keyed.Distinct Lease.subnet w.leases) (fresh : Keyed.Distinct Lease.subnet new)
    {m : View} (other : s ≠ w.ownLease.subnet) (same : m s = held w.leases s) :
    replay m ((w.reset new).1.map LeaseWatchEvent.change) s =
      (held new s).map (fun attrs => (held w.leases s).getD attrs) := by
  rw [resetReplay distinct fresh, same]
  cases held w.leases s <;> cases held new s <;> simp [other]

theorem resetOwn (distinct : Keyed.Distinct Lease.subnet w.leases) (fresh : Keyed.Distinct Lease.subnet new)
    {m : View} (none : m w.ownLease.subnet = none) :
    replay m ((w.reset new).1.map LeaseWatchEvent.change) w.ownLease.subnet = Option.none := by
  rw [resetReplay distinct fresh, none]
  simp

/- The lease that an emitted event is about: for a delete the one held, if there is one. -/
def subject (w : LeaseWatcher) (e : LeaseWatchEvent) : Lease :=
  match e.eventType with
  | .put => e.lease
  | .delete => (Keyed.lookup Lease.subnet e.lease.subnet w.leases).getD e.lease

theorem updateOneSays : (w.updateOne e).1 =
    if e.lease.subnet = w.ownLease.subnet then [] else [⟨w.subject e, e.eventType⟩] := by
  unfold updateOne subject
  split
  · rfl
  · cases e.eventType with
    | put => rfl
    | delete =>
      unfold remove
      dsimp only
      split
      · rename_i old found
        rw [found, Option.getD_some]
      · rename_i absent
        rw [absent, Option.getD_none]

theorem subjectSubnet : (w.subject e).subnet = e.lease.subnet := by
  unfold subject
  cases e.eventType with
  | put => rfl
  | delete =>
    cases found : Keyed.lookup Lease.subnet e.lease.subnet w.leases with
    | none => rfl
    | some old => exact (Keyed.lookupSome found).2

theorem updateOneLookup (distinct : Keyed.Distinct Lease.subnet w.leases) (s : Ipv4Network) :
    Keyed.lookup Lease.subnet s (w.updateOne e).2.leases =
      if e.lease.subnet = w.ownLease.subnet ∨ e.lease.subnet ≠ s then Keyed.lookup Lease.subnet s w.leases
      else match e.eventType with
        | .put => some e.lease
        | .delete => none := by
  unfold updateOne
  split
  · rename_i mine
    rw [if_pos (.inl mine)]
  · rename_i other
    cases e.eventType with
    | put =>
      simp only [add, Keyed.lookupUpsert, other, false_or]
      by_cases same : e.lease.subnet = s <;> simp [same]
    | delete =>
      unfold remove
      dsimp only
      split
      · simp only [Keyed.lookupRemove distinct, other, false_or, eq_comm (a := s)]
        by_cases same : e.lease.subnet = s <;> simp [same]
      · rename_i absent
        by_cases same : e.lease.subnet = s
        · rw [if_neg (by rintro (mine | apart) <;> contradiction), ← same, absent]
        · rw [if_pos (.inr same)]

theorem updateOneOwner : (w.updateOne e).2.ownLease = w.ownLease := by
  unfold updateOne
  split
  · rfl
  · split
    · rfl
    · unfold remove
      dsimp only
      split <;> rfl

theorem updateOneEmits : (w.updateOne e).1.map LeaseWatchEvent.change =
    if e.lease.subnet = w.ownLease.subnet then [] else [e.change] := by
  rw [updateOneSays]
  split
  · rfl
  · have change : LeaseWatchEvent.change ⟨w.subject e, e.eventType⟩ = e.change := by
      unfold LeaseWatchEvent.change
      cases type : e.eventType with
      | put => simp [subject, type]
      | delete => exact congrArg Change.delete subjectSubnet
    rw [List.map_singleton, change]

theorem updateOneDistinct (distinct : Keyed.Distinct Lease.subnet w.leases) :
    Keyed.Distinct Lease.subnet (w.updateOne e).2.leases := by
  unfold updateOne
  split
  · exact distinct
  · split
    · exact Keyed.distinctUpsert distinct
    · unfold remove
      dsimp only
      split
      · exact Keyed.distinctRemove distinct
      · exact distinct

theorem updateOneHeld (distinct : Keyed.Distinct Lease.subnet w.leases) : held (w.updateOne e).2.leases =
    if e.lease.subnet = w.ownLease.subnet then held w.leases else apply (held w.leases) e.change := by
  funext s
  rw [held, updateOneLookup distinct]
  by_cases mine : e.lease.subnet = w.ownLease.subnet
  · rw [if_pos (.inl mine), if_pos mine, held]
  · rw [if_neg mine, applyAt, changeKey]
    by_cases same : s = e.lease.subnet
    · rw [if_pos same, if_neg (by simp [mine, same])]
      unfold LeaseWatchEvent.change
      cases e.eventType <;> rfl
    · rw [if_neg same, if_pos (.inr (Ne.symm same)), held]

/- The events of other subnets. -/
def others (own : Ipv4Network) (events : List LeaseWatchEvent) : List (Change Ipv4Network LeaseAttrs) :=
  (events.filter (fun e => decide (e.lease.subnet ≠ own))).map LeaseWatchEvent.change

theorem updateOwner : (w.update events).2.ownLease = w.ownLease := by
  induction events generalizing w with
  | nil => rfl
  | cons e rest ih => exact ih.trans updateOneOwner

theorem updateEmits : (w.update events).1.map LeaseWatchEvent.change = others w.ownLease.subnet events := by
  induction events generalizing w with
  | nil => rfl
  | cons e rest ih =>
    simp only [update, List.map_append, updateOneEmits, ih, updateOneOwner, others, List.filter_cons]
    by_cases mine : e.lease.subnet = w.ownLease.subnet <;> simp [mine]

theorem updateHeld (distinct : Keyed.Distinct Lease.subnet w.leases) :
    Keyed.Distinct Lease.subnet (w.update events).2.leases ∧
      held (w.update events).2.leases = replay (held w.leases) (others w.ownLease.subnet events) := by
  induction events generalizing w with
  | nil => exact ⟨distinct, rfl⟩
  | cons e rest ih =>
    obtain ⟨distinct', rest⟩ := ih (updateOneDistinct distinct)
    refine ⟨distinct', rest.trans ?_⟩
    rw [updateOneHeld distinct, updateOneOwner]
    by_cases mine : e.lease.subnet = w.ownLease.subnet <;> simp [others, mine]

theorem othersAt {m : View} (other : s ≠ own) :
    replay m (events.map LeaseWatchEvent.change) s = replay m (others own events) s := by
  induction events generalizing m with
  | nil => rfl
  | cons e rest ih =>
    by_cases mine : e.lease.subnet = own
    · have skip : others own (e :: rest) = others own rest := by simp [others, mine]
      rw [skip, List.map_cons, replayCons, ih]
      refine replayCongrAt ?_
      rw [applyAt, changeKey, if_neg (by rw [mine]; exact other)]
    · have keep : others own (e :: rest) = e.change :: others own rest := by simp [others, mine]
      rw [keep, List.map_cons, replayCons, replayCons, ih]

theorem othersOwn {m : View} : replay m (others own events) own = m own := by
  refine replayUntouched ?_
  intro c member
  obtain ⟨e, mem, rfl⟩ := List.mem_map.mp member
  rw [changeKey]
  simpa using (List.mem_filter.mp mem).2

end LeaseWatcher
end FlannelNg
