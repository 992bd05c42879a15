import FlannelNg.Emitted

/-! What a backend needs to undo a put: the delete that the watcher emits for a subnet is
about the very lease of the last put. The store's delete events carry no attributes, so
this rests on the leases that the watcher holds. -/
namespace FlannelNg
open Cidr Replay Runs

def LeaseWatchEvent.leaseChange (e : LeaseWatchEvent) : Change Ipv4Network Lease :=
  match e.eventType with
  | .put => .put e.lease.subnet e.lease
  | .delete => .delete e.lease.subnet

/- The leases of the last puts, as far as no delete came after. -/
abbrev Applied := Ipv4Network → Option Lease

def undertake (m : Applied) (e : LeaseWatchEvent) : Applied := apply m e.leaseChange

/- A delete of a subnet is about the lease applied. -/
def CarriesApplied (m : Applied) (e : LeaseWatchEvent) : Prop :=
  e.eventType = .delete → ∀ lease, m e.lease.subnet = some lease → e.lease = lease

/- The last emitted event of a subnet. -/
def lastOf (s : Ipv4Network) (events : List LeaseWatchEvent) : Option LeaseWatchEvent :=
  events.reverse.find? (fun e => e.lease.subnet = s)

def lookupIn (leases : List Lease) : Applied := fun s => Keyed.lookup Lease.subnet s leases

variable {w : LeaseWatcher} {own : Lease} {snapshot : List Lease} {events : List LeaseWatchEvent}
variable {batches : List (List LeaseWatchEvent)} {m : Applied} {e : LeaseWatchEvent} {s : Ipv4Network}

theorem leaseChangeKey (e : LeaseWatchEvent) : e.leaseChange.key = e.lease.subnet := by
  unfold LeaseWatchEvent.leaseChange
  split <;> rfl

theorem undertakeRun : run undertake m events = replay m (events.map LeaseWatchEvent.leaseChange) := by
  induction events generalizing m with
  | nil => rfl
  | cons e rest ih => exact ih

theorem latestOfLast : latest s (events.map LeaseWatchEvent.leaseChange) = (lastOf s events).map LeaseWatchEvent.leaseChange := by
  rw [latest, lastOf, ← List.map_reverse, List.find?_map]
  simp only [Function.comp_def, leaseChangeKey]

theorem lastPutApplied {p : LeaseWatchEvent} (last : lastOf s events = some p) (put : p.eventType = .put) :
    run undertake m events s = some p.lease := by
  rw [undertakeRun, replayAt, latestOfLast, last]
  simp [LeaseWatchEvent.leaseChange, put, Change.value]

namespace LeaseWatcher

theorem updateOneCarries (held : e.lease.subnet ≠ w.ownLease.subnet → m e.lease.subnet = lookupIn w.leases e.lease.subnet) :
    Along undertake CarriesApplied m (w.updateOne e).1 := by
  rw [updateOneSays]
  split
  · trivial
  · rename_i other
    refine ⟨fun delete lease applied => ?_, trivial⟩
    change e.eventType = .delete at delete
    rw [subjectSubnet, held other, lookupIn] at applied
    simp only [subject, delete, applied, Option.getD_some]

theorem updateOneApplied (distinct : Keyed.Distinct Lease.subnet w.leases)
    (held : m s = lookupIn w.leases s) : run undertake m (w.updateOne e).1 s = lookupIn (w.updateOne e).2.leases s := by
  rw [updateOneSays, lookupIn, updateOneLookup distinct]
  by_cases mine : e.lease.subnet = w.ownLease.subnet
  · rw [if_pos mine, if_pos (.inl mine)]
    exact held
  · rw [if_neg mine, undertakeRun]
    simp only [List.map_cons, List.map_nil, replayCons, replayNil, applyAt, leaseChangeKey, subjectSubnet]
    by_cases same : e.lease.subnet = s
    · rw [if_pos same.symm, if_neg (by rintro (own | apart) <;> contradiction)]
      unfold LeaseWatchEvent.leaseChange subject
      cases e.eventType <;> rfl
    · rw [if_neg (Ne.symm same), if_pos (.inr same)]
      exact held

theorem updateCarries (distinct : Keyed.Distinct Lease.subnet w.leases)
    (held : ∀ s ≠ w.ownLease.subnet, m s = lookupIn w.leases s) : Along undertake CarriesApplied m (w.update events).1 := by
  induction events generalizing w m with
  | nil => trivial
  | cons e rest ih =>
    rw [update, alongAppend]
    refine ⟨updateOneCarries (held _), ih (updateOneDistinct distinct) fun s other => ?_⟩
    rw [updateOneOwner] at other
    exact updateOneApplied distinct (held s other)

theorem emitsCarry (fresh : Keyed.Distinct Lease.subnet snapshot) :
    Along undertake CarriesApplied (fun _ => none) (emits own snapshot batches) := by
  rw [emitsParts fresh, alongAppend]
  constructor
  · refine alongMono (fun _ e (put : e.eventType = .put) delete => ?_) (alongOfMem fun e member => ?_)
    · rw [put] at delete
      contradiction
    · obtain ⟨nl, _, rfl⟩ := List.mem_map.mp member
      rfl
  · refine updateCarries fresh fun s other => ?_
    rw [undertakeRun, List.map_map, show LeaseWatchEvent.leaseChange ∘ (fun nl => ⟨nl, .put⟩) =
      fun nl => .put nl.subnet nl from rfl, replayPuts (Keyed.distinctSublist fresh List.filter_sublist),
      Keyed.lookupFilter (p := fun k => decide (k ≠ own.subnet)), if_pos (by simpa using other)]
    simp [lookupIn]

end LeaseWatcher

theorem deletesCarryLease (own : Lease) (snapshot : List Lease) (batches : List (List LeaseWatchEvent))
    (fresh : Keyed.Distinct Lease.subnet snapshot) :
    ∀ pre e post,
      (run Watch.handle (Watch.start own) ({ snapshot } :: batches.map (fun events => { events }))).emitted =
        pre ++ e :: post →
      e.eventType = .delete → ∀ p, lastOf e.lease.subnet pre = some p → p.eventType = .put → e.lease = p.lease := by
  intro pre e post emitted delete p last put
  rw [← LeaseWatcher.emitsHandled] at emitted
  exact alongIff.mp (LeaseWatcher.emitsCarry fresh) pre e post emitted delete p.lease (lastPutApplied last put)

private def announced (ip publicIp : Ipv4Addr) : Lease := {
  Lease.default 0 with
  subnet := cidr ip 24
  attrs := { publicIp, backendType := some "vxlan" } }

private def withdrawn (ip : Ipv4Addr) : LeaseWatchEvent :=
  ⟨{ Lease.default 0 with enableIpv4 := true, subnet := cidr ip 24 }, .delete⟩

/- The second put of the subnet is the one that the delete carries. -/
theorem renewedLeaseDeleted :
    (run Watch.handle (Watch.start (announced 0x0A000100 1)) [{ snapshot := [announced 0x0A000200 2] },
      { events := [⟨announced 0x0A000200 3, .put⟩] }, { events := [withdrawn 0x0A000200] }]).emitted =
        [⟨announced 0x0A000200 2, .put⟩, ⟨announced 0x0A000200 3, .put⟩, ⟨announced 0x0A000200 3, .delete⟩] ∧
    ∀ p, lastOf (cidr 0x0A000200 24) [⟨announced 0x0A000200 2, .put⟩, ⟨announced 0x0A000200 3, .put⟩] = some p →
      p.eventType = .put → announced 0x0A000200 3 = p.lease := by
  refine ⟨by decide, fun p last put => ?_⟩
  exact deletesCarryLease (announced 0x0A000100 1) [announced 0x0A000200 2]
    [[⟨announced 0x0A000200 3, .put⟩], [withdrawn 0x0A000200]] (by decide)
    _ ⟨announced 0x0A000200 3, .delete⟩ [] (by decide) rfl p last put

end FlannelNg
