import FlannelNg.Watcher

/-! The events that the watcher emits against the information it receives. They replay
to that information as long as no snapshot changes the attributes of a subnet already
held and no empty snapshot arrives while other subnets are held: a reset does not
emit the new attributes, and an empty snapshot is dropped. -/
namespace FlannelNg
open Cidr Replay Runs

/- The most recent information: the last snapshot, updated by the later events. -/
def inform (v : View) (wr : LeaseWatchResult) : View :=
  if wr.events.isEmpty then held wr.snapshot else replay v (wr.events.map LeaseWatchEvent.change)

def Watch.known (s : Watch) : View := replay unknown (s.emitted.map LeaseWatchEvent.change)

def Matches (own : Lease) (s : Watch) (info : View) : Prop := s.known = Function.update info own.subnet none

/-- The result brings events, or a snapshot that keeps the attributes of the other
subnets held, or nothing at all while no other subnet is held. -/
def Steady (own : Lease) (s : Watch) (wr : LeaseWatchResult) : Prop :=
  if wr.events ≠ [] then True
  else if wr.snapshot ≠ [] then ∀ nl ∈ wr.snapshot, nl.subnet ≠ own.subnet →
    ∀ ol ∈ s.watcher.leases, ol.subnet = nl.subnet → ol.attrs = nl.attrs
  else ∀ ol ∈ s.watcher.leases, ol.subnet = own.subnet

instance (own s wr) : Decidable (Steady own s wr) := by
  unfold Steady
  infer_instance

section Step
variable {own : Lease} {s : Watch} {info : View} {wr : LeaseWatchResult}

/- The watcher holds the information, and the backend knows it. -/
structure InStep (own : Lease) (s : Watch) (info : View) : Prop where
  owner : s.watcher.ownLease = own
  distinct : Keyed.Distinct Lease.subnet s.watcher.leases
  knows : ∀ k ≠ own.subnet, s.known k = held s.watcher.leases k
  holds : ∀ k ≠ own.subnet, held s.watcher.leases k = info k
  silent : s.known own.subnet = none

theorem handleKnown : (s.handle wr).known =
    replay s.known ((Watch.batchOf s.watcher wr).1.map LeaseWatchEvent.change) := by
  rw [Watch.known, handleEmitted, List.map_append, replayAppend]
  rfl

theorem batchOfEvents (some : wr.events ≠ []) : Watch.batchOf s.watcher wr = s.watcher.update wr.events := by
  simp [Watch.batchOf, some]

theorem batchOfSnapshot (none : wr.events = []) (some : wr.snapshot ≠ []) :
    Watch.batchOf s.watcher wr = s.watcher.reset wr.snapshot := by
  simp [Watch.batchOf, none, some]

theorem batchOfNothing (none : wr.events = []) (nothing : wr.snapshot = []) :
    Watch.batchOf s.watcher wr = ([], s.watcher) := by
  simp [Watch.batchOf, none, nothing]

theorem informEvents (some : wr.events ≠ []) : inform info wr = replay info (wr.events.map LeaseWatchEvent.change) := by
  simp [inform, some]

theorem informSnapshot (none : wr.events = []) : inform info wr = held wr.snapshot := by
  simp [inform, none]

theorem matchesOfStep (step : InStep own s info) : Matches own s info := by
  funext k
  by_cases mine : k = own.subnet
  · rw [mine, step.silent, Function.update_self]
  · rw [step.knows k mine, step.holds k mine, Function.update_of_ne mine]

theorem keptAttrs {old new : List Lease} {k : Ipv4Network} :
    (held new k).map (fun attrs => (held old k).getD attrs) = held new k ↔ ∀ nl ol,
      Keyed.lookup Lease.subnet k new = some nl → Keyed.lookup Lease.subnet k old = some ol → ol.attrs = nl.attrs := by
  unfold held
  cases Keyed.lookup Lease.subnet k new <;> cases Keyed.lookup Lease.subnet k old <;> simp

theorem eventsInStep (some : wr.events ≠ []) (step : InStep own s info) :
    InStep own (s.handle wr) (inform info wr) := by
  have owner := step.owner
  obtain ⟨distinct, leases⟩ := @LeaseWatcher.updateHeld s.watcher wr.events step.distinct
  have known : (s.handle wr).known = replay s.known (LeaseWatcher.others own.subnet wr.events) := by
    rw [handleKnown, batchOfEvents some, LeaseWatcher.updateEmits, owner]
  rw [owner] at leases
  refine ⟨?_, ?_, ?_, ?_, ?_⟩
  · rw [handleWatcher, batchOfEvents some, LeaseWatcher.updateOwner, owner]
  · rw [handleWatcher, batchOfEvents some]
    exact distinct
  · intro k other
    rw [known, handleWatcher, batchOfEvents some, leases]
    exact replayCongrAt (step.knows k other)
  · intro k other
    rw [handleWatcher, batchOfEvents some, leases, informEvents some, LeaseWatcher.othersAt other]
    exact replayCongrAt (step.holds k other)
  · rw [known, LeaseWatcher.othersOwn, step.silent]

theorem snapshotInStep (none : wr.events = []) (some : wr.snapshot ≠ [])
    (fresh : Keyed.Distinct Lease.subnet wr.snapshot) (steady : Steady own s wr) (step : InStep own s info) :
    InStep own (s.handle wr) (inform info wr) := by
  have owner := step.owner
  simp only [Steady, none, some, ne_eq, not_true_eq_false, if_false, not_false_eq_true, if_true] at steady
  refine ⟨?_, ?_, ?_, ?_, ?_⟩
  · rw [handleWatcher, batchOfSnapshot none some]
    exact owner
  · rw [handleWatcher, batchOfSnapshot none some]
    exact fresh
  · intro k other
    rw [handleKnown, handleWatcher, batchOfSnapshot none some,
      LeaseWatcher.resetAt step.distinct fresh (by rw [owner]; exact other) (step.knows k other)]
    refine keptAttrs.mpr fun nl ol new old => ?_
    obtain ⟨member, rfl⟩ := Keyed.lookupSome new
    obtain ⟨member', same⟩ := Keyed.lookupSome old
    exact steady nl member other ol member' same
  · intro k other
    rw [handleWatcher, batchOfSnapshot none some, informSnapshot none]
    rfl
  · rw [handleKnown, batchOfSnapshot none some]
    have silent := step.silent
    rw [← owner] at silent ⊢
    exact LeaseWatcher.resetOwn step.distinct fresh silent

theorem nothingInStep (none : wr.events = []) (nothing : wr.snapshot = []) (steady : Steady own s wr)
    (step : InStep own s info) : InStep own (s.handle wr) (inform info wr) := by
  simp only [Steady, none, nothing, ne_eq, not_true_eq_false, if_false] at steady
  have watcher : (s.handle wr).watcher = s.watcher := by rw [handleWatcher, batchOfNothing none nothing]
  have known : (s.handle wr).known = s.known := by
    rw [handleKnown, batchOfNothing none nothing]
    rfl
  refine ⟨by rw [watcher]; exact step.owner, by rw [watcher]; exact step.distinct, ?_, ?_, by rw [known]; exact step.silent⟩
  · intro k other
    rw [watcher, known]
    exact step.knows k other
  · intro k other
    rw [watcher, informSnapshot none, nothing]
    refine heldNone.mpr (Keyed.lookupNone.mpr ?_)
    rintro ol member rfl
    exact other (steady ol member)

theorem steadyInStep (fresh : Keyed.Distinct Lease.subnet wr.snapshot) (steady : Steady own s wr)
    (step : InStep own s info) : InStep own (s.handle wr) (inform info wr) := by
  by_cases events : wr.events = []
  · by_cases snapshot : wr.snapshot = []
    · exact nothingInStep events snapshot steady step
    · exact snapshotInStep events snapshot fresh steady step
  · exact eventsInStep events step

theorem steadyOfMatches (fresh : Keyed.Distinct Lease.subnet wr.snapshot) (step : InStep own s info)
    (same : Matches own (s.handle wr) (inform info wr)) : Steady own s wr := by
  have at_ : ∀ k ≠ own.subnet, (s.handle wr).known k = inform info wr k := by
    intro k other
    rw [same, Function.update_of_ne other]
  by_cases events : wr.events = []
  · by_cases snapshot : wr.snapshot = []
    · simp only [Steady, events, snapshot, ne_eq, not_true_eq_false, if_false]
      intro ol member
      by_contra other
      have lost := at_ ol.subnet other
      rw [handleKnown, batchOfNothing events snapshot, informSnapshot events, snapshot] at lost
      have kept := (step.knows ol.subnet other).symm.trans lost
      exact Keyed.lookupNone.mp (heldNone.mp kept) ol member rfl
    · simp only [Steady, events, snapshot, ne_eq, not_true_eq_false, if_false, not_false_eq_true, if_true]
      intro nl member other ol member' subnet
      have kept := at_ nl.subnet other
      rw [handleKnown, batchOfSnapshot events snapshot, informSnapshot events,
        LeaseWatcher.resetAt step.distinct fresh (by rw [step.owner]; exact other) (step.knows nl.subnet other)] at kept
      exact keptAttrs.mp kept nl ol ((Keyed.memIff fresh).mp member) (subnet ▸ (Keyed.memIff step.distinct).mp member')
  · simp [Steady, events]

end Step

theorem runInStep {own : Lease} {s : Watch} {info : View} {results : List LeaseWatchResult}
    (fresh : ∀ wr ∈ results, Keyed.Distinct Lease.subnet wr.snapshot) (step : InStep own s info)
    (along : Along Watch.handle (Steady own) s results) :
    InStep own (run Watch.handle s results) (results.foldl inform info) := by
  induction results generalizing s info with
  | nil => exact step
  | cons wr rest ih =>
    exact ih (fun wr' mem => fresh wr' (List.mem_cons_of_mem _ mem))
      (steadyInStep (fresh wr List.mem_cons_self) along.1 step) along.2

theorem startInStep (own : Lease) : InStep own (Watch.start own) unknown :=
  ⟨rfl, List.nodup_nil, fun _ _ => rfl, fun _ _ => rfl, rfl⟩

theorem replayIffSteady (own : Lease) {results : List LeaseWatchResult}
    (fresh : ∀ wr ∈ results, Keyed.Distinct Lease.subnet wr.snapshot) :
    (∀ pre, pre <+: results → Matches own (run Watch.handle (Watch.start own) pre) (pre.foldl inform unknown)) ↔
      Along Watch.handle (Steady own) (Watch.start own) results := by
  have start := startInStep own
  generalize Watch.start own = s at start ⊢
  generalize unknown = info at start ⊢
  induction results generalizing s info with
  | nil =>
    refine ⟨fun _ => trivial, fun _ pre prefix_ => ?_⟩
    rw [List.prefix_nil.mp prefix_]
    exact matchesOfStep start
  | cons wr rest ih =>
    have fresh' := fresh wr List.mem_cons_self
    have later := fun steady => ih (fun wr' mem => fresh wr' (List.mem_cons_of_mem _ mem)) (s.handle wr)
      (inform info wr) (steadyInStep fresh' steady start)
    constructor
    · intro all
      have steady := steadyOfMatches fresh' start (all [wr] (by simp))
      exact ⟨steady, (later steady).mp (fun pre prefix_ => all (wr :: pre) (by simpa using prefix_))⟩
    · rintro ⟨steady, along⟩ pre prefix_
      cases pre with
      | nil => exact matchesOfStep start
      | cons head pre =>
        obtain ⟨rfl, part⟩ := List.cons_prefix_cons.mp prefix_
        exact (later steady).mpr along pre part

/- The lease of the block at an address, of the node with a public address. -/
private def leaseAt (ip publicIp : Ipv4Addr) : Lease := {
  Lease.default 0 with
  subnet := cidr ip 24
  attrs := { publicIp } }

theorem snapshotsNotReplayed :
    let own := leaseAt 0x0A000100 1
    let first : LeaseWatchResult := { snapshot := [leaseAt 0x0A000200 2] }
    let changed : LeaseWatchResult := { snapshot := [leaseAt 0x0A000200 3] }
    ¬Matches own (run Watch.handle (Watch.start own) [first, changed]) ([first, changed].foldl inform unknown) ∧
    ¬Matches own (run Watch.handle (Watch.start own) [first, {}]) ([first, {}].foldl inform unknown) :=
  ⟨fun same => absurd (congrFun same (cidr 0x0A000200 24)) (by decide),
    fun same => absurd (congrFun same (cidr 0x0A000200 24)) (by decide)⟩

private def keptSnapshot : List LeaseWatchResult := [
  { snapshot := [leaseAt 0x0A000100 1, leaseAt 0x0A000200 2] },
  { events := [⟨leaseAt 0x0A000300 3, .put⟩, ⟨leaseAt 0x0A000200 4, .put⟩] },
  { snapshot := [leaseAt 0x0A000200 4] }]

theorem keptSnapshotReplays :
    let own := leaseAt 0x0A000100 1
    Matches own (run Watch.handle (Watch.start own) keptSnapshot) (keptSnapshot.foldl inform unknown) :=
  (replayIffSteady (leaseAt 0x0A000100 1) (by decide)).mpr (by decide) keptSnapshot (List.prefix_refl _)

end FlannelNg
