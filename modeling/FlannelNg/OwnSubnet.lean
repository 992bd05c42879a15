import FlannelNg.Watcher

/-! Whether a watcher tells a node about its own subnet. Events of the own subnet are
passed over, but a snapshot is stored whole, own lease included: the next reset takes
the stored own lease for one that is gone. -/
namespace FlannelNg
open Cidr Runs

inductive WatcherCall where
  | reset (leases : List Lease)
  | update (events : List LeaseWatchEvent)
  deriving DecidableEq, Repr

def WatcherCall.isReset : WatcherCall → Bool
  | .reset _ => true
  | .update _ => false

def Mentions (own : Lease) (leases : List Lease) : Prop := ∃ l ∈ leases, l.subnet = own.subnet

/- A reset stores its snapshot. -/
def WatcherCall.Stores (own : Lease) : WatcherCall → Prop
  | .reset leases => Mentions own leases
  | .update _ => False

namespace LeaseWatcher

def call (w : LeaseWatcher) : WatcherCall → List LeaseWatchEvent × LeaseWatcher
  | .reset leases => w.reset leases
  | .update events => w.update events

/- What a watcher emits over a sequence of calls. -/
def calls : LeaseWatcher → List WatcherCall → List LeaseWatchEvent
  | _, [] => []
  | w, c :: rest => (w.call c).1 ++ calls (w.call c).2 rest

def Silent (w : LeaseWatcher) (c : WatcherCall) : Prop := ∀ e ∈ (w.call c).1, e.lease.subnet ≠ w.ownLease.subnet

variable {w : LeaseWatcher} {own : Lease} {c : WatcherCall} {cs pre post : List WatcherCall}
variable {new old leases : List Lease} {events batch : List LeaseWatchEvent} {e : LeaseWatchEvent}

theorem mentionsRemove {k : Ipv4Network} (other : k ≠ own.subnet) :
    Mentions own (Keyed.remove Lease.subnet k leases) ↔ Mentions own leases := by
  constructor
  · rintro ⟨l, mem, same⟩
    exact ⟨l, List.mem_of_mem_eraseP mem, same⟩
  · rintro ⟨l, mem, same⟩
    refine ⟨l, ?_, same⟩
    rw [Keyed.remove, List.mem_eraseP_of_neg]
    · exact mem
    · rw [decide_eq_true_iff, same]
      exact Ne.symm other

theorem mentionsUpsert {lease : Lease} (other : lease.subnet ≠ own.subnet) :
    Mentions own (Keyed.upsert Lease.subnet lease leases) ↔ Mentions own leases := by
  have keyed : ∀ ls, Mentions own ls ↔ ∃ l, Keyed.lookup Lease.subnet own.subnet ls = some l := fun ls => by
    rw [← Keyed.keyMem, List.mem_map]
    rfl
  rw [keyed, keyed, Keyed.lookupUpsert, if_neg other]

/- The loop of a reset neither emits a put of the own subnet nor takes the own lease out of the old list. -/
theorem resetLoopOwn : (∀ e ∈ (resetLoop own.subnet new old batch).1, e ∈ batch ∨ e.lease.subnet ≠ own.subnet) ∧
    (Mentions own (resetLoop own.subnet new old batch).2 ↔ Mentions own old) := by
  induction new generalizing old batch with
  | nil => exact ⟨fun e mem => .inl mem, Iff.rfl⟩
  | cons nl rest ih =>
    unfold resetLoop
    by_cases mine : nl.subnet = own.subnet
    · rw [if_pos mine]
      exact ih
    · rw [if_neg mine]
      cases found : Keyed.lookup Lease.subnet nl.subnet old with
      | none =>
        obtain ⟨emits, kept⟩ := @ih old (batch ++ [⟨nl, .put⟩])
        refine ⟨fun e mem => ?_, kept⟩
        rcases emits e mem with before | other
        · rcases List.mem_append.mp before with earlier | last
          · exact .inl earlier
          · cases List.mem_singleton.mp last
            exact .inr mine
        · exact .inr other
      | some ol =>
        obtain ⟨emits, kept⟩ := @ih (Keyed.remove Lease.subnet nl.subnet old) batch
        exact ⟨emits, kept.trans (mentionsRemove mine)⟩

theorem resetSilent : Silent w (.reset leases) ↔ ¬Mentions w.ownLease w.leases := by
  obtain ⟨emits, kept⟩ := @resetLoopOwn w.ownLease leases w.leases []
  rw [← kept]
  change (∀ e ∈ (resetLoop w.ownLease.subnet leases w.leases []).1 ++
    (resetLoop w.ownLease.subnet leases w.leases []).2.map (fun it => ⟨it, .delete⟩), _) ↔ _
  constructor
  · rintro silent ⟨l, mem, same⟩
    exact silent ⟨l, .delete⟩ (List.mem_append_right _ (List.mem_map_of_mem mem)) same
  · intro free e mem same
    rcases List.mem_append.mp mem with put | deleted
    · exact (emits e put).elim List.not_mem_nil (fun other => other same)
    · obtain ⟨l, left, rfl⟩ := List.mem_map.mp deleted
      exact free ⟨l, left, same⟩

theorem updateSilent : Silent w (.update events) := by
  intro e mem same
  change e ∈ (w.update events).1 at mem
  have change : e.change ∈ others w.ownLease.subnet events := by
    rw [← updateEmits]
    exact List.mem_map_of_mem mem
  obtain ⟨from_, kept, changed⟩ := List.mem_map.mp change
  have key := congrArg Replay.Change.key changed
  rw [changeKey, changeKey] at key
  exact of_decide_eq_true (List.mem_filter.mp kept).2 (key.trans same)

theorem callOwner : (w.call c).2.ownLease = w.ownLease := by
  cases c with
  | reset leases => rfl
  | update events => exact updateOwner

theorem updateOneMentions : Mentions w.ownLease (w.updateOne e).2.leases ↔ Mentions w.ownLease w.leases := by
  unfold updateOne
  split
  · rfl
  · rename_i other
    cases e.eventType with
    | put => exact mentionsUpsert other
    | delete =>
      unfold remove
      dsimp only
      split
      · exact mentionsRemove other
      · rfl

theorem updateMentions : Mentions w.ownLease (w.update events).2.leases ↔ Mentions w.ownLease w.leases := by
  induction events generalizing w with
  | nil => rfl
  | cons e rest ih =>
    have later := @ih (w.updateOne e).2
    rw [updateOneOwner] at later
    exact later.trans updateOneMentions

/- While the own lease is stored no reset is silent, and after a reset it is stored if the snapshot has it. -/
theorem callsSilent : (∀ e ∈ w.calls cs, e.lease.subnet ≠ w.ownLease.subnet) ↔
    (Mentions w.ownLease w.leases → ∀ c ∈ cs, c.isReset = false) ∧
      cs.Pairwise (fun c later => c.Stores w.ownLease → later.isReset = false) := by
  induction cs generalizing w with
  | nil => simp [calls]
  | cons c rest ih =>
    have later := @ih (w.call c).2
    rw [callOwner] at later
    rw [calls, List.forall_mem_append, later, List.pairwise_cons, List.forall_mem_cons]
    cases c with
    | reset leases =>
      have first : (∀ e ∈ (w.call (.reset leases)).1, e.lease.subnet ≠ w.ownLease.subnet) ↔
          ¬Mentions w.ownLease w.leases := resetSilent
      rw [first]
      change _ ∧ (Mentions w.ownLease leases → _) ∧ _ ↔ (_ → true = false ∧ _) ∧ (∀ later ∈ rest, Mentions w.ownLease leases → _) ∧ _
      constructor
      · rintro ⟨free, alone, others⟩
        exact ⟨fun mine => absurd mine free, fun later mem mine => alone mine later mem, others⟩
      · rintro ⟨free, alone, others⟩
        exact ⟨fun mine => absurd (free mine).1 Bool.true_eq_false_eq_False, fun mine later mem => alone later mem mine, others⟩
    | update events =>
      have first : ∀ e ∈ (w.call (.update events)).1, e.lease.subnet ≠ w.ownLease.subnet := updateSilent
      have kept : Mentions w.ownLease (w.call (.update events)).2.leases ↔ Mentions w.ownLease w.leases := updateMentions
      rw [kept, and_iff_right first]
      change _ ↔ (_ → false = false ∧ _) ∧ (∀ later ∈ rest, False → _) ∧ _
      simp

theorem neverToldOwnIff (own : Lease) (cs : List WatcherCall) :
    (∀ e ∈ calls ⟨own, []⟩ cs, e.lease.subnet ≠ own.subnet) ↔
      cs.Pairwise (fun c later => c.Stores own → later.isReset = false) := by
  rw [callsSilent, and_iff_right]
  rintro ⟨l, mem, _⟩
  exact absurd mem List.not_mem_nil

end LeaseWatcher

private def ownLease : Lease := { Lease.default 0 with subnet := cidr 0x0A000100 24 }

theorem secondResetDeletesOwn : LeaseWatcher.calls ⟨ownLease, []⟩ [.reset [ownLease], .reset [ownLease]] =
      [⟨ownLease, .delete⟩] ∧
    ¬∀ e ∈ LeaseWatcher.calls ⟨ownLease, []⟩ [.reset [ownLease], .reset [ownLease]],
      e.lease.subnet ≠ ownLease.subnet := by
  have emitted : LeaseWatcher.calls ⟨ownLease, []⟩ [.reset [ownLease], .reset [ownLease]] = [⟨ownLease, .delete⟩] := by
    decide
  refine ⟨emitted, fun silent => ?_⟩
  rw [emitted] at silent
  exact silent _ List.mem_cons_self rfl

end FlannelNg
