import FlannelNg.ClusterSafety
import FlannelNg.HandOver

/-! What a backend's watch knows of the store that the nodes share. The store is the replay
of its log, so a watch that has received everything since its snapshot is in step with the
entries that are there now. -/
namespace FlannelNg
open Cidr Outcome Replay Runs

section Recorded
variable {K V : Type} [DecidableEq K]

/- The entries are what the log makes of an empty store. -/
def Recorded (codec : Codec K V) (db : Etcd K V) : Prop := db = storeAfter codec db.log

variable {codec : Codec K V} {db after : Etcd K V} {P : KeyValue K V → Prop}

theorem recordedEmpty : Recorded codec Etcd.empty := rfl

theorem recordedCommit {txn : List (Event K V)} (recorded : Recorded codec db) : Recorded codec (db.commit codec txn) := by
  have last : storeAfter codec (db.log ++ [txn]) = (storeAfter codec db.log).commit codec txn := List.foldl_append
  calc db.commit codec txn = (storeAfter codec db.log).commit codec txn := congrArg (Etcd.commit codec txn) recorded
    _ = storeAfter codec (db.commit codec txn).log := last.symm

theorem recordedChanged (changed : Changed codec P db after) (recorded : Recorded codec db) : Recorded codec after := by
  induction changed with
  | same => exact recorded
  | put _ _ ih => exact recordedCommit ih
  | delete _ ih =>
    unfold Etcd.deleteWhere
    split
    · exact recordedCommit ih
    · exact ih

end Recorded

section Run
variable {N : Type} [DecidableEq N] {build : Build} {publicIp : N → Ipv4Addr} {c : Cluster N}

theorem stepRecorded {a : Action N} (recorded : Recorded Codec.plain c.db) :
    Recorded Codec.plain (step build publicIp c a).db := recordedChanged (@stepChanged N _ build publicIp c a) recorded

theorem stepLog (a : Action N) : c.db.log <+: (step build publicIp c a).db.log := by
  obtain ⟨txns, log, _⟩ := changedLog (@stepChanged N _ build publicIp c a)
  exact ⟨txns, log.symm⟩

theorem runRecorded {actions : List (Action N)} (recorded : Recorded Codec.plain c.db) :
    Recorded Codec.plain (run (step build publicIp) c actions).db :=
  @runInvariant _ _ _ (fun _ _ => True) (fun c : Cluster N => Recorded Codec.plain c.db) _ _
    (fun _ _ recorded _ => stepRecorded recorded) recorded (alongOfMem (fun _ _ => trivial))

theorem runLog {actions : List (Action N)} : c.db.log <+: (run (step build publicIp) c actions).db.log := by
  induction actions generalizing c with
  | nil => exact List.prefix_rfl
  | cons a rest ih => exact (stepLog a).trans ih

end Run

/-- The watch started with a snapshot of a store that had entries, no response was canceled and
no query failed, and the responses are all that etcd delivers from the snapshot's revision on. -/
structure CaughtUp (rpc : ReadRpc Ipv4Network LeaseAttrs) (responses : List (WatchResponse Ipv4Network LeaseAttrs))
    (registered : Nat) (before after : Store) : Prop where
  succeeds : rpc.failed = none
  answered : ∀ kv, Answered (rpc.ttl kv) (rpc.clock kv)
  entries : before.kvs ≠ []
  delivered : (responses.flatMap WatchResponse.events).map Delivery.event =
    (deliveredTxns after.log before.revision registered after.log.length).flatten
  answered' : ∀ d ∈ responses.flatMap WatchResponse.events, ∀ kv, d.event = .put kv → Answered d.ttl d.now
  live : ∀ resp ∈ responses, resp.canceled = false

section Watch
variable {rpc : ReadRpc Ipv4Network LeaseAttrs} {responses : List (WatchResponse Ipv4Network LeaseAttrs)}
variable {registered : Nat} {before after : Store}

theorem plainEventsWellFormed (events : List (Event Ipv4Network LeaseAttrs)) : WellFormed Codec.plain id id events :=
  ⟨fun _ _ => ⟨none, rfl⟩, fun _ _ => rfl, fun _ _ _ _ same => same⟩

theorem caughtUpBegun (recorded : Recorded Codec.plain before) (caughtUp : CaughtUp rpc responses registered before after) :
    0 < before.log.length := by
  rw [List.length_pos_iff]
  intro none
  rw [Recorded, none] at recorded
  exact caughtUp.entries (by rw [recorded]; rfl)

/- The watch begins with the last transaction that the snapshot shows already. -/
theorem deliveredSince : deliveredTxns after.log before.revision registered after.log.length =
    after.log.drop (before.log.length - 1) := by
  unfold deliveredTxns
  rw [if_neg (show before.revision ≠ 0 from Nat.succ_ne_zero _), List.take_length]
  rfl

/- The snapshot and the responses make the watcher hold the entries of the later store. -/
theorem caughtUpInStep (own : Lease) (recorded : Recorded Codec.plain before) (recorded' : Recorded Codec.plain after)
    (later : before.log <+: after.log) (caughtUp : CaughtUp rpc responses registered before after) :
    ∃ results, watchLeasesInner Codec.plain rpc before responses = .ok results ∧
      InStep own (run Watch.handle (Watch.start own) results) (storeView id id after.kvs) := by
  have start : before = storeAfter Codec.plain (after.log.take before.log.length) := by
    rw [List.prefix_iff_eq_take.mp later |>.symm]
    exact recorded
  have whole : after = storeAfter Codec.plain (after.log.take after.log.length) := by
    rw [List.take_length]
    exact recorded'
  have since : deliveredTxns after.log before.revision registered after.log.length =
      (after.log.take after.log.length).drop (before.log.length - 1) := by rw [deliveredSince, List.take_length]
  obtain ⟨results, inner, step⟩ := @watcherInStep _ _ _ Codec.plain id id own (after.log.take before.log.length) rpc responses
    (plainEventsWellFormed _) (plainEventsWellFormed _) caughtUp.succeeds (fun kv _ => caughtUp.answered kv)
    caughtUp.answered' caughtUp.live
  rw [caughtUp.delivered, since, replayNewest (plainEventsWellFormed _) (caughtUpBegun recorded caughtUp)
    later.length_le, ← whole] at step
  rw [← start] at inner
  exact ⟨results, inner, step⟩

end Watch
end FlannelNg
