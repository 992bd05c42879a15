import FlannelNg.Reported

/-! What a failed write leaves behind. The compensating revoke deletes the keys that are
attached to the new etcd lease: that undoes a creation, but of an update that was
applied it deletes the entry which was there before. -/
namespace FlannelNg
open Cidr Outcome

section Write
variable {K V : Type} [DecidableEq K] (codec : Codec K V)

/- A lease just granted has no keys. -/
def FreshGrant (rpc : WriteRpc) (db : Etcd K V) : Prop :=
  ∀ id ttl, rpc.grant = .ok (id, ttl) → ∀ kv ∈ db.kvs, kv.lease ≠ id

/- An error leaves the binding of the subnet's key as it was. -/
def KeepsBinding (sn : Ipv4Network) (db : Etcd K V) (written : Res SystemTime × Etcd K V) : Prop :=
  ∀ message, written.1 = .error (.bail message) → storedValue codec sn written.2 = storedValue codec sn db

/- The grant succeeds, the put is applied, and its response is lost. -/
def WriteRpc.AppliedUnseen (rpc : WriteRpc) : Prop := ∃ grant message, rpc.grant = .ok grant ∧ rpc.answer = .lost message

variable {codec} {sn : Ipv4Network} {attrs : LeaseAttrs} {rpc : WriteRpc} {db : Etcd K V} {k : K} {v : V} {id : Int}

theorem getRevokeFresh (fresh : ∀ kv ∈ db.kvs, kv.lease ≠ id) : (db.revoke codec id).get k = db.get k := by
  rw [Etcd.revoke, Etcd.getDeleteWhere]
  cases found : db.get k with
  | none => rfl
  | some kv => simp [Option.filter, fresh kv (Etcd.getSome found).1]

theorem getRevokePut : ((db.put codec ⟨k, v, id⟩).revoke codec id).get k = none := by
  rw [Etcd.revoke, Etcd.getDeleteWhere, Etcd.getPut, if_pos rfl]
  simp [Option.filter]

theorem storedRevoked (revoked : rpc.revoked = true) (fresh : ∀ kv ∈ db.kvs, kv.lease ≠ id) :
    storedValue codec sn (rpc.compensate codec id db) = storedValue codec sn db := by
  rw [WriteRpc.compensate, if_pos revoked, storedValue, getRevokeFresh fresh, storedValue]

theorem storedRevokedPut (revoked : rpc.revoked = true) :
    storedValue codec sn (rpc.compensate codec id (db.put codec ⟨codec.key sn, v, id⟩)) = none := by
  rw [WriteRpc.compensate, if_pos revoked, storedValue, getRevokePut, Option.map_none]

theorem storedNone : storedValue codec sn db = none ↔ db.get (codec.key sn) = none := Option.map_eq_none_iff

theorem expirationNoError {ttl : Int} {message : String} : rpc.expiration ttl ≠ .error (.bail message) := by
  unfold WriteRpc.expiration SystemTime.addSecs
  split <;> simp

theorem createKeeps (fresh : FreshGrant rpc db) (revoked : rpc.revoked = true) :
    KeepsBinding codec sn db (createSubnet codec sn attrs rpc db) := by
  intro message failed
  unfold createSubnet at failed ⊢
  cases granted : rpc.grant with
  | error stop => rfl
  | ok grant =>
    obtain ⟨id, ttl⟩ := grant
    have fresh := fresh id ttl granted
    -- the transaction puts the entry where there was none, or changes nothing
    have undone : storedValue codec sn (rpc.compensate codec id
        (db.putIfAbsent codec ⟨codec.key sn, codec.toVec attrs, id⟩).2) = storedValue codec sn db := by
      unfold Etcd.putIfAbsent
      split
      · rename_i absent
        rw [storedRevokedPut revoked, storedNone.mpr (Option.isNone_iff_eq_none.mp absent)]
      · exact storedRevoked revoked fresh
    simp only [granted] at failed ⊢
    cases answer : rpc.answer with
    | rejected text => exact storedRevoked revoked fresh
    | lost text => exact undone
    | answered =>
      simp only [answer] at failed ⊢
      split
      · rename_i applied
        rw [if_pos applied] at failed
        exact absurd failed expirationNoError
      · exact undone

theorem updateKeepsIff (fresh : FreshGrant rpc db) (revoked : rpc.revoked = true) :
    KeepsBinding codec sn db (updateSubnet codec sn attrs rpc db) ↔
      (rpc.AppliedUnseen → storedValue codec sn db = none) := by
  unfold updateSubnet
  cases granted : rpc.grant with
  | error stop =>
    refine ⟨fun _ unseen => ?_, fun _ _ _ => rfl⟩
    obtain ⟨grant, _, some_, _⟩ := unseen
    exact absurd (granted.symm.trans some_) (by simp)
  | ok grant =>
    obtain ⟨id, ttl⟩ := grant
    simp only
    cases answer : rpc.answer with
    | rejected text =>
      refine ⟨fun _ unseen => ?_, fun _ _ _ => storedRevoked revoked (fresh id ttl granted)⟩
      obtain ⟨_, message, _, lost⟩ := unseen
      exact absurd (answer.symm.trans lost) (by simp)
    | answered =>
      refine ⟨fun _ unseen => ?_, fun _ message failed => absurd failed expirationNoError⟩
      obtain ⟨_, message, _, lost⟩ := unseen
      exact absurd (answer.symm.trans lost) (by simp)
    | lost text =>
      have deleted := @storedRevokedPut _ _ _ codec sn rpc db (codec.toVec attrs) id revoked
      constructor
      · intro keeps _
        exact (keeps text rfl).symm.trans deleted
      · intro absent message _
        exact deleted.trans (absent ⟨(id, ttl), text, granted, answer⟩).symm

theorem failedWritesKeepIff (fresh : FreshGrant rpc db) (revoked : rpc.revoked = true) :
    KeepsBinding codec sn db (createSubnet codec sn attrs rpc db) ∧
      KeepsBinding codec sn db (updateSubnet codec sn attrs rpc db) ↔
        (rpc.AppliedUnseen → storedValue codec sn db = none) := by
  rw [and_iff_right (createKeeps fresh revoked), updateKeepsIff fresh revoked]

theorem presentKept {kv : KeyValue K V} (kept : db.get k ≠ none ∨ kv.key ≠ k) :
    (db.putIfAbsent codec kv).2.get k = db.get k := by
  unfold Etcd.putIfAbsent
  split
  · rename_i absent
    have other : kv.key ≠ k := by
      intro same
      rw [same] at absent
      exact kept.elim (fun here => here (Option.isNone_iff_eq_none.mp absent)) (fun other => other same)
    exact Etcd.getPut.trans (if_neg other)
  · rfl

/- The revoke deletes entries of the new etcd lease, and no old one is. -/
theorem revokedElsewhere {after : Etcd K V} (fresh : ∀ kv ∈ db.kvs, kv.lease ≠ id) (same : after.get k = db.get k) :
    (rpc.compensate codec id after).get k = db.get k := by
  unfold WriteRpc.compensate
  split
  · rw [Etcd.revoke, Etcd.getDeleteWhere, same]
    cases found : db.get k with
    | none => rfl
    | some kv => simp [Option.filter, fresh kv (Etcd.getSome found).1]
  · exact same

theorem updateElsewhere (fresh : FreshGrant rpc db) (other : codec.key sn ≠ k) :
    (updateSubnet codec sn attrs rpc db).2.get k = db.get k := by
  have put : ∀ v id, (db.put codec ⟨codec.key sn, v, id⟩).get k = db.get k := fun v id => Etcd.getPut.trans (if_neg other)
  unfold updateSubnet
  cases granted : rpc.grant with
  | error message => rfl
  | ok grant =>
    have fresh := fresh grant.1 grant.2 granted
    dsimp only
    cases rpc.answer with
    | answered => exact put _ _
    | rejected message => exact revokedElsewhere fresh rfl
    | lost message => exact revokedElsewhere fresh (put _ _)

theorem createElsewhere (fresh : FreshGrant rpc db) (kept : db.get k ≠ none ∨ codec.key sn ≠ k) :
    (createSubnet codec sn attrs rpc db).2.get k = db.get k := by
  unfold createSubnet
  cases granted : rpc.grant with
  | error message => rfl
  | ok grant =>
    have fresh := fresh grant.1 grant.2 granted
    dsimp only
    cases rpc.answer with
    | rejected message => exact revokedElsewhere fresh rfl
    | lost message => exact revokedElsewhere fresh (presentKept kept)
    | answered =>
      dsimp only
      split
      · exact presentKept kept
      · exact revokedElsewhere fresh (presentKept kept)

end Write

private def storedEntry : Etcd Ipv4Network LeaseAttrs :=
  Etcd.empty.put Codec.plain ⟨cidr 0x0A000100 24, { publicIp := 1 }, 5⟩

private def unseen : WriteRpc where
  grant := .ok (7, 86400)
  answer := .lost "transport error"
  revoked := true
  now := 0

/- The renewal was applied, its response is lost, and the revoke deletes the node's entry. -/
theorem lostRenewalDeletes :
    (updateSubnet Codec.plain (cidr 0x0A000100 24) { publicIp := 1 } unseen storedEntry).1 =
        .error (.bail "transport error") ∧
      storedValue Codec.plain (cidr 0x0A000100 24) storedEntry = some { publicIp := 1 } ∧
      storedValue Codec.plain (cidr 0x0A000100 24)
        (updateSubnet Codec.plain (cidr 0x0A000100 24) { publicIp := 1 } unseen storedEntry).2 = none ∧
      ¬KeepsBinding Codec.plain (cidr 0x0A000100 24) storedEntry
        (updateSubnet Codec.plain (cidr 0x0A000100 24) { publicIp := 1 } unseen storedEntry) :=
  ⟨by decide, by decide, by decide, fun keeps => absurd (keeps "transport error" (by decide)) (by decide)⟩

private def rejected : WriteRpc := { unseen with answer := .rejected "permission denied" }

theorem rejectedRenewalKeeps :
    KeepsBinding Codec.plain (cidr 0x0A000100 24) storedEntry
        (createSubnet Codec.plain (cidr 0x0A000100 24) { publicIp := 1 } rejected storedEntry) ∧
      KeepsBinding Codec.plain (cidr 0x0A000100 24) storedEntry
        (updateSubnet Codec.plain (cidr 0x0A000100 24) { publicIp := 1 } rejected storedEntry) := by
  refine (failedWritesKeepIff ?_ rfl).mpr ?_
  · rintro id ttl ⟨⟩
    decide
  · rintro ⟨_, _, _, ⟨⟩⟩

end FlannelNg
