import FlannelNg.Registry

/-! What a registry call may do to the store and what a read tells about it. A write
puts at most one entry, and compensations and expirations only delete. -/
namespace FlannelNg
open Cidr Outcome

/- Whether the put or transaction reaches the store. -/
def WriteRpc.applies (rpc : WriteRpc) : Bool :=
  match rpc.grant, rpc.answer with
  | .error _, _ => false
  | .ok _, .rejected _ => false
  | .ok _, _ => true

section Changes
variable {K V : Type} [DecidableEq K] (codec : Codec K V)

/-- The second store comes from the first by puts of entries that meet `P` and by deletes. -/
inductive Changed (P : KeyValue K V → Prop) (db : Etcd K V) : Etcd K V → Prop where
  | same : Changed P db db
  | put {after : Etcd K V} {kv : KeyValue K V} (changed : Changed P db after) (allowed : P kv) :
      Changed P db (after.put codec kv)
  | delete {after : Etcd K V} {p : KeyValue K V → Bool} (changed : Changed P db after) :
      Changed P db (after.deleteWhere codec p)

/- The puts of the newest transaction are in the store. -/
def Settled (db : Etcd K V) : Prop :=
  ∀ txn, db.log.getLast? = some txn → ∀ kv, Event.put kv ∈ txn → db.get kv.key = some kv

variable {codec} {P Q : KeyValue K V → Prop} {db after : Etcd K V} {k : K} {kv : KeyValue K V}

theorem changedMono (h : ∀ kv, P kv → Q kv) (changed : Changed codec P db after) : Changed codec Q db after := by
  induction changed with
  | same => exact .same
  | put _ allowed ih => exact .put ih (h _ allowed)
  | delete _ ih => exact .delete ih

theorem changedGet (changed : Changed codec P db after) (found : after.get k = some kv) :
    db.get k = some kv ∨ P kv ∧ kv.key = k := by
  induction changed with
  | same => exact .inl found
  | put _ allowed ih =>
    rw [Etcd.getPut] at found
    split at found
    · rename_i same
      cases Option.some.inj found
      exact .inr ⟨allowed, same⟩
    · exact ih found
  | delete _ ih => exact ih (Etcd.getOfDeleteWhere found).1

theorem changedMem (changed : Changed codec P db after) (member : kv ∈ after.kvs) : kv ∈ db.kvs ∨ P kv := by
  rcases changedGet changed (Etcd.memIff.mp member) with old | new
  · exact .inl (Etcd.memIff.mpr old)
  · exact .inr new.1

theorem changedLog (changed : Changed codec P db after) :
    ∃ txns, after.log = db.log ++ txns ∧ ∀ kv, Event.put kv ∈ txns.flatten → P kv := by
  induction changed with
  | same => exact ⟨[], by simp, by simp⟩
  | @put _ kv _ allowed ih =>
    obtain ⟨txns, log, puts⟩ := ih
    refine ⟨txns ++ [[.put kv]], by rw [Etcd.logPut, log, List.append_assoc], ?_⟩
    intro other member
    rw [List.flatten_append, List.mem_append] at member
    rcases member with old | new
    · exact puts other old
    · cases Event.put.inj (by simpa using new)
      exact allowed
  | @delete after p _ ih =>
    obtain ⟨txns, log, puts⟩ := ih
    rcases @Etcd.logDeleteWhere K V _ codec after p with same | ⟨ks, more⟩
    · exact ⟨txns, by rw [same, log], puts⟩
    · refine ⟨txns ++ [ks.map Event.delete], by rw [more, log, List.append_assoc], ?_⟩
      intro other member
      rw [List.flatten_append, List.mem_append] at member
      rcases member with old | new
      · exact puts other old
      · simp at new

/- What was put since the log had that length: before the change, or by it. -/
theorem changedSince {base : Nat} {kv : KeyValue K V} (changed : Changed codec P db after)
    (member : Event.put kv ∈ (after.log.drop base).flatten) : Event.put kv ∈ (db.log.drop base).flatten ∨ P kv := by
  obtain ⟨txns, log, puts⟩ := changedLog changed
  rw [log, List.drop_append, List.flatten_append, List.mem_append] at member
  rcases member with old | added
  · exact .inl old
  · obtain ⟨txn, later, inside⟩ := List.mem_flatten.mp added
    exact .inr (puts kv (List.mem_flatten.mpr ⟨txn, List.mem_of_mem_drop later, inside⟩))

theorem settledEmpty : Settled (Etcd.empty : Etcd K V) := nofun

theorem settledPut : Settled (db.put codec kv) := by
  intro txn last other member
  rw [Etcd.logPut, List.getLast?_concat] at last
  cases Option.some.inj last
  cases Event.put.inj (List.mem_singleton.mp member)
  rw [Etcd.getPut, if_pos rfl]

theorem settledDelete {p : KeyValue K V → Bool} (settled : Settled db) : Settled (db.deleteWhere codec p) := by
  unfold Etcd.deleteWhere
  split
  · intro txn last other member
    rw [Etcd.commit, List.getLast?_concat] at last
    cases Option.some.inj last
    simp at member
  · exact settled

theorem changedSettled (changed : Changed codec P db after) (settled : Settled db) : Settled after := by
  induction changed with
  | same => exact settled
  | put _ _ _ => exact settledPut
  | delete _ ih => exact settledDelete ih

theorem compensateChanged {rpc : WriteRpc} {lease : Int} (changed : Changed codec P db after) :
    Changed codec P db (rpc.compensate codec lease after) := by
  unfold WriteRpc.compensate
  split
  · exact .delete changed
  · exact changed

theorem updateChanged (subnet : Ipv4Network) (attrs : LeaseAttrs) (rpc : WriteRpc) (db : Etcd K V) :
    Changed codec (fun kv => kv.key = codec.key subnet ∧ kv.value = codec.toVec attrs ∧ rpc.applies = true)
      db (updateSubnet codec subnet attrs rpc db).2 := by
  unfold updateSubnet
  cases granted : rpc.grant with
  | error message => exact .same
  | ok grant =>
    obtain ⟨id, ttl⟩ := grant
    cases answer : rpc.answer with
    | answered => exact .put .same ⟨rfl, rfl, by simp [WriteRpc.applies, granted, answer]⟩
    | rejected message => exact compensateChanged .same
    | lost message =>
      exact compensateChanged (.put .same ⟨rfl, rfl, by simp [WriteRpc.applies, granted, answer]⟩)

theorem createChanged (sn : Ipv4Network) (attrs : LeaseAttrs) (rpc : WriteRpc) (db : Etcd K V) :
    Changed codec (fun kv => kv.key = codec.key sn ∧ kv.value = codec.toVec attrs ∧ rpc.applies = true ∧
      db.get (codec.key sn) = none) db (createSubnet codec sn attrs rpc db).2 := by
  unfold createSubnet
  cases granted : rpc.grant with
  | error message => exact .same
  | ok grant =>
    obtain ⟨id, ttl⟩ := grant
    have txn : rpc.applies = true → Changed codec (fun kv => kv.key = codec.key sn ∧ kv.value = codec.toVec attrs ∧
        rpc.applies = true ∧ db.get (codec.key sn) = none) db
        (db.putIfAbsent codec ⟨codec.key sn, codec.toVec attrs, id⟩).2 := by
      intro applies
      unfold Etcd.putIfAbsent
      split
      · rename_i absent
        exact .put .same ⟨rfl, rfl, applies, Option.isNone_iff_eq_none.mp absent⟩
      · exact .same
    cases answer : rpc.answer with
    | rejected message => exact compensateChanged .same
    | lost message => exact compensateChanged (txn (by simp [WriteRpc.applies, granted, answer]))
    | answered =>
      have applies : rpc.applies = true := by simp [WriteRpc.applies, granted, answer]
      simp only
      split
      · exact txn applies
      · exact compensateChanged (txn applies)

end Changes

section Reads
variable {K V : Type} {codec : Codec K V} {rpc : ReadRpc K V}

/- The lease that a read makes of an entry. -/
def LeaseOf (codec : Codec K V) (rpc : ReadRpc K V) (kv : KeyValue K V) (lease : Lease) : Prop :=
  ∃ ttl, rpc.ttl kv = some ttl ∧ kvToIpLease codec kv ttl (rpc.clock kv) = .ok lease

theorem readSource {kvs leases} (ok : readLeases codec rpc kvs = .ok leases) :
    List.Forall₂ (LeaseOf codec rpc) (kvs.filter (fun kv => (rpc.ttl kv).isSome)) leases := by
  induction kvs generalizing leases with
  | nil =>
    cases Except.ok.inj ok
    exact .nil
  | cons kv rest ih =>
    unfold readLeases at ok
    cases answer : rpc.ttl kv with
    | none =>
      rw [answer] at ok
      simpa [answer] using ih ok
    | some ttl =>
      simp only [answer, bindOk, expectOk] at ok
      obtain ⟨lease, made, later, read, last⟩ := ok
      cases Except.ok.inj last
      simpa [answer] using List.Forall₂.cons ⟨ttl, answer, made⟩ (ih read)

theorem snapshotSource {db : Etcd K V} {leases revision} (ok : getSubnets codec rpc db = .ok (leases, revision)) :
    List.Forall₂ (LeaseOf codec rpc) (db.kvs.filter (fun kv => (rpc.ttl kv).isSome)) leases := by
  unfold getSubnets at ok
  split at ok <;> try contradiction
  split at ok
  · rename_i empty
    cases Except.ok.inj ok
    rw [List.eq_nil_of_length_eq_zero empty]
    exact .nil
  · simp only [bindOk] at ok
    obtain ⟨read, source, last⟩ := ok
    cases Except.ok.inj last
    exact readSource source

theorem matched {α β : Type} {R : α → β → Prop} {xs : List α} {ys : List β} (all : List.Forall₂ R xs ys) {x : α}
    (member : x ∈ xs) : ∃ y ∈ ys, R x y := by
  induction all with
  | nil => simp at member
  | cons head _ ih =>
    rcases List.mem_cons.mp member with rfl | later
    · exact ⟨_, List.mem_cons_self, head⟩
    · obtain ⟨y, mem, made⟩ := ih later
      exact ⟨y, List.mem_cons_of_mem _ mem, made⟩

theorem snapshotSound {db : Etcd K V} {leases revision lease}
    (ok : getSubnets codec rpc db = .ok (leases, revision)) (member : lease ∈ leases) :
    ∃ kv ∈ db.kvs, LeaseOf codec rpc kv lease := by
  obtain ⟨kv, mem, made⟩ := matched (snapshotSource ok).flip member
  exact ⟨kv, (List.mem_filter.mp mem).1, made⟩

theorem snapshotComplete {db : Etcd K V} {leases revision kv}
    (ok : getSubnets codec rpc db = .ok (leases, revision)) (answered : (rpc.ttl kv).isSome)
    (member : kv ∈ db.kvs) : ∃ lease ∈ leases, LeaseOf codec rpc kv lease :=
  matched (snapshotSource ok) (List.mem_filter.mpr ⟨member, answered⟩)

theorem getSubnetSource [DecidableEq K] {db : Etcd K V} {sn lease revision}
    (ok : getSubnet codec sn rpc db = .ok (some (lease, revision))) :
    revision = db.revision ∧ ∃ kv, db.get (codec.key sn) = some kv ∧ LeaseOf codec rpc kv lease := by
  unfold getSubnet at ok
  split at ok <;> try contradiction
  cases found : db.get (codec.key sn) with
  | none => simp [found] at ok
  | some kv =>
    simp only [found] at ok
    cases answer : rpc.ttl kv with
    | none => simp [answer] at ok
    | some ttl =>
      simp only [answer, bindOk] at ok
      obtain ⟨made, read, last⟩ := ok
      obtain ⟨rfl, rfl⟩ := Prod.mk.inj (Option.some.inj (Except.ok.inj last))
      exact ⟨rfl, kv, rfl, ttl, answer, read⟩

theorem plainLease {rpc : ReadRpc Ipv4Network LeaseAttrs} {kv lease} (made : LeaseOf Codec.plain rpc kv lease) :
    lease.subnet = kv.key ∧ lease.attrs = kv.value := by
  obtain ⟨ttl, _, made⟩ := made
  simp only [kvToIpLease, Codec.plain, bindOk] at made
  obtain ⟨_, read, attrs, value, exp, _, last⟩ := made
  cases Except.ok.inj read
  cases Except.ok.inj value
  cases Except.ok.inj last
  exact ⟨rfl, rfl⟩

/- A snapshot lists leases of stored entries only. -/
theorem plainStored {rpc : ReadRpc Ipv4Network LeaseAttrs} {db leases revision lease}
    (read : getSubnets Codec.plain rpc db = .ok (leases, revision)) (listed : lease ∈ leases) :
    ∃ kv ∈ db.kvs, lease.subnet = kv.key ∧ lease.attrs = kv.value := by
  obtain ⟨kv, member, made⟩ := snapshotSound read listed
  exact ⟨kv, member, plainLease made⟩

/- It lists every stored entry whose time to live the server tells. -/
theorem plainListed {rpc : ReadRpc Ipv4Network LeaseAttrs} {db leases revision kv}
    (read : getSubnets Codec.plain rpc db = .ok (leases, revision)) (answered : (rpc.ttl kv).isSome)
    (member : kv ∈ db.kvs) : ∃ lease ∈ leases, lease.subnet = kv.key ∧ lease.attrs = kv.value := by
  obtain ⟨lease, listed, made⟩ := snapshotComplete read answered member
  exact ⟨lease, listed, plainLease made⟩

theorem parsedSound {ds : List (Delivery K V)} {events e} (ok : parseEvents codec ds = .ok events) (member : e ∈ events) :
    ∃ d ∈ ds, parseSubnetWatchResp codec d = .ok (some e) := by
  induction ds generalizing events with
  | nil =>
    cases Except.ok.inj ok
    simp at member
  | cons d rest ih =>
    simp only [parseEvents, bindOk] at ok
    obtain ⟨parsed, here, later, read, last⟩ := ok
    cases Except.ok.inj last
    rcases List.mem_append.mp member with first | other
    · rw [Option.mem_toList] at first
      exact ⟨d, List.mem_cons_self, first ▸ here⟩
    · obtain ⟨d', mem, made⟩ := ih read other
      exact ⟨d', List.mem_cons_of_mem _ mem, made⟩

theorem watchedBatch {responses : List (WatchResponse K V)} {batch} (member : batch ∈ (watchSubnet codec responses).1) :
    ∃ resp ∈ responses, parseEvents codec resp.events = .ok batch := by
  induction responses with
  | nil => simp [watchSubnet] at member
  | cons resp rest ih =>
    have later : batch ∈ (watchSubnet codec rest).1 →
        ∃ resp' ∈ resp :: rest, parseEvents codec resp'.events = .ok batch := by
      intro sent
      obtain ⟨resp', mem, parsed⟩ := ih sent
      exact ⟨resp', List.mem_cons_of_mem _ mem, parsed⟩
    unfold watchSubnet at member
    split at member
    · exact later member
    · split at member
      · simp at member
      · rename_i events parsed
        dsimp only at member
        split at member
        · exact later member
        · rcases List.mem_cons.mp member with rfl | sent
          · exact ⟨resp, List.mem_cons_self, parsed⟩
          · exact later sent

theorem plainAnnounced {kv : KeyValue Ipv4Network LeaseAttrs} {ttl now e}
    (ok : parseSubnetWatchResp Codec.plain ⟨.put kv, ttl, now⟩ = .ok (some e)) :
    e.eventType = .put ∧ e.lease.subnet = kv.key ∧ e.lease.attrs = kv.value := by
  simp only [parseSubnetWatchResp, Codec.plain, bindOk, Event.key] at ok
  obtain ⟨_, read, attrs, value, last⟩ := ok
  cases Except.ok.inj read
  cases Except.ok.inj value
  cases ttl with
  | none => contradiction
  | some ttl =>
    simp only at last
    split at last
    · cases last
    · obtain ⟨exp, _, last⟩ := bindOk.mp last
      cases Option.some.inj (Except.ok.inj last)
      exact ⟨rfl, rfl, rfl⟩

theorem plainPut {d : Delivery Ipv4Network LeaseAttrs} {e} (ok : parseSubnetWatchResp Codec.plain d = .ok (some e))
    (put : e.eventType = .put) : ∃ kv, d.event = .put kv ∧ e.lease.subnet = kv.key ∧ e.lease.attrs = kv.value := by
  obtain ⟨event, ttl, now⟩ := d
  cases event with
  | delete key =>
    cases Option.some.inj (Except.ok.inj ok)
    contradiction
  | put kv => exact ⟨kv, rfl, (plainAnnounced ok).2⟩

end Reads
end FlannelNg
