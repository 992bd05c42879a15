import FlannelNg.ClusterSafety
import FlannelNg.LeaseClock
import FlannelNg.Ownership

/-! A cluster against the clock of etcd. What a node counts on is the expiration that etcd
has told it. While no node lets that time pass, its entry cannot end before, and so no
other node can create the block that it still claims. -/
namespace FlannelNg
open Cidr Outcome Runs

section Orderly
variable {N : Type} [DecidableEq N] {build : Build} {publicIp : N → Ipv4Addr} {config : Config} {base : Nat}

/- Nobody changes the configuration, every TTL query is answered, and no block is created
while another node claims it. -/
def Orderly (c : Cluster N) (a : Action N) : Prop := SteadyAnswered a ∧ Uncontested c a

omit [DecidableEq N] in
theorem steadyShared {a : Action N} (steady : SteadyAnswered a) : Shared a := by
  cases a with
  | configure stored => exact steady
  | expire key => trivial
  | act n x => trivial

theorem runOrderly {c : Cluster N} {actions : List (Action N)} (distinct : Function.Injective publicIp)
    (safe : Safe build config c) (owned : Owned build publicIp config base c)
    (permitted : Along (step build publicIp) Orderly c actions) :
    Safe build config (run (step build publicIp) c actions) ∧
      Owned build publicIp config base (run (step build publicIp) c actions) :=
  @runInvariant _ _ _ Orderly (fun c : Cluster N => Safe build config c ∧ Owned build publicIp config base c) _ _
    (fun _ _ kept permitted => ⟨stepSafe kept.1 permitted.1,
      stepOwned distinct kept.2 (steadyShared permitted.1) permitted.2⟩) ⟨safe, owned⟩ permitted

end Orderly

/-- When etcd ends each lease that it grants, and how much later a node may think so. -/
structure Deadlines where
  ends : Int → Nat
  latency : Nat

/-- An action, and the time at which etcd sees it. -/
structure Timed (N : Type) where
  now : Nat
  action : Action N

/- The lease that a node goes by: it holds it, or is about to put it again. -/
def Local.counted : Local → Option Lease
  | .deciding _ (.reuse lease) => some lease
  | .holding lease _ => some lease
  | _ => none

namespace Deadlines

section Local
variable (d : Deadlines)

/- The entry is there, and its etcd lease does not end before. -/
def Lasts (db : Store) (sn : Ipv4Network) (expiration : Nat) : Prop :=
  ∃ kv, db.get sn = some kv ∧ expiration ≤ d.ends kv.lease + d.latency

/- The entry is there as long as it was. -/
def Grows (db after : Store) (sn : Ipv4Network) : Prop :=
  ∀ kv, db.get sn = some kv → ∃ kv', after.get sn = some kv' ∧ d.ends kv.lease ≤ d.ends kv'.lease

/- Of the entries ever put under a key, the one that is there ends last. -/
def Newest (db : Store) : Prop :=
  ∀ kv, .put kv ∈ db.log.flatten → ∀ kv', db.get kv.key = some kv' → d.ends kv.lease ≤ d.ends kv'.lease

/-- A grant is of a lease that no entry has, that ends after those of all entries so far, and
not before the node will think, but for the latency. -/
structure Grants (db : Store) (rpc : WriteRpc) : Prop where
  fresh : FreshGrant rpc db
  told : ∀ id ttl exp, rpc.grant = .ok (id, ttl) → rpc.reported = .ok exp → exp ≤ d.ends id + d.latency
  later : ∀ id ttl, rpc.grant = .ok (id, ttl) → ∀ kv, kv ∈ db.kvs ∨ .put kv ∈ db.log.flatten → d.ends kv.lease ≤ d.ends id

/- No answer shows an entry that lasts longer than it does, but for the latency. -/
def Told (db : Store) (rpc : ReadRpc Ipv4Network LeaseAttrs) : Prop :=
  ∀ kv ∈ db.kvs, ∀ lease, LeaseOf Codec.plain rpc kv lease → lease.expiration ≤ d.ends kv.lease + d.latency

def Answered (db : Store) (answer : Event Ipv4Network LeaseAttrs → Option Int × SystemTime) : Prop :=
  ∀ kv e, .put kv ∈ db.log.flatten → parseSubnetWatchResp Codec.plain ⟨.put kv, (answer (.put kv)).1, (answer (.put kv)).2⟩ = .ok (some e) →
    e.lease.expiration ≤ d.ends kv.lease + d.latency

def Promised (db : Store) : NodeAction → Prop
  | .read rpc _ _ => d.Told db rpc
  | .watch rpc => d.Told db rpc
  | .write rpc => d.Grants db rpc
  | .renew rpc => d.Grants db rpc ∧ ¬rpc.AppliedUnseen
  | .fetch _ answer => d.Answered db answer
  | _ => True

/- What a node counts on is there. -/
def Backed (db : Store) : Local → Prop
  | .deciding _ (.reuse lease) => d.Lasts db lease.subnet lease.expiration
  | .holding lease none => d.Lasts db lease.subnet lease.expiration
  | .holding lease (some w) => d.Lasts db lease.subnet lease.expiration ∧
      w.Holds (fun l => d.Lasts db lease.subnet l.expiration)
  | _ => True

end Local

variable {d : Deadlines} {build : Build} {config : Config} {ip : Ipv4Addr} {db after : Store} {l l' : Local} {x : NodeAction}
variable {stored : Res Config} {sn : Ipv4Network} {attrs : LeaseAttrs} {rpc : WriteRpc} {id : Int} {expiration : Nat}

theorem claimsCounted (claims : l.claims = some sn) : ∃ lease, l.counted = some lease ∧ lease.subnet = sn := by
  unfold Local.claims at claims
  split at claims
  · exact ⟨_, rfl, Option.some.inj claims⟩
  · exact ⟨_, rfl, Option.some.inj claims⟩
  · contradiction

theorem countedLasts {lease : Lease} (backed : d.Backed db l) (counted : l.counted = some lease) :
    d.Lasts db lease.subnet lease.expiration := by
  unfold Local.counted at counted
  split at counted
  · cases counted
    exact backed
  · rename_i w
    cases counted
    cases w with
    | none => exact backed
    | some w => exact backed.1
  · contradiction

theorem growsSame (same : after.get sn = db.get sn) : d.Grows db after sn :=
  fun kv found => ⟨kv, same.trans found, Nat.le_refl _⟩

theorem lastsGrows (grows : d.Grows db after sn) (lasts : d.Lasts db sn expiration) : d.Lasts after sn expiration := by
  obtain ⟨kv, found, late⟩ := lasts
  obtain ⟨kv', found', later⟩ := grows kv found
  exact ⟨kv', found', Nat.le_trans late (Nat.add_le_add_right later _)⟩

theorem backedGrows (grows : ∀ sn, l.claims = some sn → d.Grows db after sn) (backed : d.Backed db l) : d.Backed after l := by
  cases l with
  | idle => trivial
  | started config attrs => trivial
  | deciding attrs choice =>
    cases choice with
    | create sn => trivial
    | reuse lease => exact lastsGrows (grows _ rfl) backed
  | holding lease w =>
    have own := grows lease.subnet rfl
    cases w with
    | none => exact lastsGrows own backed
    | some w => exact ⟨lastsGrows own backed.1, fun batch member e inside put => lastsGrows own (backed.2 batch member e inside put)⟩

theorem newestDelete {p : KeyValue Ipv4Network LeaseAttrs → Bool} (newest : d.Newest db) :
    d.Newest (db.deleteWhere Codec.plain p) := by
  intro kv member kv' found
  refine newest kv ?_ kv' (Etcd.getOfDeleteWhere found).1
  rcases @Etcd.logDeleteWhere _ _ _ Codec.plain db p with same | ⟨ks, more⟩
  · rwa [same] at member
  · rw [more, List.flatten_append, List.mem_append] at member
    exact member.resolve_right (by simp)

theorem newestChanged (changed : Changed Codec.plain (fun kv => kv.lease = id) db after)
    (later : ∀ kv, .put kv ∈ db.log.flatten → d.ends kv.lease ≤ d.ends id) (newest : d.Newest db) : d.Newest after := by
  induction changed with
  | same => exact newest
  | @put after new before granted ih =>
    intro kv member kv' found
    rw [Etcd.logPut, List.flatten_append, List.mem_append] at member
    rw [Etcd.getPut] at found
    split at found
    · cases Option.some.inj found
      rw [granted]
      rcases member with old | new
      · obtain ⟨txns, log, puts⟩ := changedLog before
        rw [log, List.flatten_append, List.mem_append] at old
        rcases old with first | more
        · exact later kv first
        · exact Nat.le_of_eq (congrArg d.ends (puts kv more))
      · cases Event.put.inj (List.mem_singleton.mp (by simpa using new))
        exact Nat.le_of_eq (congrArg d.ends granted)
    · rename_i other
      rcases member with old | new
      · exact ih kv old kv' found
      · cases Event.put.inj (List.mem_singleton.mp (by simpa using new))
        exact absurd rfl other
  | delete _ ih => exact newestDelete ih

theorem updateGranted (sn : Ipv4Network) (attrs : LeaseAttrs) : (updateSubnet Codec.plain sn attrs rpc db).2 = db ∨
    ∃ id ttl, rpc.grant = .ok (id, ttl) ∧ Changed Codec.plain (fun kv => kv.lease = id) db (updateSubnet Codec.plain sn attrs rpc db).2 := by
  unfold updateSubnet
  cases granted : rpc.grant with
  | error message => exact .inl rfl
  | ok grant =>
    obtain ⟨id, ttl⟩ := grant
    refine .inr ⟨id, ttl, rfl, ?_⟩
    dsimp only
    cases rpc.answer with
    | answered => exact .put .same rfl
    | rejected message => exact compensateChanged .same
    | lost message => exact compensateChanged (.put .same rfl)

theorem createGranted (sn : Ipv4Network) (attrs : LeaseAttrs) : (createSubnet Codec.plain sn attrs rpc db).2 = db ∨
    ∃ id ttl, rpc.grant = .ok (id, ttl) ∧ Changed Codec.plain (fun kv => kv.lease = id) db (createSubnet Codec.plain sn attrs rpc db).2 := by
  unfold createSubnet
  cases granted : rpc.grant with
  | error message => exact .inl rfl
  | ok grant =>
    obtain ⟨id, ttl⟩ := grant
    refine .inr ⟨id, ttl, rfl, ?_⟩
    have txn : Changed Codec.plain (fun kv => kv.lease = id) db (db.putIfAbsent Codec.plain ⟨sn, attrs, id⟩).2 := by
      unfold Etcd.putIfAbsent
      split
      · exact .put .same rfl
      · exact .same
    dsimp only
    cases rpc.answer with
    | rejected message => exact compensateChanged .same
    | lost message => exact compensateChanged txn
    | answered =>
      dsimp only
      split
      · exact txn
      · exact compensateChanged txn

/- A write changes the store with entries of the lease that it was granted. -/
theorem movesGranted (moves : Moves build stored ip db l x l' after) : after = db ∨
    ∃ rpc id ttl, (x = .write rpc ∨ x = .renew rpc) ∧ rpc.grant = .ok (id, ttl) ∧
      Changed Codec.plain (fun kv => kv.lease = id) db after := by
  have committed : ∀ {attrs choice rpc result}, commitChoice Codec.plain attrs rpc choice db = (result, after) → after = db ∨
      ∃ id ttl, rpc.grant = .ok (id, ttl) ∧ Changed Codec.plain (fun kv => kv.lease = id) db after := by
    intro attrs choice rpc result ok
    cases (Prod.mk.inj ok).2
    cases choice with
    | reuse lease => exact updateGranted lease.subnet attrs
    | create sn => exact createGranted sn attrs
  have renewed : ∀ {lease rpc result}, renewLease Codec.plain lease rpc db = (result, after) → after = db ∨
      ∃ id ttl, rpc.grant = .ok (id, ttl) ∧ Changed Codec.plain (fun kv => kv.lease = id) db after := by
    intro lease rpc result ok
    cases (Prod.mk.inj ok).2
    exact updateGranted lease.subnet lease.attrs
  cases moves with
  | stay | stop | start | read | watching | fetched | delivered => exact .inl rfl
  | won ok | lost ok =>
    exact (committed ok).imp_right (fun ⟨id, ttl, granted, changed⟩ => ⟨_, id, ttl, .inl rfl, granted, changed⟩)
  | renewed ok | unrenewed ok =>
    exact (renewed ok).imp_right (fun ⟨id, ttl, granted, changed⟩ => ⟨_, id, ttl, .inr rfl, granted, changed⟩)

theorem movesNewest (promised : d.Promised db x) (moves : Moves build stored ip db l x l' after) (newest : d.Newest db) :
    d.Newest after := by
  rcases movesGranted moves with rfl | ⟨rpc, id, ttl, written, granted, changed⟩
  · exact newest
  · have grants : d.Grants db rpc := by
      rcases written with rfl | rfl
      · exact promised
      · exact promised.1
    exact newestChanged changed (fun kv member => grants.later id ttl granted kv (.inr member)) newest

/- No write touches an entry that its node does not claim. -/
theorem movesElsewhere (promised : d.Promised db x) (moves : Moves build stored ip db l x l' after) (other : l.claims ≠ some sn)
    (present : db.get sn ≠ none) : after.get sn = db.get sn := by
  have committed : ∀ {attrs choice rpc result}, FreshGrant rpc db → (Local.deciding attrs choice).claims ≠ some sn →
      commitChoice Codec.plain attrs rpc choice db = (result, after) → after.get sn = db.get sn := by
    intro attrs choice rpc result fresh other ok
    cases (Prod.mk.inj ok).2
    cases choice with
    | reuse lease => exact updateElsewhere fresh (fun same => other (congrArg some same))
    | create sn' => exact createElsewhere fresh (.inl present)
  have renewed : ∀ {lease rpc result}, FreshGrant rpc db → lease.subnet ≠ sn →
      renewLease Codec.plain lease rpc db = (result, after) → after.get sn = db.get sn := by
    intro lease rpc result fresh other ok
    cases (Prod.mk.inj ok).2
    exact updateElsewhere fresh other
  cases moves with
  | stay | stop | start | read | watching | fetched | delivered => rfl
  | won ok => exact committed promised.fresh other ok
  | lost failed => exact committed promised.fresh other failed
  | renewed ok => exact renewed promised.1.fresh (fun same => other (congrArg some same)) ok
  | unrenewed failed => exact renewed promised.1.fresh (fun same => other (congrArg some same)) failed

theorem growsPut {value : LeaseAttrs} (later : ∀ kv ∈ db.kvs, d.ends kv.lease ≤ d.ends id) :
    d.Grows db (db.put Codec.plain ⟨sn, value, id⟩) sn :=
  fun kv found => ⟨⟨sn, value, id⟩, Etcd.getPut.trans (if_pos rfl), later kv (Etcd.getSome found).1⟩

/- A renewal puts the entry with a later end, or leaves it. -/
theorem renewGrows {lease : Lease} (grants : d.Grants db rpc) (seen : ¬rpc.AppliedUnseen) :
    d.Grows db (renewLease Codec.plain lease rpc db).2 lease.subnet := by
  cases given : rpc.renewed with
  | none => exact growsSame (Held.failedKeepsEntry given seen grants.fresh)
  | some secs =>
    obtain ⟨id, ttl, granted, _, put⟩ := @Held.renewedPuts rpc lease db secs given
    rw [put]
    exact growsPut (fun kv member => grants.later id ttl granted kv (.inl member))

/- A write that succeeds puts the entry with the lease that it was granted. -/
theorem writtenGrants {choice : Choice} {exp : SystemTime} (ok : registryWrite Codec.plain attrs rpc db choice = (.ok exp, after)) :
    ∃ id ttl, rpc.grant = .ok (id, ttl) ∧ rpc.reported = .ok exp ∧ after = db.put Codec.plain ⟨choice.subnet, attrs, id⟩ := by
  cases choice with
  | reuse lease =>
    obtain ⟨reported, _⟩ := updated ok
    simp only [registryWrite, updateSubnet] at ok
    cases granted : rpc.grant with
    | error message => simp [granted] at ok
    | ok grant =>
      rw [granted] at ok
      cases answer : rpc.answer <;> simp only [answer, Prod.mk.injEq, reduceCtorEq, false_and] at ok
      exact ⟨grant.1, grant.2, rfl, reported, ok.2.symm⟩
  | create sn =>
    obtain ⟨reported, absent, _⟩ := created ok
    simp only [registryWrite, createSubnet] at ok
    cases granted : rpc.grant with
    | error message => simp [granted] at ok
    | ok grant =>
      rw [granted] at ok
      cases answer : rpc.answer <;> simp only [answer, Prod.mk.injEq, reduceCtorEq, false_and] at ok
      have free : (db.get sn).isNone = true := Option.isNone_iff_eq_none.mpr absent
      simp only [Etcd.putIfAbsent, Codec.plain, id_eq, free, if_true, Prod.mk.injEq] at ok
      exact ⟨grant.1, grant.2, rfl, reported, ok.2.symm⟩

theorem commitBacked {choice : Choice} {lease : Lease} (grants : d.Grants db rpc) (backed : d.Backed db (.deciding attrs choice))
    (ok : commitChoice Codec.plain attrs rpc choice db = (.ok lease, after)) : d.Lasts after lease.subnet lease.expiration := by
  unfold commitChoice at ok
  cases written : registryWrite Codec.plain attrs rpc db choice with
  | mk result db' =>
    rw [written] at ok
    cases result with
    | error stop => simp [Except.map] at ok
    | ok exp =>
      simp only [Except.map, Prod.mk.injEq, Except.ok.injEq] at ok
      obtain ⟨rfl, rfl⟩ := ok
      obtain ⟨id, ttl, granted, reported, rfl⟩ := writtenGrants written
      cases choice with
      | create sn => exact ⟨_, Etcd.getPut.trans (if_pos rfl), grants.told id ttl exp granted reported⟩
      | reuse lease => exact lastsGrows (growsPut (fun kv member => grants.later id ttl granted kv (.inl member))) backed

theorem renewBacked {lease next : Lease} (grants : d.Grants db rpc)
    (ok : renewLease Codec.plain lease rpc db = (.ok next, after)) : d.Lasts after next.subnet next.expiration := by
  unfold renewLease at ok
  cases written : updateSubnet Codec.plain lease.subnet lease.attrs rpc db with
  | mk result db' =>
    rw [written] at ok
    cases result with
    | error stop => simp [Except.map] at ok
    | ok exp =>
      simp only [Except.map, Prod.mk.injEq, Except.ok.injEq] at ok
      obtain ⟨rfl, rfl⟩ := ok
      obtain ⟨id, ttl, granted, reported, rfl⟩ := @writtenGrants db db' lease.attrs rpc (.reuse lease) exp written
      exact ⟨_, Etcd.getPut.trans (if_pos rfl), grants.told id ttl exp granted reported⟩

theorem decidedBacked {fuel pick : Nat} {read : ReadRpc Ipv4Network LeaseAttrs} {choice : Choice} (told : d.Told db read)
    (ok : decideLease Codec.plain build fuel config ip read pick db = .ok choice) : d.Backed db (.deciding attrs choice) := by
  obtain ⟨leases, revision, listed, chosen⟩ := decided ok
  cases choice with
  | create sn => trivial
  | reuse lease =>
    obtain ⟨first, _⟩ := choseReuse chosen
    obtain ⟨kv, member, made⟩ := snapshotSound listed (List.mem_of_find?_eq_some first)
    have same : lease.subnet = kv.key := (plainLease made).1
    exact ⟨kv, same ▸ Etcd.memIff.mp member, told kv member lease made⟩

theorem watchBacked {lease : Lease} {read : ReadRpc Ipv4Network LeaseAttrs} (told : d.Told db read) :
    (watchLease lease read db).Holds (fun l => d.Lasts db lease.subnet l.expiration) := by
  unfold watchLease
  intro batch member e inside put
  split at member
  · rename_i l idx ok
    obtain ⟨_, kv, found, made⟩ := getSubnetSource ok
    cases List.mem_singleton.mp member
    cases List.mem_singleton.mp inside
    exact ⟨kv, found, told kv (Etcd.getSome found).1 l made⟩
  · simp at member

/- The entry that is there ends no earlier than those which the watch tells of. -/
theorem fetchBacked {lease : Lease} {w : OwnWatch} {count : Nat} {answer : Event Ipv4Network LeaseAttrs → Option Int × SystemTime}
    (answered : d.Answered db answer) (newest : d.Newest db) (subnet : lease.subnet = w.subnet)
    (length : w.subnet.prefixLen = config.subnetLen)
    (lengths : ∀ kv, .put kv ∈ (db.log.drop w.next).flatten → kv.key.prefixLen = config.subnetLen)
    (there : d.Lasts db lease.subnet lease.expiration) (holds : w.Holds (fun l => d.Lasts db lease.subnet l.expiration)) :
    (w.fetch count answer db).Holds (fun l => d.Lasts db lease.subnet l.expiration) := by
  intro batch member e inside put
  have received : batch ∈ w.inbox ∨
      batch ∈ (watchSubnet Codec.plain [⟨w.deliveries count answer db, db.revision, false⟩]).1 :=
    List.mem_append.mp member
  rcases received with old | new
  · exact holds batch old e inside put
  · obtain ⟨resp, mem, parsed⟩ := watchedBatch new
    cases List.mem_singleton.mp mem
    obtain ⟨delivery, delivered, made⟩ := parsedSound parsed inside
    obtain ⟨kv, event, _, _⟩ := plainPut made put
    obtain ⟨behind, start⟩ := OwnWatch.deliveriesPut delivered event
    obtain ⟨txn, later, logged⟩ := List.mem_flatten.mp behind
    have log : .put kv ∈ db.log.flatten := List.mem_flatten.mpr ⟨txn, List.mem_of_mem_drop later, logged⟩
    obtain ⟨ev, _, rfl⟩ := List.mem_map.mp delivered
    obtain rfl : ev = .put kv := event
    have key := subnetNamePrefix start (length.trans (lengths kv behind).symm)
    obtain ⟨kv', found, _⟩ := there
    refine ⟨kv', found, Nat.le_trans (answered kv e log made) (Nat.add_le_add_right (newest kv log kv' ?_) _)⟩
    rw [← key, ← subnet]
    exact found

theorem movesBacked {base : Nat} (promised : d.Promised db x) (own : LocalOwn config ip db l) (newest : d.Newest db)
    (since : LocalSince base db l)
    (lengths : ∀ kv, .put kv ∈ (db.log.drop base).flatten → kv.key.prefixLen = config.subnetLen)
    (moves : Moves build stored ip db l x l' after) (backed : d.Backed db l) : d.Backed after l' := by
  cases moves with
  | stay => exact backed
  | stop | start | lost => trivial
  | read chosen => exact decidedBacked promised chosen
  | won ok => exact commitBacked promised backed ok
  | @renewed lease w rpc next _ ok =>
    have grows := @renewGrows d db rpc lease promised.1 promised.2
    rw [ok] at grows
    have lasts := renewBacked promised.1 ok
    cases w with
    | none => exact lasts
    | some w =>
      refine ⟨lasts, fun batch member e inside put => ?_⟩
      rw [(renewKeeps ok).1]
      exact lastsGrows grows (backed.2 batch member e inside put)
  | @unrenewed lease w rpc stop _ failed =>
    have grows := @renewGrows d db rpc lease promised.1 promised.2
    rw [failed] at grows
    exact backedGrows (fun sn claims => Option.some.inj claims ▸ grows) backed
  | watching => exact ⟨backed, watchBacked promised⟩
  | fetched live =>
    obtain ⟨_, subnet, length, _, _⟩ := own
    exact ⟨backed.1, fetchBacked promised newest subnet length
      (fun kv behind => lengths kv (behindSince (since live) behind)) backed.1 backed.2⟩
  | @delivered lease w batch rest next received followed =>
    obtain ⟨_, subnet, _, inbox, _⟩ := own
    have held := OwnWatch.followed (P := fun l => l.subnet = lease.subnet ∧ d.Lasts db lease.subnet l.expiration) followed
      ⟨rfl, backed.1⟩ (fun e inside put => ⟨(inbox batch (by simp [received]) e inside put).2.trans subnet.symm,
        backed.2 batch (by simp [received]) e inside put⟩)
    refine ⟨held.1 ▸ held.2, fun other member e inside put => ?_⟩
    rw [held.1]
    exact backed.2 other (by simp [received, member]) e inside put

section Run
variable {N : Type} [DecidableEq N] {publicIp : N → Ipv4Addr} {c : Cluster N} {a : Timed N}

def timedStep (build : Build) (publicIp : N → Ipv4Addr) (c : Cluster N) (a : Timed N) : Cluster N :=
  step build publicIp c a.action

/- Etcd ends an entry only after the end of its lease. -/
def Owed (d : Deadlines) (c : Cluster N) (now : Nat) : Action N → Prop
  | .configure _ => True
  | .expire key => ∀ kv ∈ c.db.get key, d.ends kv.lease < now
  | .act _ x => d.Promised c.db x

/-- At no action does a node go by a lease that is over, or over within the latency, as far as it knows. -/
structure Timely (d : Deadlines) (c : Cluster N) (a : Timed N) : Prop where
  steady : SteadyAnswered a.action
  alive : ∀ n, ∀ lease ∈ (c.node n).counted, a.now + d.latency ≤ lease.expiration
  owed : Owed d c a.now a.action

structure InForce (d : Deadlines) (c : Cluster N) : Prop where
  backed : ∀ n, d.Backed c.db (c.node n)
  newest : d.Newest c.db

omit [DecidableEq N] in
theorem claimedThere (inForce : InForce d c) {n : N} (claims : (c.node n).claims = some sn) : ∃ kv, c.db.get sn = some kv := by
  obtain ⟨lease, counted, rfl⟩ := claimsCounted claims
  obtain ⟨kv, found, _⟩ := countedLasts (inForce.backed n) counted
  exact ⟨kv, found⟩

omit [DecidableEq N] in
theorem inForceUncontested (inForce : InForce d c) (action : Action N) : Uncontested c action := by
  cases action with
  | configure stored => trivial
  | expire key => trivial
  | act n x =>
    cases x with
    | write rpc =>
      simp only [Uncontested]
      split
      · intro _ absent m _ claims
        obtain ⟨kv, found⟩ := claimedThere inForce claims
        exact absurd (absent.symm.trans found) (by simp)
      · trivial
    | start | read | renew | watch | fetch | deliver | restart => trivial

/- What lapses is not what a node goes by. -/
theorem expireGrows {now : Nat} {key : Ipv4Network} (backed : d.Backed db l)
    (alive : ∀ lease ∈ l.counted, now + d.latency ≤ lease.expiration)
    (lapses : ∀ kv ∈ db.get key, d.ends kv.lease < now) (claims : l.claims = some sn) :
    d.Grows db (db.expire Codec.plain key) sn := by
  obtain ⟨lease, counted, rfl⟩ := claimsCounted claims
  obtain ⟨kv, found, late⟩ := countedLasts backed counted
  refine growsSame ?_
  have other : kv.key ≠ key := by
    intro same
    have own := (Etcd.getSome found).2
    have ended := lapses kv (by rw [← same, own]; exact found)
    have before := alive lease counted
    omega
  rw [Etcd.expire, Etcd.getDeleteWhere, found]
  simp [Option.filter, other]

theorem stepInForce (owned : Owned build publicIp config base c) (timely : Timely d c a) (inForce : InForce d c) :
    InForce d (timedStep build publicIp c a) := by
  obtain ⟨now, action⟩ := a
  cases action with
  | configure stored => exact timely.steady.elim
  | expire key =>
    refine ⟨fun n => ?_, ?_⟩
    · exact backedGrows (fun sn claims => expireGrows (inForce.backed n) (timely.alive n) timely.owed claims) (inForce.backed n)
    · exact newestDelete inForce.newest
  | act n x =>
    have promised : d.Promised c.db x := timely.owed
    obtain ⟨l, node, moves⟩ := @stepAct N _ build publicIp c n x
    refine ⟨fun m => ?_, movesNewest promised moves inForce.newest⟩
    change d.Backed _ ((step build publicIp c (.act n x)).node m)
    rw [node]
    by_cases same : m = n
    · subst same
      rw [Function.update_self]
      exact movesBacked promised (owned.nodes m) inForce.newest (owned.since.nodes m) owned.lengths moves (inForce.backed m)
    · rw [Function.update_of_ne same]
      refine backedGrows (fun sn claims => growsSame ?_) (inForce.backed m)
      obtain ⟨kv, found⟩ := claimedThere inForce claims
      exact movesElsewhere promised moves (fun claims' => same (owned.unique m n sn claims claims')) (by simp [found])

/-- What a node holds is its own entry, and clear of all that others hold. -/
structure HoldsAlone (publicIp : N → Ipv4Addr) (c : Cluster N) (n : N) (lease : Lease) : Prop where
  entry : ∃ kv, c.db.get lease.subnet = some kv ∧ kv.value.publicIp = publicIp n
  clear : ∀ m other w, m ≠ n → c.node m = .holding other w → lease.subnet.Disjoint other.subnet

omit [DecidableEq N] in
theorem inForceAlone {n : N} {lease : Lease} {w : Option OwnWatch} (safe : Safe build config c)
    (owned : Owned build publicIp config base c) (inForce : InForce d c) (holds : c.node n = .holding lease w) :
    HoldsAlone publicIp c n lease := by
  have claims : (c.node n).claims = some lease.subnet := congrArg Local.claims holds
  obtain ⟨kv, found⟩ := claimedThere inForce claims
  refine ⟨⟨kv, found, owned.claimed n _ kv claims found⟩, ?_⟩
  intro m other w' different holds'
  have claims' : (c.node m).claims = some other.subnet := congrArg Local.claims holds'
  obtain ⟨kv', found'⟩ := claimedThere inForce claims'
  obtain ⟨stored, key⟩ := Etcd.getSome found
  obtain ⟨stored', key'⟩ := Etcd.getSome found'
  have apart : kv.key ≠ kv'.key := by
    intro same
    rw [← key', ← same, key] at claims'
    exact different (owned.unique m n _ claims' claims)
  rw [← key, ← key']
  exact safe.apart.disjoint kv stored kv' stored' apart

/- While nodes renew in time, or stop, no block is created that another one still claims, and no
two of them hold overlapping subnets. -/
theorem timelyHoldsAlone {actions : List (Timed N)} (distinct : Function.Injective publicIp)
    (accepted : getNetworkConfig build c.stored = .ok config) (apart : Apart c.db) (newest : d.Newest c.db)
    (idle : ∀ n, c.node n = .idle) (timely : Along (timedStep build publicIp) (Timely d) c actions) :
    Along (step build publicIp) Orderly c (actions.map Timed.action) ∧
      ∀ n lease w, (run (step build publicIp) c (actions.map Timed.action)).node n = .holding lease w →
        HoldsAlone publicIp (run (step build publicIp) c (actions.map Timed.action)) n lease := by
  have safe : Safe build config c := ⟨accepted, apart, fun n => idle n ▸ trivial⟩
  have owned : Owned build publicIp config c.db.log.length c := idleOwned accepted idle
  have inForce : InForce d c := ⟨fun n => idle n ▸ trivial, newest⟩
  have kept : ∀ {base} (c : Cluster N) (a : Timed N), Owned build publicIp config base c ∧ InForce d c → Timely d c a →
      Owned build publicIp config base (timedStep build publicIp c a) ∧ InForce d (timedStep build publicIp c a) := by
    intro base c a ⟨owned, inForce⟩ timely
    exact ⟨stepOwned distinct owned (steadyShared timely.steady) (inForceUncontested inForce a.action),
      stepInForce owned timely inForce⟩
  have orderly : Along (step build publicIp) Orderly c (actions.map Timed.action) := alongMap.mp
    (alongInvariant kept (fun _ a kept timely => ⟨timely.steady, inForceUncontested kept.2 a.action⟩) ⟨owned, inForce⟩ timely)
  have last := runInvariant kept ⟨owned, inForce⟩ timely
  have reached : run (timedStep build publicIp) c actions = run (step build publicIp) c (actions.map Timed.action) :=
    @runMap _ _ (step build publicIp) c _ Timed.action actions
  rw [reached] at last
  exact ⟨orderly, fun n lease w holds => inForceAlone (runOrderly distinct safe owned orderly).1 last.1 last.2 holds⟩

end Run

theorem addedSecs {now exp : SystemTime} {secs : Nat} (added : now.addSecs secs = .ok exp) : exp = now + secs * SystemTime.nanos := by
  unfold SystemTime.addSecs at added
  split at added
  · exact (Except.ok.inj added).symm
  · contradiction

private def endsBy (d : Deadlines) (id : Int) : Event Ipv4Network LeaseAttrs → Bool
  | .put kv => d.ends kv.lease ≤ d.ends id
  | .delete _ => true

private def answersInTime (d : Deadlines) (answer : Event Ipv4Network LeaseAttrs → Option Int × SystemTime) :
    Event Ipv4Network LeaseAttrs → Bool
  | .put kv => (answer (.put kv)).1.all (fun ttl => (answer (.put kv)).2 + asU64 ttl * SystemTime.nanos ≤ d.ends kv.lease + d.latency)
  | .delete _ => true

private theorem quietGrants {now : SystemTime} (fresh : ∀ kv ∈ db.kvs, kv.lease ≠ id)
    (told : now + asU64 86400 * SystemTime.nanos ≤ d.ends id + d.latency) (present : ∀ kv ∈ db.kvs, d.ends kv.lease ≤ d.ends id)
    (logged : db.log.flatten.all (endsBy d id) = true) : d.Grants db (WriteRpc.quiet id now) := by
  refine ⟨?_, ?_, ?_⟩
  · intro _ _ granted
    cases granted
    exact fresh
  · intro _ _ exp granted reported
    cases granted
    have added : now.addSecs (asU64 86400) = .ok exp := reported
    rw [addedSecs added]
    exact told
  · intro _ _ granted kv known
    cases granted
    rcases known with stored | put
    · exact present kv stored
    · exact of_decide_eq_true (List.all_eq_true.mp logged _ put)

private theorem quietTold {ttl : Int} {now : SystemTime}
    (inTime : ∀ kv ∈ db.kvs, now + asU64 ttl * SystemTime.nanos ≤ d.ends kv.lease + d.latency) :
    d.Told db (ReadRpc.quiet ttl now) := by
  intro kv member lease leaseOf
  obtain ⟨_, answered, made⟩ := leaseOf
  cases answered
  simp only [kvToIpLease, bindOk] at made
  obtain ⟨_, _, _, _, exp, added, last⟩ := made
  have added : now.addSecs (asU64 ttl) = .ok exp := added
  cases Except.ok.inj last
  rw [addedSecs added]
  exact inTime kv member

private theorem announcedEnd {kv : KeyValue Ipv4Network LeaseAttrs} {ttl : Int} {now : SystemTime} {e : LeaseWatchEvent}
    (made : parseSubnetWatchResp Codec.plain ⟨.put kv, some ttl, now⟩ = .ok (some e)) :
    now.addSecs (asU64 ttl) = .ok e.lease.expiration := by
  simp only [parseSubnetWatchResp, bindOk] at made
  obtain ⟨_, _, _, _, made⟩ := made
  split at made
  · cases made
  · obtain ⟨exp, added, last⟩ := bindOk.mp made
    cases Option.some.inj (Except.ok.inj last)
    exact added

private theorem answeredInTime {answer : Event Ipv4Network LeaseAttrs → Option Int × SystemTime}
    (inTime : db.log.flatten.all (answersInTime d answer) = true) : d.Answered db answer := by
  intro kv e put made
  have inTime : answersInTime d answer (.put kv) = true := List.all_eq_true.mp inTime _ put
  rw [answersInTime] at inTime
  generalize answer (.put kv) = answered at made inTime
  obtain ⟨ttl, now⟩ := answered
  cases ttl with
  | none =>
    simp only [parseSubnetWatchResp, bindOk] at made
    obtain ⟨_, _, _, _, made⟩ := made
    contradiction
  | some ttl =>
    rw [addedSecs (announcedEnd made)]
    rw [Option.all_some] at inTime
    exact of_decide_eq_true inTime

private def seconds (s : Nat) : Nat := s * SystemTime.nanos

/- Each lease is granted for a day. -/
private def dayDeadlines : Deadlines where
  ends := fun id => seconds (if id = 1 then 86400 else if id = 2 then 86410 else if id = 3 then 169200 else 172813)
  latency := seconds 1

private def dayAnswer : Event Ipv4Network LeaseAttrs → Option Int × SystemTime
  | .put kv => (some (if kv.lease = 3 then 86399 else 3599), seconds 82801)
  | .delete _ => (none, seconds 82801)

private def dayCluster : Cluster Bool := quietCluster Etcd.empty settledEmpty

/- The one node renews an hour before the end, the other one stops and comes back a day later. -/
private def dayActions : List (Timed Bool) := [
  ⟨0, .act false (.start {})⟩,
  ⟨0, .act false (.read (ReadRpc.quiet 86400 0) 9 0)⟩,
  ⟨0, .act false (.write (WriteRpc.quiet 1 0))⟩,
  ⟨seconds 1, .act false (.watch (ReadRpc.quiet 86400 0))⟩,
  ⟨seconds 10, .act true (.start {})⟩,
  ⟨seconds 10, .act true (.read (ReadRpc.quiet 86390 (seconds 10)) 9 0)⟩,
  ⟨seconds 10, .act true (.write (WriteRpc.quiet 2 (seconds 10)))⟩,
  ⟨seconds 82800, .act false (.renew (WriteRpc.quiet 3 (seconds 82800)))⟩,
  ⟨seconds 82801, .act false (.fetch 3 dayAnswer)⟩,
  ⟨seconds 82802, .act false .deliver⟩,
  ⟨seconds 82803, .act false .deliver⟩,
  ⟨seconds 82804, .act true .restart⟩,
  ⟨seconds 86412, .expire (cidr 0x0A000008 30)⟩,
  ⟨seconds 86412, .act true (.start {})⟩,
  ⟨seconds 86412, .act true (.read (ReadRpc.quiet 82788 (seconds 86412)) 9 0)⟩,
  ⟨seconds 86413, .act true (.write (WriteRpc.quiet 4 (seconds 86413)))⟩]

private theorem dayTimely : Along (timedStep .checked addressOf) (Timely dayDeadlines) dayCluster dayActions := by
  refine ⟨⟨trivial, by decide, trivial⟩, ⟨fun _ => rfl, by decide, quietTold (by decide)⟩,
    ⟨trivial, by decide, quietGrants (by decide) (by decide) (by decide) (by decide)⟩,
    ⟨trivial, by decide, quietTold (by decide)⟩, ⟨trivial, by decide, trivial⟩, ⟨fun _ => rfl, by decide, quietTold (by decide)⟩,
    ⟨trivial, by decide, quietGrants (by decide) (by decide) (by decide) (by decide)⟩,
    ⟨trivial, by decide, quietGrants (by decide) (by decide) (by decide) (by decide), ?_⟩,
    ⟨trivial, by decide, answeredInTime (by decide)⟩, ⟨trivial, by decide, trivial⟩, ⟨trivial, by decide, trivial⟩,
    ⟨trivial, by decide, trivial⟩, ⟨trivial, by decide, ?_⟩, ⟨trivial, by decide, trivial⟩,
    ⟨fun _ => rfl, by decide, quietTold (by decide)⟩,
    ⟨trivial, by decide, quietGrants (by decide) (by decide) (by decide) (by decide)⟩, trivial⟩
  · intro unseen
    obtain ⟨_, _, _, lost⟩ := unseen
    cases lost
  · change ∀ kv ∈ _, _
    decide

theorem dayHoldsAlone : ∃ lease lease' w,
    let last := run (step .checked addressOf) dayCluster (dayActions.map Timed.action)
    Along (step .checked addressOf) Orderly dayCluster (dayActions.map Timed.action) ∧
      last.node false = .holding lease (some w) ∧ last.node true = .holding lease' none ∧
      HoldsAlone addressOf last false lease ∧ HoldsAlone addressOf last true lease' := by
  have newest : dayDeadlines.Newest dayCluster.db := by
    intro kv put
    contradiction
  obtain ⟨orderly, alone⟩ := @timelyHoldsAlone dayDeadlines _ _ Bool _ addressOf dayCluster dayActions addressesDiffer
    (smallConfigAccepted .checked) ⟨by decide, by decide⟩ newest (fun _ => rfl) dayTimely
  exact ⟨_, _, _, orderly, rfl, rfl, alone _ _ _ rfl, alone _ _ _ rfl⟩

end Deadlines
end FlannelNg
