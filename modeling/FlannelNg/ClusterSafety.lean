import FlannelNg.Cluster

/-! Allocation safety. An allocated block is clear of every entry that its snapshot
showed, but later entries only have the configured length, and two blocks of one
length are equal or disjoint. So what a node still means to put stays clear of the
entries of other lengths, which nobody adds, and the store stays without overlaps. -/
namespace FlannelNg
open Cidr Outcome Runs

/- A subnet that may be put at any later time. -/
structure Good (len : Nat) (db : Store) (sn : Ipv4Network) : Prop where
  canonical : sn.Canonical
  length : sn.prefixLen = len
  clear : ∀ kv ∈ db.kvs, kv.key.prefixLen ≠ len → sn.Disjoint kv.key

structure Apart (db : Store) : Prop where
  canonical : ∀ kv ∈ db.kvs, kv.key.Canonical
  disjoint : ∀ kv ∈ db.kvs, ∀ kv' ∈ db.kvs, kv.key ≠ kv'.key → kv.key.Disjoint kv'.key

def OwnWatch.Behind (P : Ipv4Network → Prop) (w : OwnWatch) (db : Store) : Prop :=
  w.live = true → ∀ kv, .put kv ∈ (db.log.drop w.next).flatten →
    Codec.plain.startsWith kv.key w.subnet = true → P kv.key

/- Everything that the node means to put now or later is good. -/
def LocalSafe (config : Config) (db : Store) : Local → Prop
  | .idle => True
  | .started config' _ => config' = config
  | .deciding _ choice => Good config.subnetLen db choice.subnet
  | .holding lease none => Good config.subnetLen db lease.subnet
  | .holding lease (some w) =>
    Good config.subnetLen db lease.subnet ∧ w.Holds (fun l => Good config.subnetLen db l.subnet) ∧
      w.Behind (Good config.subnetLen db) db

section Store
variable {len : Nat} {db after : Store} {P : KeyValue Ipv4Network LeaseAttrs → Prop} {sn : Ipv4Network}

theorem goodChanged (changed : Changed Codec.plain P db after) (puts : ∀ kv, P kv → Good len db kv.key)
    (good : Good len db sn) : Good len after sn := by
  refine ⟨good.canonical, good.length, ?_⟩
  intro kv member other
  rcases changedMem changed member with old | new
  · exact good.clear kv old other
  · exact absurd (puts kv new).length other

theorem apartChanged (changed : Changed Codec.plain P db after) (puts : ∀ kv, P kv → Good len db kv.key)
    (apart : Apart db) : Apart after := by
  have canonical : ∀ kv ∈ after.kvs, kv.key.Canonical := by
    intro kv member
    rcases changedMem changed member with old | new
    · exact apart.canonical kv old
    · exact (puts kv new).canonical
  have fresh : ∀ kv ∈ after.kvs, P kv → ∀ kv' ∈ after.kvs, kv.key ≠ kv'.key → kv.key.Disjoint kv'.key := by
    intro kv member new kv' member' different
    by_cases same : kv'.key.prefixLen = len
    · exact canonicalDisjoint (canonical kv member) (canonical kv' member')
        ((puts kv new).length.trans same.symm) different
    · exact (goodChanged changed puts (puts kv new)).clear kv' member' same
  refine ⟨canonical, ?_⟩
  intro kv member kv' member' different
  rcases changedMem changed member with old | new
  · rcases changedMem changed member' with old' | new'
    · exact apart.disjoint kv old kv' old' different
    · exact disjointSymm (fresh kv' member' new' kv member different.symm)
  · exact fresh kv member new kv' member' different

theorem behindChanged {w : OwnWatch} (changed : Changed Codec.plain P db after)
    (puts : ∀ kv, P kv → Good len db kv.key) (behind : w.Behind (Good len db) db) : w.Behind (Good len after) after := by
  intro live kv member start
  obtain ⟨txns, log, new⟩ := changedLog changed
  rw [log, List.drop_append, List.flatten_append, List.mem_append] at member
  apply goodChanged changed puts
  rcases member with old | added
  · exact behind live kv old start
  · obtain ⟨txn, later, inside⟩ := List.mem_flatten.mp added
    exact puts kv (new kv (List.mem_flatten.mpr ⟨txn, List.mem_of_mem_drop later, inside⟩))

theorem localSafeChanged {config : Config} {l : Local} (changed : Changed Codec.plain P db after)
    (puts : ∀ kv, P kv → Good config.subnetLen db kv.key) (safe : LocalSafe config db l) : LocalSafe config after l := by
  cases l with
  | idle => trivial
  | started config' attrs => exact safe
  | deciding attrs choice => exact goodChanged changed puts safe
  | holding lease w =>
    cases w with
    | none => exact goodChanged changed puts safe
    | some w =>
      obtain ⟨held, inbox, behind⟩ := safe
      refine ⟨goodChanged changed puts held, ?_, behindChanged changed puts behind⟩
      exact fun batch member e inside put => goodChanged changed puts (inbox batch member e inside put)

theorem storedGood {kv : KeyValue Ipv4Network LeaseAttrs} (apart : Apart db) (member : kv ∈ db.kvs)
    (length : kv.key.prefixLen = len) : Good len db kv.key := by
  refine ⟨apart.canonical kv member, length, ?_⟩
  intro kv' member' other
  refine apart.disjoint kv member kv' member' ?_
  intro same
  exact other (same ▸ length)

end Store

section Local
variable {build : Build} {config : Config} {db : Store}

theorem putsGood {l x kv} (safe : LocalSafe config db l) (puts : Puts db l x kv) : Good config.subnetLen db kv.key := by
  cases puts with
  | reuse => exact safe
  | create _ _ => exact safe
  | @renew lease w rpc id =>
    cases w with
    | none => exact safe
    | some w => exact safe.1

theorem decidedGood {subnetMin subnetMax ip rpc fuel pick choice} (range : Range config subnetMin subnetMax)
    (apart : Apart db) (answered : ∀ kv, (rpc.ttl kv).isSome = true)
    (ok : decideLease Codec.plain build fuel config ip rpc pick db = .ok choice) :
    Good config.subnetLen db choice.subnet := by
  obtain ⟨leases, revision, read, chosen⟩ := decided ok
  cases choice with
  | reuse lease =>
    obtain ⟨first, fits⟩ := choseReuse chosen
    obtain ⟨kv, member, subnet, _⟩ := plainStored read (List.mem_of_find?_eq_some first)
    have length := ((reusableIff range).mp fits).2.2
    change Good config.subnetLen db lease.subnet
    rw [subnet] at length ⊢
    exact storedGood apart member length
  | create sn =>
    have free := allocated range (choseCreate chosen).1
    refine ⟨free.canonical, free.length, ?_⟩
    intro kv member _
    obtain ⟨lease, listed, subnet, _⟩ := plainListed read (answered kv) member
    exact subnet ▸ free.clear lease listed

theorem watchGood {lease rpc} (apart : Apart db) (settled : Settled db) (good : Good config.subnetLen db lease.subnet) :
    LocalSafe config db (.holding lease (some (watchLease lease rpc db))) := by
  refine ⟨good, ?_, ?_⟩
  · intro batch member e inside put
    obtain ⟨kv, found, subnet, _⟩ := OwnWatch.watchHolds batch member e inside put
    rw [subnet, (Etcd.getSome found).2]
    exact good
  · intro live kv member start
    obtain ⟨next, own, found⟩ := OwnWatch.watchNext live
    rw [next] at member
    have stored := Etcd.memIff.mpr (OwnWatch.newestStored settled member)
    obtain ⟨present, same⟩ := Etcd.getSome found
    refine storedGood apart stored ?_
    rw [OwnWatch.watchKeeps] at start
    -- such a key has the own address; with another length it would overlap the own entry
    have address := subnetNameIp start
    by_contra other
    have different : own.key ≠ kv.key := by
      intro key
      exact other (by rw [← key, same, good.length])
    exact sharedIp (same ▸ address) (apart.disjoint own present kv stored different)

theorem movesSafe {stored subnetMin subnetMax ip l x l' after} (range : Range config subnetMin subnetMax)
    (accepted : getNetworkConfig build stored = .ok config) (apart : Apart db) (settled : Settled db)
    (answered : ∀ rpc fuel pick, x = .read rpc fuel pick → ∀ kv, (rpc.ttl kv).isSome = true)
    (moves : Moves build stored ip db l x l' after) (safe : LocalSafe config db l) : LocalSafe config after l' := by
  have puts : ∀ kv, Puts db l x kv → Good config.subnetLen db kv.key := fun kv => putsGood safe
  have changed := movesChanged moves
  cases moves with
  | stay => exact safe
  | stop => trivial
  | lost failed => trivial
  | start accepted' =>
    rw [accepted] at accepted'
    exact (Except.ok.inj accepted').symm
  | read chosen =>
    cases safe
    exact decidedGood range apart (answered _ _ _ rfl) chosen
  | @won attrs choice rpc lease _ ok =>
    obtain ⟨exp, _, rfl, _⟩ := committed ok
    have same : (choice.lease attrs exp).subnet = choice.subnet := by cases choice <;> rfl
    change Good config.subnetLen after _
    rw [same]
    exact goodChanged changed puts safe
  | @renewed lease w rpc next _ ok =>
    have safe' := localSafeChanged changed puts safe
    obtain ⟨subnet, _⟩ := renewKeeps ok
    cases w with
    | none =>
      change Good config.subnetLen after next.subnet
      exact subnet ▸ safe'
    | some w => exact ⟨subnet ▸ safe'.1, safe'.2⟩
  | unrenewed failed => exact localSafeChanged changed puts safe
  | watching => exact watchGood apart settled safe
  | fetched live =>
    obtain ⟨held, inbox, behind⟩ := safe
    refine ⟨held, OwnWatch.fetchHolds inbox ?_, ?_⟩
    · intro kv member start lease subnet _
      exact subnet ▸ behind live kv member start
    · intro _ kv member start
      obtain ⟨txn, later, inside⟩ := List.mem_flatten.mp member
      rw [OwnWatch.fetchSubnet] at start
      refine behind live kv (List.mem_flatten.mpr ⟨txn, ?_, inside⟩) start
      exact (List.drop_sublist_drop_left _ OwnWatch.fetchNext).subset later
  | delivered received followed =>
    obtain ⟨held, inbox, behind⟩ := safe
    refine ⟨OwnWatch.followed (P := fun l => Good config.subnetLen db l.subnet) followed held ?_, ?_, behind⟩
    · exact fun e inside put => inbox _ (by simp [received]) e inside put
    · exact fun other member e inside put => inbox other (by simp [received, member]) e inside put

end Local

section Run
variable {N : Type} [DecidableEq N] {build : Build} {publicIp : N → Ipv4Addr} {config : Config}

/- The cluster keeps one accepted configuration and a store without overlaps. -/
structure Safe (build : Build) (config : Config) (c : Cluster N) : Prop where
  accepted : getNetworkConfig build c.stored = .ok config
  apart : Apart c.db
  nodes : ∀ n, LocalSafe config c.db (c.node n)

/- The configuration stays, and the TTL queries of snapshots are answered. -/
def SteadyAnswered : Action N → Prop
  | .configure _ => False
  | .act _ (.read rpc _ _) => ∀ kv, (rpc.ttl kv).isSome = true
  | _ => True

theorem stepSafe {c : Cluster N} {a : Action N} (safe : Safe build config c) (permitted : SteadyAnswered a) :
    Safe build config (step build publicIp c a) := by
  obtain ⟨subnetMin, subnetMax, range⟩ := acceptedRange safe.accepted
  have changed := @stepChanged N _ build publicIp c a
  have puts : ∀ kv, (∃ n x, a = .act n x ∧ Puts c.db (c.node n) x kv) → Good config.subnetLen c.db kv.key := by
    rintro kv ⟨n, x, _, puts⟩
    exact putsGood (safe.nodes n) puts
  have others := fun m => localSafeChanged changed puts (safe.nodes m)
  have stored : (step build publicIp c a).stored = c.stored := by
    cases a with
    | configure stored => exact permitted.elim
    | expire key => rfl
    | act n x => rfl
  refine ⟨by rw [stored]; exact safe.accepted, apartChanged changed puts safe.apart, ?_⟩
  cases a with
  | configure stored => exact permitted.elim
  | expire key => exact others
  | act n x =>
    obtain ⟨l, node, moves⟩ := @stepAct N _ build publicIp c n x
    intro m
    rw [node]
    by_cases same : m = n
    · subst same
      rw [Function.update_self]
      refine movesSafe range safe.accepted safe.apart c.settled ?_ moves (safe.nodes m)
      rintro rpc fuel pick rfl
      exact permitted
    · rw [Function.update_of_ne same]
      exact others m

theorem runSafe {c : Cluster N} {actions : List (Action N)} (safe : Safe build config c)
    (permitted : ∀ a ∈ actions, SteadyAnswered a) : Safe build config (run (step build publicIp) c actions) :=
  runInvariant (fun _ _ safe permitted => stepSafe safe permitted) safe (alongOfMem permitted)

theorem entriesNeverOverlap {c : Cluster N} {actions : List (Action N)}
    (accepted : getNetworkConfig build c.stored = .ok config) (apart : Apart c.db) (idle : ∀ n, c.node n = .idle)
    (permitted : ∀ a ∈ actions, SteadyAnswered a) :
    let db := (run (step build publicIp) c actions).db
    (∀ kv ∈ db.kvs, ∀ kv' ∈ db.kvs, kv.key ≠ kv'.key → kv.key.Disjoint kv'.key) ∧
    ∀ sn attrs rpc exp after, createSubnet Codec.plain sn attrs rpc db = (.ok exp, after) →
      db.get sn = none ∧ ∀ kv ∈ db.kvs, kv ∈ after.kvs := by
  have start : Safe build config c := ⟨accepted, apart, fun n => idle n ▸ trivial⟩
  have safe := @runSafe N _ build publicIp config c actions start permitted
  refine ⟨safe.apart.disjoint, ?_⟩
  intro sn attrs rpc exp after ok
  obtain ⟨_, absent, id, rfl⟩ := created ok
  refine ⟨absent, ?_⟩
  intro kv member
  rw [Etcd.memIff, Etcd.getPut, if_neg]
  · exact Etcd.memIff.mp member
  · rintro rfl
    rw [Etcd.memIff] at member
    exact absurd (absent.symm.trans member) (by simp)

end Run

/- Both nodes take the same snapshot, next to an entry that an older configuration left. -/
private def leftover : Cluster Bool :=
  quietCluster (Etcd.empty.put Codec.plain ⟨cidr 0x0A000008 29, {}, 9⟩) settledPut

private def racing : List (Action Bool) :=
  choosing false ++ choosing true ++ [writing false 1, writing true 2, .expire (cidr 0x0A000008 29),
    .act false (.renew (WriteRpc.quiet 3 0))]

theorem racingNeverOverlap :
    let db := (run (step .checked addressOf) leftover racing).db
    (∀ kv ∈ db.kvs, ∀ kv' ∈ db.kvs, kv.key ≠ kv'.key → kv.key.Disjoint kv'.key) ∧
    ∀ sn attrs rpc exp after, createSubnet Codec.plain sn attrs rpc db = (.ok exp, after) →
      db.get sn = none ∧ ∀ kv ∈ db.kvs, kv ∈ after.kvs := by
  refine entriesNeverOverlap (smallConfigAccepted .checked) ⟨by decide, by decide⟩ (fun _ => rfl) ?_
  simp [racing, choosing, writing, SteadyAnswered, ReadRpc.quiet]

end FlannelNg
