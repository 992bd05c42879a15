import FlannelNg.Cluster

/-! One node, one subnet. Nothing deletes the entry of a node that does not fit the
configuration any more, so a node has a single entry after a call if what the call read
showed none of it, or a single one that fits. Until the write the others add none to it. -/
namespace FlannelNg
open Cidr Outcome Runs

/- The steps of `acquire_lease` calls, with the TTL queries of snapshots answered. -/
def Acquiring {N : Type} : Action N → Prop
  | .act _ (.read rpc _ _) => ∀ kv, (rpc.ttl kv).isSome = true
  | .act _ (.renew _) | .act _ (.watch _) | .act _ (.fetch _ _) | .act _ .deliver => False
  | _ => True

def Addressed (ip : Ipv4Addr) : Local → Prop
  | .started _ attrs => attrs.publicIp = ip
  | .deciding attrs _ => attrs.publicIp = ip
  | _ => True

/-- An address has no entry, or a single one, which fits the configuration. -/
structure OneFits (config : Config) (ip : Ipv4Addr) (db : Store) : Prop where
  single : ∀ kv ∈ db.kvs, ∀ kv' ∈ db.kvs, kv.value.publicIp = ip → kv'.value.publicIp = ip → kv.key = kv'.key
  fits : ∀ kv ∈ db.kvs, kv.value.publicIp = ip → ∀ lease, lease.subnet = kv.key → isReusable config lease = .ok true

/- An address has no entry but that of the subnet. -/
def Sole (ip : Ipv4Addr) (sn : Ipv4Network) (db : Store) : Prop := ∀ kv ∈ db.kvs, kv.value.publicIp = ip → kv.key = sn

section Local
variable {build : Build} {stored : Res Config} {ip : Ipv4Addr} {db after : Store} {l l' : Local} {x : NodeAction}

theorem movesAddressed (moves : Moves build stored ip db l x l' after) (addressed : Addressed ip l) : Addressed ip l' := by
  cases moves with
  | stay => exact addressed
  | start => rfl
  | read => exact addressed
  | stop | won | lost | renewed | unrenewed | watching | fetched | delivered => trivial

theorem putsPending {kv} (puts : Puts db l x kv) (acquiring : ∀ rpc, x ≠ .renew rpc) :
    ∃ attrs choice, l = .deciding attrs choice ∧ kv.value = attrs ∧ kv.key = choice.subnet := by
  cases puts with
  | reuse => exact ⟨_, _, rfl, rfl, rfl⟩
  | create _ _ => exact ⟨_, _, rfl, rfl, rfl⟩
  | renew => exact absurd rfl (acquiring _)

theorem decidedSole {config rpc fuel pick choice} {attrs : LeaseAttrs} (addressed : attrs.publicIp = ip) (oneFits : OneFits config ip db)
    (answered : ∀ kv, (rpc.ttl kv).isSome = true)
    (ok : decideLease Codec.plain build fuel config attrs.publicIp rpc pick db = .ok choice) : Sole ip choice.subnet db := by
  intro kv member own
  obtain ⟨leases, revision, read, chosen⟩ := decided ok
  rw [addressed] at chosen
  have firstOwn : ∀ lease, leases.find? (fun it => it.attrs.publicIp = ip) = some lease →
      ∃ kv ∈ db.kvs, lease.subnet = kv.key ∧ kv.value.publicIp = ip := by
    intro lease first
    obtain ⟨kv, member, subnet, attrs⟩ := plainStored read (List.mem_of_find?_eq_some first)
    exact ⟨kv, member, subnet, attrs ▸ by simpa using List.find?_some first⟩
  cases choice with
  | reuse lease =>
    obtain ⟨kv', member', subnet, own'⟩ := firstOwn lease (choseReuse chosen).1
    exact (oneFits.single kv member kv' member' own own').trans subnet.symm
  | create sn =>
    obtain ⟨lease, listed, _, attrs⟩ := plainListed read (answered kv) member
    cases first : leases.find? (fun it => it.attrs.publicIp = ip) with
    | none =>
      have other := List.find?_eq_none.mp first lease listed
      rw [attrs] at other
      simp [own] at other
    | some lease' =>
      have unfit := (choseCreate chosen).2 lease' first
      obtain ⟨kv', member', subnet, own'⟩ := firstOwn lease' first
      rw [oneFits.fits kv' member' own' lease' subnet] at unfit
      contradiction

theorem wonEntry {attrs choice rpc lease}
    (moves : Moves build stored ip db (.deciding attrs choice) (.write rpc) (.holding lease none) after) :
    lease.subnet = choice.subnet ∧ ∃ id, after.get lease.subnet = some ⟨lease.subnet, attrs, id⟩ := by
  cases moves with
  | won ok =>
    obtain ⟨exp, _, made, id, put⟩ := committed ok
    refine ⟨by rw [made]; cases choice <;> rfl, id, ?_⟩
    rw [put]
    exact Etcd.getPut.trans (if_pos rfl)

end Local

section Run
variable {N : Type} [DecidableEq N] {build : Build} {publicIp : N → Ipv4Addr} {c : Cluster N} {a : Action N} {n : N}

theorem stepAddressed (addressed : ∀ m, Addressed (publicIp m) (c.node m)) (m : N) :
    Addressed (publicIp m) ((step build publicIp c a).node m) := by
  cases a with
  | configure stored => exact addressed m
  | expire key => exact addressed m
  | act n x =>
    obtain ⟨l, node, moves⟩ := @stepAct N _ build publicIp c n x
    rw [node]
    by_cases same : m = n
    · subst same
      rw [Function.update_self]
      exact movesAddressed moves (addressed m)
    · rw [Function.update_of_ne same]
      exact addressed m

theorem runAddressed {actions : List (Action N)} (addressed : ∀ m, Addressed (publicIp m) (c.node m)) (m : N) :
    Addressed (publicIp m) ((run (step build publicIp) c actions).node m) := by
  induction actions generalizing c with
  | nil => exact addressed m
  | cons a rest ih => exact ih (stepAddressed addressed)

/- The step is not one of this node. -/
def Elsewhere (n : N) : Action N → Prop
  | .act m _ => m ≠ n
  | _ => True

theorem stepElsewhere (elsewhere : Elsewhere n a) : (step build publicIp c a).node n = c.node n := by
  cases a with
  | configure stored => rfl
  | expire key => rfl
  | act m x => exact Function.update_of_ne (Ne.symm elsewhere) _ _

theorem runElsewhere {actions : List (Action N)} (elsewhere : ∀ a ∈ actions, Elsewhere n a) :
    (run (step build publicIp) c actions).node n = c.node n :=
  @runInvariant _ _ (step build publicIp) (fun _ a => Elsewhere n a) (fun later => later.node n = c.node n) _ _
    (fun _ _ same elsewhere => (stepElsewhere elsewhere).trans same) rfl (alongOfMem elsewhere)

theorem stepSole {sn : Ipv4Network} (distinct : Function.Injective publicIp)
    (addressed : ∀ m, Addressed (publicIp m) (c.node m)) (acquiring : Acquiring a) (elsewhere : Elsewhere n a)
    (sole : Sole (publicIp n) sn c.db) : Sole (publicIp n) sn (step build publicIp c a).db := by
  intro kv member own
  rcases changedMem (@stepChanged N _ build publicIp c a) member with old | ⟨m, x, rfl, puts⟩
  · exact sole kv old own
  · have notRenew : ∀ rpc, x ≠ .renew rpc := by
      rintro rpc rfl
      exact acquiring
    obtain ⟨attrs, choice, deciding, value, _⟩ := putsPending puts notRenew
    have address := addressed m
    rw [deciding] at address
    rw [value] at own
    exact absurd (distinct (address.symm.trans own)) elsewhere

theorem runSole {sn : Ipv4Network} (distinct : Function.Injective publicIp) {actions : List (Action N)}
    (addressed : ∀ m, Addressed (publicIp m) (c.node m))
    (permitted : ∀ a ∈ actions, Acquiring a ∧ Elsewhere n a) (sole : Sole (publicIp n) sn c.db) :
    Sole (publicIp n) sn (run (step build publicIp) c actions).db :=
  (@runInvariant _ _ (step build publicIp) (fun _ a => Acquiring a ∧ Elsewhere n a)
    (fun c => (∀ m, Addressed (publicIp m) (c.node m)) ∧ Sole (publicIp n) sn c.db) _ _
    (fun _ _ kept permitted => ⟨stepAddressed kept.1, stepSole distinct kept.1 permitted.1 permitted.2 kept.2⟩)
    ⟨addressed, sole⟩ (alongOfMem permitted)).2

/- A node that reads goes on to write, or starts again. -/
theorem stepRead {config : Config} {attrs : LeaseAttrs} {read : ReadRpc Ipv4Network LeaseAttrs} {fuel pick : Nat}
    (started : c.node n = .started config attrs) :
    (step build publicIp c (.act n (.read read fuel pick))).db = c.db ∧
      ((step build publicIp c (.act n (.read read fuel pick))).node n = .idle ∨
        ∃ choice, (step build publicIp c (.act n (.read read fuel pick))).node n = .deciding attrs choice ∧
          decideLease Codec.plain build fuel config attrs.publicIp read pick c.db = .ok choice) := by
  simp only [step, started, nodeStep, Function.update_self]
  cases chosen : decideLease Codec.plain build fuel config attrs.publicIp read pick c.db with
  | error stop => exact ⟨rfl, .inl rfl⟩
  | ok choice => exact ⟨rfl, .inr ⟨choice, rfl, rfl⟩⟩

theorem acquiredSubnetIsOwn (distinct : Function.Injective publicIp) {pre between : List (Action N)} {config : Config}
    {attrs : LeaseAttrs} {read : ReadRpc Ipv4Network LeaseAttrs} {fuel pick : Nat} {write : WriteRpc} {lease : Lease}
    {snapshot after : Cluster N} (idle : ∀ m, c.node m = .idle)
    (acquiring : ∀ a ∈ pre ++ .act n (.read read fuel pick) :: between, Acquiring a)
    (before : run (step build publicIp) c pre = snapshot) (started : snapshot.node n = .started config attrs)
    (others : ∀ x, .act n x ∉ between)
    (reached : run (step build publicIp) snapshot (.act n (.read read fuel pick) :: between ++ [.act n (.write write)]) = after)
    (acquired : after.node n = .holding lease none) :
    (∃ kv, after.db.get lease.subnet = some kv ∧ kv.value.publicIp = publicIp n) ∧
    (OneFits config (publicIp n) snapshot.db → ∀ kv ∈ after.db.kvs, kv.value.publicIp = publicIp n → kv.key = lease.subnet) := by
  subst reached
  have first : ∀ m, Addressed (publicIp m) (snapshot.node m) :=
    fun m => before ▸ runAddressed (fun m => idle m ▸ trivial) m
  have address := first n
  rw [started] at address
  have elsewhere : ∀ a ∈ between, Elsewhere n a := by
    rintro (stored | key | ⟨m, x⟩) member
    · trivial
    · trivial
    · rintro rfl
      exact others x member
  rw [List.cons_append, runCons, runAppend] at acquired ⊢
  obtain ⟨same, decides⟩ := @stepRead N _ build publicIp snapshot n config attrs read fuel pick started
  have addressed := fun m => @stepAddressed N _ build publicIp snapshot (.act n (.read read fuel pick)) first m
  generalize step build publicIp snapshot (.act n (.read read fuel pick)) = decided at acquired same decides addressed ⊢
  have still := @runElsewhere N _ build publicIp decided n between elsewhere
  have sole := fun sn => @runSole N _ build publicIp decided n sn distinct between addressed
    (fun a member => ⟨acquiring a (by simp [member]), elsewhere a member⟩)
  generalize run (step build publicIp) decided between = last at acquired still sole ⊢
  obtain ⟨l, node, moves⟩ := @stepAct N _ build publicIp last n (.write write)
  rw [runCons, runNil] at acquired ⊢
  rw [node, Function.update_self] at acquired
  subst acquired
  rcases decides with stopped | ⟨choice, deciding, chosen⟩
  · rw [still, stopped] at moves
    cases moves
  · rw [still, deciding] at moves
    obtain ⟨subnet, id, found⟩ := wonEntry moves
    refine ⟨⟨_, found, address⟩, ?_⟩
    intro oneFits kv member own
    have answered : ∀ kv, (read.ttl kv).isSome = true := acquiring (.act n (.read read fuel pick)) (by simp)
    have alone := sole choice.subnet (same ▸ decidedSole address oneFits answered chosen)
    rw [subnet]
    rcases changedMem (movesChanged moves) member with old | new
    · exact alone kv old own
    · obtain ⟨_, _, here, _, key⟩ := putsPending new (fun rpc => nofun)
      cases here
      exact key

end Run

private def emptyCluster : Cluster Bool := quietCluster Etcd.empty (by intro txn last; cases last)

private def moved : Res Config := .ok { smallConfig with network := some (cidr 0x0A010000 28) }

/- After the first lease the configuration moves, and the node gets a second one. -/
private def movedCalls : List (Action Bool) :=
  choosing false ++ [writing false 1, .act false .restart, .configure moved] ++ choosing false ++ [writing false 2]

theorem leftoverStays :
    let after := run (step .checked addressOf) emptyCluster movedCalls
    ∃ lease, after.node false = .holding lease none ∧
      ∃ kv ∈ after.db.kvs, kv.value.publicIp = addressOf false ∧ kv.key ≠ lease.subnet :=
  ⟨_, rfl, ⟨cidr 0x0A000004 30, { publicIp := 1 }, 1⟩, by decide, by decide, by decide⟩

private def movedAccepted : Config := {
  smallAccepted with
  network := some (cidr 0x0A010000 28)
  subnetMin := some 0x0A010004
  subnetMax := some 0x0A01000C }

/- The first entry ends, and the node starts once more while the other one gets a block. -/
private def thirdCall : List (Action Bool) :=
  movedCalls ++ [.expire (cidr 0x0A000004 30), .act true (.start {}), .act true (.read (ReadRpc.quiet 100 0) 9 1),
    .act false .restart, .act false (.start {})]

private def thirdRead : Action Bool := .act false (.read (ReadRpc.quiet 100 0) 9 0)

theorem thirdSubnetIsOwn :
    let after := run (step .checked addressOf) emptyCluster (thirdCall ++ [thirdRead, writing true 3, writing false 4])
    after.db.kvs.length = 2 ∧
    (∃ kv, after.db.get (cidr 0x0A010004 30) = some kv ∧ kv.value.publicIp = addressOf false) ∧
    ∀ kv ∈ after.db.kvs, kv.value.publicIp = addressOf false → kv.key = cidr 0x0A010004 30 := by
  have own := @acquiredSubnetIsOwn Bool _ .checked addressOf emptyCluster false addressesDiffer thirdCall [writing true 3]
    movedAccepted { publicIp := 1 } (ReadRpc.quiet 100 0) 9 0 (WriteRpc.quiet 4 0) _ _ _ (fun _ => rfl)
    (by simp [thirdCall, movedCalls, choosing, writing, Acquiring, ReadRpc.quiet]) rfl rfl (by simp [writing]) rfl rfl
  have fits : ∀ kv ∈ (run (step .checked addressOf) emptyCluster thirdCall).db.kvs, kv.value.publicIp = addressOf false →
      isReusable movedAccepted { Lease.default 0 with subnet := kv.key } = .ok true := by decide
  refine ⟨by decide, own.1, own.2 ⟨by decide, fun kv member mine lease same => ?_⟩⟩
  rw [← fits kv member mine, isReusable, isReusable, same]

end FlannelNg
