import FlannelNg.Candidates
import FlannelNg.Acquire
import FlannelNg.Changes

/-! Losing an allocation race. `acquire_lease` makes one attempt only, so whether it
returns `Ok` depends on what the other nodes create between its snapshot and its
transaction. -/
namespace FlannelNg
open Cidr Outcome

section Creates
variable {K V : Type} [DecidableEq K] {codec : Codec K V}

/- The other nodes only create entries. -/
def OnlyCreates (others : List (Interference K V)) : Prop := ∀ change ∈ others, ∃ kv, change = .create kv

theorem createGet {db : Etcd K V} {kv : KeyValue K V} {k : K} :
    ((db.putIfAbsent codec kv).2.get k = none ↔ db.get k = none ∧ kv.key ≠ k) := by
  unfold Etcd.putIfAbsent
  split
  · rw [Etcd.getPut]
    by_cases same : kv.key = k <;> simp [same]
  · rename_i present
    refine ⟨fun absent => ⟨absent, ?_⟩, And.left⟩
    rintro rfl
    exact present (by simp [absent])

theorem createsGet {others : List (Interference K V)} {db : Etcd K V} {k : K} (only : OnlyCreates others) :
    (others.foldl (interfere codec) db).get k = none ↔ db.get k = none ∧ ∀ kv, .create kv ∈ others → kv.key ≠ k := by
  induction others generalizing db with
  | nil => simp
  | cons change rest ih =>
    obtain ⟨kv, rfl⟩ := only change List.mem_cons_self
    rw [List.foldl_cons, ih (fun other mem => only other (List.mem_cons_of_mem _ mem))]
    simp only [interfere, createGet, List.mem_cons, Interference.create.injEq]
    constructor
    · rintro ⟨⟨absent, here⟩, later⟩
      refine ⟨absent, ?_⟩
      rintro other (rfl | mem)
      · exact here
      · exact later other mem
    · rintro ⟨absent, all⟩
      exact ⟨⟨absent, all kv (.inl rfl)⟩, fun other mem => all other (.inr mem)⟩

end Creates

abbrev Round := Attempt Ipv4Network LeaseAttrs

/- The store at the snapshot of an attempt, and at its write. -/
def Attempt.seen (att : Round) (db : Etcd Ipv4Network LeaseAttrs) : Etcd Ipv4Network LeaseAttrs :=
  att.before.foldl (interfere Codec.plain) db

def Attempt.met (att : Round) (db : Etcd Ipv4Network LeaseAttrs) : Etcd Ipv4Network LeaseAttrs :=
  att.meanwhile.foldl (interfere Codec.plain) (att.seen db)

/- Every RPC of the attempt succeeds, and the other nodes only create entries. -/
structure Attempt.Smooth (att : Round) : Prop where
  read : att.read.failed = none
  ttl : ∀ kv, (att.read.ttl kv).isSome = true
  grant : ∃ id ttl, att.write.grant = .ok (id, ttl)
  answer : att.write.answer = .answered
  before : OnlyCreates att.before
  meanwhile : OnlyCreates att.meanwhile

/- `acquire_lease` returns a lease whose entry it wrote, over none or one of its own. -/
def Acquires (build : Build) (fuel : Nat) (stored : Res Config) (attrs : LeaseAttrs) (attempts : Nat → Round)
    (db : Etcd Ipv4Network LeaseAttrs) : Prop :=
  ∃ lease after, acquireLease Codec.plain build fuel stored attrs attempts db = (.ok lease, after) ∧
    (∃ id, after.get lease.subnet = some ⟨lease.subnet, attrs, id⟩) ∧
    (((attempts 0).met db).get lease.subnet = none ∨
      ∃ kv, ((attempts 0).seen db).get lease.subnet = some kv ∧ kv.value.publicIp = attrs.publicIp)

section Attempt
variable {build : Build} {config : Config} {subnetMin subnetMax : Ipv4Addr} {attrs : LeaseAttrs} {fuel pick : Nat}
variable {rpc : WriteRpc} {db after : Etcd Ipv4Network LeaseAttrs} {leases : List Lease}

theorem commitReuse {old : Lease} (grant : ∃ id ttl, rpc.grant = .ok (id, ttl)) (answer : rpc.answer = .answered) :
    (commitChoice Codec.plain attrs rpc (.reuse old) db).1 = rpc.reported.map (fun _ => old) := by
  obtain ⟨id, ttl, granted⟩ := grant
  simp [commitChoice, registryWrite, updateSubnet, granted, answer, WriteRpc.reported, Choice.lease]

theorem commitCreate {sn : Ipv4Network} (grant : ∃ id ttl, rpc.grant = .ok (id, ttl)) (answer : rpc.answer = .answered) :
    (commitChoice Codec.plain attrs rpc (.create sn) db).1 = if db.get sn = none
      then rpc.reported.map (fun exp => (Choice.create sn).lease attrs exp)
      else .error (.bail "txn_resp is not succeeded") := by
  obtain ⟨id, ttl, granted⟩ := grant
  have key : Codec.plain.key sn = sn := rfl
  by_cases absent : db.get sn = none <;>
    simp [commitChoice, registryWrite, createSubnet, Etcd.putIfAbsent, granted, answer, WriteRpc.reported, absent, key,
      Except.map, Option.isNone_iff_eq_none]

theorem chooseReusable {ip old} (first : leases.find? (fun it => it.attrs.publicIp = ip) = some old)
    (fits : isReusable config old = .ok true) : choose build config ip leases fuel pick = .ok (.reuse old) := by
  simp only [choose, foundReusable.mpr ⟨first, fits⟩]
  rfl

theorem chooseFresh {ip} (range : Range config subnetMin subnetMax)
    (fresh : ¬∃ old, leases.find? (fun it => it.attrs.publicIp = ip) = some old ∧ isReusable config old = .ok true) :
    choose build config ip leases fuel pick =
      (allocateSubnet build config leases fuel pick).map Choice.create := by
  have nothing : findReusable config ip leases = .ok none := by
    unfold findReusable
    cases first : leases.find? (fun it => it.attrs.publicIp = ip) with
    | none => rfl
    | some old =>
      obtain ⟨fits, decided⟩ := @reusableDecided config old _ _ range
      cases fits with
      | true => exact absurd ⟨old, first, decided⟩ fresh
      | false => simp [decided, bind, Except.bind, pure, Except.pure]
  simp only [choose, nothing]
  cases allocateSubnet build config leases fuel pick <;> rfl

theorem acquireCommits {stored attempts choice} (accepted : getNetworkConfig build stored = .ok config)
    (chosen : decideLease Codec.plain build fuel config attrs.publicIp (attempts 0).read (attempts 0).pick
      ((attempts 0).seen db) = .ok choice) :
    acquireLease Codec.plain build fuel stored attrs attempts db =
      commitChoice Codec.plain attrs (attempts 0).write choice ((attempts 0).met db) := by
  rw [acquireIsFirst accepted]
  unfold Attempt.seen at chosen
  simp only [tryAcquireLease, chosen]
  rfl

theorem acquireStops {stored attempts stop} (accepted : getNetworkConfig build stored = .ok config)
    (stopped : decideLease Codec.plain build fuel config attrs.publicIp (attempts 0).read (attempts 0).pick
      ((attempts 0).seen db) = .error stop) :
    ¬Acquires build fuel stored attrs attempts db := by
  rintro ⟨lease, after, ok, _⟩
  rw [acquireIsFirst accepted] at ok
  obtain ⟨choice, chosen, _⟩ := tried ok
  exact absurd (stopped.symm.trans chosen) (by simp)

theorem acquiresOfCommit {stored attempts choice lease} (accepted : getNetworkConfig build stored = .ok config)
    (chosen : decideLease Codec.plain build fuel config attrs.publicIp (attempts 0).read (attempts 0).pick
      ((attempts 0).seen db) = .ok choice)
    (ok : (commitChoice Codec.plain attrs (attempts 0).write choice ((attempts 0).met db)).1 = .ok lease)
    (own : ((attempts 0).met db).get lease.subnet = none ∨
      ∃ kv, ((attempts 0).seen db).get lease.subnet = some kv ∧ kv.value.publicIp = attrs.publicIp) :
    Acquires build fuel stored attrs attempts db := by
  have written : commitChoice Codec.plain attrs (attempts 0).write choice ((attempts 0).met db) = (.ok lease, _) :=
    Prod.ext ok rfl
  obtain ⟨_, _, _, id, put⟩ := committed written
  refine ⟨lease, _, (acquireCommits accepted chosen).trans written, ⟨id, ?_⟩, own⟩
  rw [put]
  exact Etcd.getPut.trans (if_pos rfl)

theorem commitOfAcquires {stored attempts choice} (accepted : getNetworkConfig build stored = .ok config)
    (chosen : decideLease Codec.plain build fuel config attrs.publicIp (attempts 0).read (attempts 0).pick
      ((attempts 0).seen db) = .ok choice)
    (acquires : Acquires build fuel stored attrs attempts db) :
    ∃ lease, (commitChoice Codec.plain attrs (attempts 0).write choice ((attempts 0).met db)).1 = .ok lease := by
  obtain ⟨lease, after, ok, _⟩ := acquires
  exact ⟨lease, by rw [← acquireCommits accepted chosen, ok]⟩

theorem reuseAcquires {stored attempts old kv} (accepted : getNetworkConfig build stored = .ok config)
    (smooth : (attempts 0).Smooth)
    (chosen : decideLease Codec.plain build fuel config attrs.publicIp (attempts 0).read (attempts 0).pick
      ((attempts 0).seen db) = .ok (.reuse old))
    (found : ((attempts 0).seen db).get old.subnet = some kv) (own : kv.value.publicIp = attrs.publicIp) :
    Acquires build fuel stored attrs attempts db ↔ ∃ exp, (attempts 0).write.reported = .ok exp := by
  have result := @commitReuse attrs (attempts 0).write ((attempts 0).met db) old smooth.grant smooth.answer
  constructor
  · intro acquires
    obtain ⟨lease, ok⟩ := commitOfAcquires accepted chosen acquires
    rw [result] at ok
    cases reported : (attempts 0).write.reported with
    | error stop => simp [reported, Except.map] at ok
    | ok exp => exact ⟨exp, rfl⟩
  · rintro ⟨exp, reported⟩
    exact acquiresOfCommit accepted chosen (by rw [result, reported]; rfl) (.inr ⟨kv, found, own⟩)

theorem createAcquires {stored attempts sn} (accepted : getNetworkConfig build stored = .ok config)
    (smooth : (attempts 0).Smooth)
    (chosen : decideLease Codec.plain build fuel config attrs.publicIp (attempts 0).read (attempts 0).pick
      ((attempts 0).seen db) = .ok (.create sn))
    (absent : ((attempts 0).seen db).get sn = none) :
    Acquires build fuel stored attrs attempts db ↔
      (∃ exp, (attempts 0).write.reported = .ok exp) ∧ ∀ kv, .create kv ∈ (attempts 0).meanwhile → kv.key ≠ sn := by
  have result := @commitCreate attrs (attempts 0).write ((attempts 0).met db) sn smooth.grant smooth.answer
  have still : ((attempts 0).met db).get sn = none ↔ ∀ kv, .create kv ∈ (attempts 0).meanwhile → kv.key ≠ sn :=
    (createsGet smooth.meanwhile).trans (and_iff_right absent)
  constructor
  · intro acquires
    obtain ⟨lease, ok⟩ := commitOfAcquires accepted chosen acquires
    rw [result] at ok
    split at ok
    · rename_i free
      cases reported : (attempts 0).write.reported with
      | error stop => simp [reported, Except.map] at ok
      | ok exp => exact ⟨⟨exp, rfl⟩, still.mp free⟩
    · contradiction
  · rintro ⟨⟨exp, reported⟩, others⟩
    have free := still.mpr others
    exact acquiresOfCommit accepted chosen (by rw [result, if_pos free, reported]; rfl) (.inl free)

end Attempt

section Race
variable {build : Build} {config : Config} {subnetMin subnetMax : Ipv4Addr} {attrs : LeaseAttrs} {fuel : Nat}
variable {stored : Res Config} {attempts : Nat → Round} {db : Etcd Ipv4Network LeaseAttrs}

/-- What decides about the only attempt: the snapshot and the clocks are in range, and
the node has a fitting entry, or the scan ends and nobody else creates the selected block. -/
def Survives (build : Build) (range : Range config subnetMin subnetMax) (attrs : LeaseAttrs) (att : Round)
    (db : Etcd Ipv4Network LeaseAttrs) : Prop :=
  ∃ leases revision exp, getSubnets Codec.plain att.read (att.seen db) = .ok (leases, revision) ∧
    att.write.reported = .ok exp ∧
    ((∃ old, leases.find? (fun it => it.attrs.publicIp = attrs.publicIp) = some old ∧ isReusable config old = .ok true) ∨
      ScanEnds build range.start subnetMax leases ∧
        ∀ kv, .create kv ∈ att.meanwhile → picked build range.start subnetMax leases att.pick ≠ some kv.key)

/- A block that no lease of the snapshot overlaps is not in the store that was read. -/
theorem clearAbsent {rpc : ReadRpc Ipv4Network LeaseAttrs} {leases : List Lease} {revision : Nat} {sn : Ipv4Network}
    (read : getSubnets Codec.plain rpc db = .ok (leases, revision)) (answered : ∀ kv, (rpc.ttl kv).isSome = true)
    (clear : ∀ lease ∈ leases, sn.Disjoint lease.subnet) : db.get sn = none := by
  cases found : db.get sn with
  | none => rfl
  | some kv =>
    obtain ⟨member, rfl⟩ := Etcd.getSome found
    obtain ⟨lease, listed, subnet, _⟩ := plainListed read (answered kv) member
    have apart := clear lease listed
    rw [subnet] at apart
    exact absurd apart (sharedIp rfl)

end Race

private def rival : KeyValue Ipv4Network LeaseAttrs := ⟨cidr 0x0A000004 30, { publicIp := 2 }, 8⟩

/- In the first attempt another node creates the selected block before the transaction. -/
private def contested (round : Nat) : Round where
  read := ReadRpc.quiet 100 0
  pick := 0
  meanwhile := if round = 0 then [.create rival] else []
  write := WriteRpc.quiet 1 0

private theorem smallRange : Range smallAccepted 0x0A000004 0x0A00000C :=
  ⟨rfl, rfl, by decide, by decide, by decide, by decide⟩

private def neighbour : KeyValue Ipv4Network LeaseAttrs := ⟨cidr 0x0A000008 30, { publicIp := 3 }, 9⟩

private def neighbourLease : Lease where
  enableIpv4 := true
  subnet := cidr 0x0A000008 30
  enableIpv6 := false
  ipv6Subnet := none
  attrs := { publicIp := 3 }
  expiration := 100 * SystemTime.nanos

/- Other nodes create blocks before the snapshot and between it and the transaction. -/
private def passing (_ : Nat) : Round where
  before := [.create neighbour]
  read := ReadRpc.quiet 100 0
  pick := 1
  meanwhile := [.create rival]
  write := WriteRpc.quiet 1 0

end FlannelNg
