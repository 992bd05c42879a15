import FlannelNg.Allocate
import FlannelNg.Registry

/-! Acquiring and renewing a lease. Between the snapshot that an attempt reads and the
write that it makes, other writers may change the store. -/
namespace FlannelNg
open Cidr Outcome

def raceRetries : Nat := 10

/- What an attempt decides after its snapshot: to put its old entry again, or to
create the entry of a free block. -/
inductive Choice where
  | reuse (lease : Lease)
  | create (sn : Ipv4Network)
  deriving DecidableEq, Repr

def Choice.subnet : Choice → Ipv4Network
  | .reuse lease => lease.subnet
  | .create sn => sn

def isReusable (config : Config) (lease : Lease) : Res Bool := do
  if lease.subnet.ip ≥ (← unwrap config.subnetMin) then
    if lease.subnet.ip ≤ (← unwrap config.subnetMax) then
      return lease.subnet.prefixLen = config.subnetLen
    else return false
  else return false

/- The first lease with the address, when it fits. -/
def findReusable (config : Config) (extAddr : Ipv4Addr) (leases : List Lease) : Res (Option Lease) :=
  match leases.find? (fun it => it.attrs.publicIp = extAddr) with
  | none => .ok none
  | some lease => do
    let fits ← isReusable config lease
    return if fits then some lease else none

def choose (build : Build) (config : Config) (extAddr : Ipv4Addr) (leases : List Lease) (fuel pick : Nat) :
    Res Choice := do
  match ← findReusable config extAddr leases with
  | some lease => return .reuse lease
  | none =>
    let sn ← allocateSubnet build config leases fuel pick
    return .create sn

section Acquire
variable {K V : Type} [DecidableEq K] (codec : Codec K V)

inductive Interference (K V : Type) where
  | put (kv : KeyValue K V)
  | create (kv : KeyValue K V)
  | expire (key : K)

def interfere (db : Etcd K V) : Interference K V → Etcd K V
  | .put kv => db.put codec kv
  | .create kv => (db.putIfAbsent codec kv).2
  | .expire key => db.expire codec key

/-- Everything the environment decides about one attempt. -/
structure Attempt (K V : Type) where
  before : List (Interference K V) := []
  read : ReadRpc K V
  pick : Nat
  meanwhile : List (Interference K V) := []
  write : WriteRpc

def registryWrite (attrs : LeaseAttrs) (rpc : WriteRpc) (db : Etcd K V) : Choice → Res SystemTime × Etcd K V
  | .reuse lease => updateSubnet codec lease.subnet attrs rpc db
  | .create sn => createSubnet codec sn attrs rpc db

/- A reused lease is returned as the snapshot showed it. -/
def Choice.lease (attrs : LeaseAttrs) (exp : SystemTime) : Choice → Lease
  | .reuse lease => lease
  | .create sn => {
      enableIpv4 := true
      subnet := sn
      enableIpv6 := false
      ipv6Subnet := none
      attrs
      expiration := exp }

def commitChoice (attrs : LeaseAttrs) (rpc : WriteRpc) (choice : Choice) (db : Etcd K V) : Res Lease × Etcd K V :=
  let (exp, db) := registryWrite codec attrs rpc db choice
  (exp.map (fun exp => choice.lease attrs exp), db)

/- Up to the write: the snapshot and the choice made from it. -/
def decideLease (build : Build) (fuel : Nat) (config : Config) (extAddr : Ipv4Addr) (rpc : ReadRpc K V) (pick : Nat)
    (db : Etcd K V) : Res Choice := do
  let (leases, _) ← getSubnets codec rpc db
  choose build config extAddr leases fuel pick

def tryAcquireLease (build : Build) (fuel : Nat) (config : Config) (attrs : LeaseAttrs) (extAddr : Ipv4Addr)
    (att : Attempt K V) (db : Etcd K V) : Res Lease × Etcd K V :=
  let db := att.before.foldl (interfere codec) db
  match decideLease codec build fuel config extAddr att.read att.pick db with
  | .error stop => (.error stop, db)
  | .ok choice => commitChoice codec attrs att.write choice (att.meanwhile.foldl (interfere codec) db)

/- Both `?` and `return Ok(l)` leave the loop in its first round. -/
def acquireLease (build : Build) (fuel : Nat) (stored : Res Config) (attrs : LeaseAttrs)
    (attempts : Nat → Attempt K V) (db : Etcd K V) : Res Lease × Etcd K V :=
  match getNetworkConfig build stored with
  | .error stop => (.error stop, db)
  | .ok config =>
    let body := fun round db =>
      match tryAcquireLease codec build fuel config attrs attrs.publicIp (attempts round) db with
      | (.error stop, db) => (some (.error stop), db)
      | (.ok lease, db) => (some (.ok lease), db)
    match forRounds body raceRetries 0 db with
    | (some result, db) => (result, db)
    | (none, db) => (.error (.bail "Max retries reached trying to acquire a subnet"), db)

def renewLease (lease : Lease) (rpc : WriteRpc) (db : Etcd K V) : Res Lease × Etcd K V :=
  let (exp, db) := updateSubnet codec lease.subnet lease.attrs rpc db
  (exp.map (fun exp => { lease with expiration := exp }), db)

end Acquire

def WriteRpc.reported (rpc : WriteRpc) : Res SystemTime :=
  match rpc.grant with
  | .error message => .error (.bail message)
  | .ok (_, ttl) => rpc.expiration ttl

section Facts
variable {K V : Type} [DecidableEq K] {codec : Codec K V} {attrs : LeaseAttrs} {rpc : WriteRpc} {db after : Etcd K V}

theorem updated {subnet exp} (ok : updateSubnet codec subnet attrs rpc db = (.ok exp, after)) :
    rpc.reported = .ok exp ∧ ∃ id, after = db.put codec ⟨codec.key subnet, codec.toVec attrs, id⟩ := by
  unfold updateSubnet at ok
  unfold WriteRpc.reported
  cases granted : rpc.grant with
  | error message => simp [granted] at ok
  | ok grant =>
    obtain ⟨id, ttl⟩ := grant
    rw [granted] at ok
    cases answer : rpc.answer <;> simp only [answer, Prod.mk.injEq, reduceCtorEq, false_and] at ok
    exact ⟨ok.1, id, ok.2.symm⟩

theorem created {sn exp} (ok : createSubnet codec sn attrs rpc db = (.ok exp, after)) :
    rpc.reported = .ok exp ∧ db.get (codec.key sn) = none ∧
      ∃ id, after = db.put codec ⟨codec.key sn, codec.toVec attrs, id⟩ := by
  unfold createSubnet at ok
  unfold WriteRpc.reported
  cases granted : rpc.grant with
  | error message => simp [granted] at ok
  | ok grant =>
    obtain ⟨id, ttl⟩ := grant
    rw [granted] at ok
    cases answer : rpc.answer <;> simp only [answer, Prod.mk.injEq, reduceCtorEq, false_and] at ok
    by_cases absent : (db.get (codec.key sn)).isNone = true
    · simp only [Etcd.putIfAbsent, if_pos absent, if_true, Prod.mk.injEq] at ok
      exact ⟨ok.1, Option.isNone_iff_eq_none.mp absent, id, ok.2.symm⟩
    · simp [Etcd.putIfAbsent, absent] at ok

theorem committed {choice lease} (ok : commitChoice codec attrs rpc choice db = (.ok lease, after)) :
    ∃ exp, rpc.reported = .ok exp ∧ lease = choice.lease attrs exp ∧
      ∃ id, after = db.put codec ⟨codec.key lease.subnet, codec.toVec attrs, id⟩ := by
  unfold commitChoice at ok
  cases written : registryWrite codec attrs rpc db choice with
  | mk result db' =>
    rw [written] at ok
    cases result with
    | error stop => simp [Except.map] at ok
    | ok exp =>
      simp only [Except.map, Prod.mk.injEq, Except.ok.injEq] at ok
      obtain ⟨rfl, rfl⟩ := ok
      cases choice with
      | reuse lease =>
        obtain ⟨reported, put⟩ := updated written
        exact ⟨exp, reported, rfl, put⟩
      | create sn =>
        obtain ⟨reported, _, put⟩ := created written
        exact ⟨exp, reported, rfl, put⟩

omit [DecidableEq K] in
theorem decided {build fuel config extAddr rpc pick choice}
    (ok : decideLease codec build fuel config extAddr rpc pick db = .ok choice) :
    ∃ leases revision, getSubnets codec rpc db = .ok (leases, revision) ∧
      choose build config extAddr leases fuel pick = .ok choice := by
  simp only [decideLease, bindOk] at ok
  obtain ⟨⟨leases, revision⟩, read, chosen⟩ := ok
  exact ⟨leases, revision, read, chosen⟩

theorem tried {build fuel config extAddr att lease}
    (ok : tryAcquireLease codec build fuel config attrs extAddr att db = (.ok lease, after)) :
    ∃ choice,
      decideLease codec build fuel config extAddr att.read att.pick (att.before.foldl (interfere codec) db) =
        .ok choice ∧
      commitChoice codec attrs att.write choice
        (att.meanwhile.foldl (interfere codec) (att.before.foldl (interfere codec) db)) = (.ok lease, after) := by
  unfold tryAcquireLease at ok
  dsimp only at ok
  split at ok
  · simp at ok
  · rename_i choice chosen
    exact ⟨choice, chosen, ok⟩

theorem acquireIsFirst {build fuel stored config attempts} (accepted : getNetworkConfig build stored = .ok config) :
    acquireLease codec build fuel stored attrs attempts db =
      tryAcquireLease codec build fuel config attrs attrs.publicIp (attempts 0) db := by
  simp only [acquireLease, accepted, raceRetries, forRounds]
  rcases tryAcquireLease codec build fuel config attrs attrs.publicIp (attempts 0) db with ⟨_ | _, _⟩ <;> rfl

end Facts

theorem reusableIff {config lease subnetMin subnetMax} (range : Range config subnetMin subnetMax) :
    isReusable config lease = .ok true ↔
      subnetMin ≤ lease.subnet.ip ∧ lease.subnet.ip ≤ subnetMax ∧ lease.subnet.prefixLen = config.subnetLen := by
  simp only [isReusable, range.least, range.greatest, unwrap, bind, Except.bind, ge_iff_le]
  by_cases low : subnetMin ≤ lease.subnet.ip <;> by_cases high : lease.subnet.ip ≤ subnetMax <;>
    simp [low, high, pure, Except.pure]

theorem reusableDecided {config lease subnetMin subnetMax} (range : Range config subnetMin subnetMax) :
    ∃ fits, isReusable config lease = .ok fits := by
  simp only [isReusable, range.least, range.greatest, unwrap, bind, Except.bind, pure, Except.pure]
  split <;> try split
  all_goals exact ⟨_, rfl⟩

theorem foundReusable {config extAddr leases lease} :
    findReusable config extAddr leases = .ok (some lease) ↔
      leases.find? (fun it => it.attrs.publicIp = extAddr) = some lease ∧ isReusable config lease = .ok true := by
  unfold findReusable
  cases first : leases.find? (fun it => it.attrs.publicIp = extAddr) with
  | none => simp
  | some old =>
    simp only [bindOk, pure, Except.pure, Except.ok.injEq, Option.some.injEq]
    constructor
    · rintro ⟨fits, decided, same⟩
      cases fits with
      | false => simp at same
      | true =>
        cases Option.some.inj same
        exact ⟨rfl, decided⟩
    · rintro ⟨rfl, decided⟩
      exact ⟨true, decided, rfl⟩

theorem nothingReusable {config extAddr leases} (ok : findReusable config extAddr leases = .ok none)
    {lease} (first : leases.find? (fun it => it.attrs.publicIp = extAddr) = some lease) :
    isReusable config lease = .ok false := by
  simp only [findReusable, first, bindOk] at ok
  obtain ⟨fits, decided, same⟩ := ok
  cases fits with
  | false => exact decided
  | true => simp [pure, Except.pure] at same

theorem choseReuse {build config extAddr leases fuel pick lease}
    (ok : choose build config extAddr leases fuel pick = .ok (.reuse lease)) :
    leases.find? (fun it => it.attrs.publicIp = extAddr) = some lease ∧ isReusable config lease = .ok true := by
  simp only [choose, bindOk] at ok
  obtain ⟨reusable, found, last⟩ := ok
  cases reusable with
  | some old =>
    cases Choice.reuse.inj (Except.ok.inj last)
    exact foundReusable.mp found
  | none =>
    simp only [bindOk] at last
    obtain ⟨sn, _, same⟩ := last
    cases same

theorem choseCreate {build config extAddr leases fuel pick sn}
    (ok : choose build config extAddr leases fuel pick = .ok (.create sn)) :
    allocateSubnet build config leases fuel pick = .ok sn ∧
      ∀ lease, leases.find? (fun it => it.attrs.publicIp = extAddr) = some lease →
        isReusable config lease = .ok false := by
  simp only [choose, bindOk] at ok
  obtain ⟨reusable, found, last⟩ := ok
  cases reusable with
  | some old => cases last
  | none =>
    simp only [bindOk] at last
    obtain ⟨block, allocated, same⟩ := last
    cases Choice.create.inj (Except.ok.inj same)
    exact ⟨allocated, fun lease first => nothingReusable found first⟩

end FlannelNg
