import FlannelNg.Cluster

/-! Ownership of a subnet entry. A put under a key is only guarded by an earlier read,
so it may meet an entry that another node created in between. It never does when no
block is created while another node still claims it: then a claim is exclusive, and
the log behind a node's watch holds only entries of that node under its key. -/
namespace FlannelNg
open Cidr Outcome Runs

def Local.claims : Local → Option Ipv4Network
  | .deciding _ (.reuse lease) => some lease.subnet
  | .holding lease _ => some lease.subnet
  | _ => none

/- What a node knows is its own: its address, the length of its subnet, and the
events of its watch. -/
def LocalOwn (config : Config) (ip : Ipv4Addr) (db : Store) : Local → Prop
  | .idle => True
  | .started config' attrs => config' = config ∧ attrs.publicIp = ip
  | .deciding attrs (.create sn) => attrs.publicIp = ip ∧ sn.prefixLen = config.subnetLen
  | .deciding attrs (.reuse lease) => attrs.publicIp = ip ∧ lease.subnet.prefixLen = config.subnetLen ∧
      lease.attrs.publicIp = ip
  | .holding lease none => lease.attrs.publicIp = ip ∧ lease.subnet.prefixLen = config.subnetLen
  | .holding lease (some w) => lease.attrs.publicIp = ip ∧ lease.subnet = w.subnet ∧
      w.subnet.prefixLen = config.subnetLen ∧
      w.Holds (fun l => l.attrs.publicIp = ip ∧ l.subnet = w.subnet) ∧
      (w.live = true → ∀ kv, .put kv ∈ (db.log.drop w.next).flatten → kv.key = w.subnet → kv.value.publicIp = ip)

section Local
variable {build : Build} {config : Config} {ip : Ipv4Addr} {db after : Store} {l l' : Local} {x : NodeAction}
variable {P : KeyValue Ipv4Network LeaseAttrs → Prop}

theorem localOwnChanged (changed : Changed Codec.plain P db after)
    (puts : ∀ kv, P kv → l.claims = some kv.key → kv.value.publicIp = ip) (own : LocalOwn config ip db l) :
    LocalOwn config ip after l := by
  cases l with
  | idle => trivial
  | started config' attrs => exact own
  | deciding attrs choice => cases choice <;> exact own
  | holding lease w =>
    cases w with
    | none => exact own
    | some w =>
      obtain ⟨address, subnet, length, inbox, behind⟩ := own
      refine ⟨address, subnet, length, inbox, ?_⟩
      intro live kv member key
      rcases changedSince changed member with old | new
      · exact behind live kv old key
      · exact puts kv new (by rw [key, ← subnet]; rfl)

theorem putsOwn {kv} (own : LocalOwn config ip db l) (puts : Puts db l x kv) :
    kv.value.publicIp = ip ∧ kv.key.prefixLen = config.subnetLen := by
  cases puts with
  | reuse => exact ⟨own.1, own.2.1⟩
  | create _ _ => exact own
  | @renew lease w rpc id =>
    cases w with
    | none => exact own
    | some w => exact ⟨own.1, by rw [own.2.1]; exact own.2.2.1⟩

theorem decidedOwn {subnetMin subnetMax rpc fuel pick attrs choice} (range : Range config subnetMin subnetMax)
    (address : attrs.publicIp = ip)
    (ok : decideLease Codec.plain build fuel config attrs.publicIp rpc pick db = .ok choice) :
    LocalOwn config ip db (.deciding attrs choice) ∧
      ∀ lease, choice = .reuse lease → ∃ kv, db.get lease.subnet = some kv ∧ kv.value.publicIp = ip := by
  obtain ⟨leases, revision, read, chosen⟩ := decided ok
  cases choice with
  | create sn =>
    refine ⟨⟨address, (allocated range (choseCreate chosen).1).length⟩, ?_⟩
    intro lease different
    contradiction
  | reuse lease =>
    obtain ⟨first, fits⟩ := choseReuse chosen
    have found := List.find?_some first
    have same : lease.attrs.publicIp = ip := by simpa [address] using found
    obtain ⟨kv, member, subnet, attrs⟩ := plainStored read (List.mem_of_find?_eq_some first)
    refine ⟨⟨address, ((reusableIff range).mp fits).2.2, same⟩, ?_⟩
    rintro _ ⟨⟩
    exact ⟨kv, subnet ▸ Etcd.memIff.mp member, attrs ▸ same⟩

theorem watchOwn {lease rpc} (settled : Settled db)
    (claimed : ∀ kv, db.get lease.subnet = some kv → kv.value.publicIp = ip)
    (own : LocalOwn config ip db (.holding lease none)) :
    LocalOwn config ip db (.holding lease (some (watchLease lease rpc db))) := by
  refine ⟨own.1, OwnWatch.watchKeeps.symm, by rw [OwnWatch.watchKeeps]; exact own.2, ?_, ?_⟩
  · intro batch member e inside put
    obtain ⟨kv, found, subnet, attrs⟩ := OwnWatch.watchHolds batch member e inside put
    rw [subnet, attrs, (Etcd.getSome found).2, OwnWatch.watchKeeps]
    exact ⟨claimed kv found, rfl⟩
  · intro live kv member key
    rw [(OwnWatch.watchNext live).1] at member
    have stored := OwnWatch.newestStored settled member
    rw [key, OwnWatch.watchKeeps] at stored
    exact claimed kv stored

theorem fetchOwn {lease w count answer} (live : w.live = true)
    (lengths : ∀ kv, .put kv ∈ (db.log.drop w.next).flatten → kv.key.prefixLen = config.subnetLen)
    (own : LocalOwn config ip db (.holding lease (some w))) :
    LocalOwn config ip db (.holding lease (some (w.fetch count answer db))) := by
  obtain ⟨address, subnet, length, inbox, behind⟩ := own
  refine ⟨address, subnet, length, OwnWatch.fetchHolds inbox ?_, ?_⟩
  · intro kv member start l key attrs
    have key' := subnetNamePrefix start (length.trans (lengths kv member).symm)
    exact ⟨attrs ▸ behind live kv member key'.symm, key.trans key'.symm⟩
  · exact fun _ kv member => behind live kv (behindSince OwnWatch.fetchNext member)

theorem movesOwn {stored subnetMin subnetMax} {base : Nat} (range : Range config subnetMin subnetMax)
    (accepted : getNetworkConfig build stored = .ok config) (settled : Settled db) (since : LocalSince base db l)
    (lengths : ∀ kv, .put kv ∈ (db.log.drop base).flatten → kv.key.prefixLen = config.subnetLen)
    (claimed : ∀ sn kv, l.claims = some sn → db.get sn = some kv → kv.value.publicIp = ip)
    (moves : Moves build stored ip db l x l' after) (own : LocalOwn config ip db l) :
    LocalOwn config ip after l' := by
  have kept : LocalOwn config ip after l :=
    localOwnChanged (movesChanged moves) (fun kv puts _ => (putsOwn own puts).1) own
  cases moves with
  | stay => exact own
  | stop => trivial
  | lost failed => trivial
  | start accepted' =>
    rw [accepted] at accepted'
    exact ⟨(Except.ok.inj accepted').symm, rfl⟩
  | read chosen =>
    obtain ⟨rfl, address⟩ := own
    exact (decidedOwn range address chosen).1
  | @won attrs choice rpc lease _ ok =>
    obtain ⟨exp, _, rfl, _⟩ := committed ok
    cases choice with
    | create sn => exact own
    | reuse lease => exact ⟨own.2.2, own.2.1⟩
  | @renewed lease w rpc next _ ok =>
    obtain ⟨subnet, attrs⟩ := renewKeeps ok
    cases w with
    | none =>
      simp only [LocalOwn, subnet, attrs]
      exact own
    | some w =>
      simp only [LocalOwn, subnet, attrs]
      exact kept
  | unrenewed failed => exact kept
  | watching => exact watchOwn settled (fun kv found => claimed _ kv rfl found) own
  | fetched live => exact fetchOwn live (fun kv behind => lengths kv (behindSince (since live) behind)) own
  | @delivered lease w batch rest next received followed =>
    obtain ⟨address, subnet, length, inbox, behind⟩ := own
    have held := OwnWatch.followed (P := fun l => l.attrs.publicIp = ip ∧ l.subnet = w.subnet) followed
      ⟨address, subnet⟩ (fun e inside put => inbox batch (by simp [received]) e inside put)
    exact ⟨held.1, held.2, length, fun other member => inbox other (by simp [received, member]), behind⟩

theorem movesClaims {stored subnetMin subnetMax sn} (range : Range config subnetMin subnetMax)
    (moves : Moves build stored ip db l x l' after) (own : LocalOwn config ip db l) (claims : l'.claims = some sn) :
    l.claims = some sn ∨
      ∃ kv, after.get sn = some kv ∧ kv.value.publicIp = ip ∧ (db.get sn = some kv ∨ Puts db l x kv) := by
  cases moves with
  | stay => exact .inl claims
  | stop | lost | start => cases claims
  | @read config' attrs rpc fuel pick choice chosen =>
    obtain ⟨rfl, address⟩ := own
    cases choice with
    | create sn => cases claims
    | reuse lease =>
      cases claims
      obtain ⟨kv, found, same⟩ := (decidedOwn range address chosen).2 lease rfl
      exact .inr ⟨kv, found, same, .inl found⟩
  | @won attrs choice rpc lease _ ok =>
    obtain ⟨exp, _, rfl, id, put⟩ := committed ok
    cases choice with
    | reuse lease => exact .inl claims
    | create sn' =>
      cases claims
      have here : after.get sn' = some ⟨sn', attrs, id⟩ := by
        rw [put]
        exact Etcd.getPut.trans (if_pos rfl)
      rcases changedGet (commitChanged ok) here with old | new
      · exact .inr ⟨⟨sn', attrs, id⟩, here, own.1, .inl old⟩
      · exact .inr ⟨⟨sn', attrs, id⟩, here, own.1, .inr new.1⟩
  | renewed ok => exact .inl ((congrArg some (renewKeeps ok).1).symm.trans claims)
  | unrenewed failed => exact .inl claims
  | watching => exact .inl claims
  | fetched live => exact .inl claims
  | @delivered lease w batch rest next received followed =>
    obtain ⟨_, subnet, _, inbox, _⟩ := own
    have held := OwnWatch.followed (P := fun l => l.subnet = w.subnet) followed subnet
      (fun e inside put => (inbox batch (by simp [received]) e inside put).2)
    refine .inl ?_
    rw [← claims]
    exact congrArg some (subnet.trans held.symm)

end Local

section Run
variable {N : Type} [DecidableEq N] {build : Build} {publicIp : N → Ipv4Addr} {config : Config} {base : Nat}

/- Claims are exclusive, and the entry of a claimed subnet is the claimant's. What was put
since the start is of the configured length, whatever an older configuration left. -/
structure Owned (build : Build) (publicIp : N → Ipv4Addr) (config : Config) (base : Nat) (c : Cluster N) : Prop where
  accepted : getNetworkConfig build c.stored = .ok config
  since : Since base c
  lengths : ∀ kv, .put kv ∈ (c.db.log.drop base).flatten → kv.key.prefixLen = config.subnetLen
  nodes : ∀ n, LocalOwn config (publicIp n) c.db (c.node n)
  unique : ∀ n m sn, (c.node n).claims = some sn → (c.node m).claims = some sn → n = m
  claimed : ∀ n sn kv, (c.node n).claims = some sn → c.db.get sn = some kv → kv.value.publicIp = publicIp n

/- One configuration is shared. -/
def Shared : Action N → Prop
  | .configure _ => False
  | _ => True

/-- No creation takes effect on a key that another node still claims. -/
def Uncontested (c : Cluster N) : Action N → Prop
  | .act n (.write rpc) =>
    match c.node n with
    | .deciding _ (.create sn) => rpc.applies = true → c.db.get sn = none → ∀ m, m ≠ n → (c.node m).claims ≠ some sn
    | _ => True
  | _ => True

/- Every entry that the step puts has the address of the node that puts it, and
replaces no entry with the address of another node. -/
def OwnWrites (build : Build) (publicIp : N → Ipv4Addr) (c : Cluster N) (a : Action N) : Prop :=
  ∀ kv, .put kv ∈ ((step build publicIp c a).db.log.drop c.db.log.length).flatten →
    ∃ n x, a = .act n x ∧ kv.value.publicIp = publicIp n ∧
      ∀ old m, c.db.get kv.key = some old → old.value.publicIp = publicIp m → m = n

variable {c : Cluster N} {a : Action N} {n : N} {x : NodeAction} {kv : KeyValue Ipv4Network LeaseAttrs}

omit [DecidableEq N] in
theorem putsExclusive (owned : Owned build publicIp config base c) (free : Uncontested c (.act n x))
    (puts : Puts c.db (c.node n) x kv) : (∀ m, m ≠ n → (c.node m).claims ≠ some kv.key) ∧
      ∀ old, c.db.get kv.key = some old → old.value.publicIp = publicIp n := by
  have ofClaim : (c.node n).claims = some kv.key → (∀ m, m ≠ n → (c.node m).claims ≠ some kv.key) ∧
      ∀ old, c.db.get kv.key = some old → old.value.publicIp = publicIp n := fun claims =>
    ⟨fun m other claims' => other (owned.unique m n kv.key claims' claims), fun old => owned.claimed n kv.key old claims⟩
  generalize local_ : c.node n = l at puts
  cases puts with
  | reuse => exact ofClaim (by rw [local_]; rfl)
  | renew => exact ofClaim (by rw [local_]; rfl)
  | create applies absent =>
    simp only [Uncontested, local_] at free
    exact ⟨free applies absent, by simp [absent]⟩

/- Whoever claims the key of a put is the node that puts, with its own address. -/
theorem putByClaimant (owned : Owned build publicIp config base c) (free : Uncontested c a) (acting : a = .act n x)
    (puts : Puts c.db (c.node n) x kv) {m : N} (claims : (c.node m).claims = some kv.key) :
    m = n ∧ kv.value.publicIp = publicIp m := by
  subst acting
  have same : m = n := by
    by_contra other
    exact (putsExclusive owned free puts).1 m other claims
  exact ⟨same, same ▸ (putsOwn (owned.nodes n) puts).1⟩

theorem stepLengths (owned : Owned build publicIp config base c) :
    ∀ kv, .put kv ∈ ((step build publicIp c a).db.log.drop base).flatten → kv.key.prefixLen = config.subnetLen := by
  intro kv member
  rcases changedSince (@stepChanged N _ build publicIp c a) member with old | ⟨n, x, _, puts⟩
  · exact owned.lengths kv old
  · exact (putsOwn (owned.nodes n) puts).2

/- What the claimant of a key before the step finds under it afterwards. -/
theorem stillClaimed (owned : Owned build publicIp config base c) (free : Uncontested c a) {m : N} {sn : Ipv4Network}
    (claims : (c.node m).claims = some sn) (found : (step build publicIp c a).db.get sn = some kv) :
    kv.value.publicIp = publicIp m := by
  rcases changedGet (@stepChanged N _ build publicIp c a) found with old | ⟨⟨n, x, acting, puts⟩, rfl⟩
  · exact owned.claimed m sn kv claims old
  · exact (putByClaimant owned free acting puts claims).2

theorem bystanderOwn (owned : Owned build publicIp config base c) (free : Uncontested c a) (m : N) :
    LocalOwn config (publicIp m) (step build publicIp c a).db (c.node m) := by
  refine localOwnChanged (@stepChanged N _ build publicIp c a) ?_ (owned.nodes m)
  rintro kv ⟨n, x, acting, puts⟩ claims
  exact (putByClaimant owned free acting puts claims).2

/- A subnet newly claimed is claimed by nobody else. -/
theorem claimedAlone {l : Local} {m : N} {sn : Ipv4Network} (distinct : Function.Injective publicIp)
    (owned : Owned build publicIp config base c) (free : Uncontested c (.act n x))
    (moves : Moves build c.stored (publicIp n) c.db (c.node n) x l (step build publicIp c (.act n x)).db)
    (other : m ≠ n) (new : l.claims = some sn) : (c.node m).claims ≠ some sn := by
  intro old
  obtain ⟨subnetMin, subnetMax, range⟩ := acceptedRange owned.accepted
  rcases movesClaims range moves (owned.nodes n) new with before | ⟨kv, found, address, present | puts⟩
  · exact other (owned.unique m n sn old before)
  · exact other (distinct ((owned.claimed m sn kv old present).symm.trans address))
  · obtain ⟨_, rfl⟩ := Etcd.getSome found
    exact other (putByClaimant owned free rfl puts old).1

theorem uniqueUpdate {node : N → Local} {l : Local}
    (unique : ∀ m m' sn, (node m).claims = some sn → (node m').claims = some sn → m = m')
    (alone : ∀ m sn, m ≠ n → l.claims = some sn → (node m).claims ≠ some sn) (m m' : N) (sn : Ipv4Network)
    (left : (Function.update node n l m).claims = some sn) (right : (Function.update node n l m').claims = some sn) :
    m = m' := by
  by_cases same : m = n <;> by_cases same' : m' = n
  · rw [same, same']
  · subst same
    rw [Function.update_self] at left
    rw [Function.update_of_ne same'] at right
    exact absurd right (alone m' sn same' left)
  · subst same'
    rw [Function.update_of_ne same] at left
    rw [Function.update_self] at right
    exact absurd left (alone m sn same right)
  · rw [Function.update_of_ne same] at left
    rw [Function.update_of_ne same'] at right
    exact unique m m' sn left right

theorem stepOwned (distinct : Function.Injective publicIp) (owned : Owned build publicIp config base c)
    (shared : Shared a) (free : Uncontested c a) : Owned build publicIp config base (step build publicIp c a) := by
  cases a with
  | configure stored => exact shared.elim
  | expire key =>
    exact ⟨owned.accepted, stepSince _ owned.since, stepLengths owned, bystanderOwn owned free, owned.unique,
      fun _ _ _ claims found => stillClaimed owned free claims found⟩
  | act n x =>
    obtain ⟨subnetMin, subnetMax, range⟩ := acceptedRange owned.accepted
    obtain ⟨l, node, moves⟩ := @stepAct N _ build publicIp c n x
    refine ⟨owned.accepted, stepSince _ owned.since, stepLengths owned, ?_, ?_, ?_⟩
    · intro m
      rw [node]
      by_cases same : m = n
      · subst same
        rw [Function.update_self]
        exact movesOwn range owned.accepted c.settled (owned.since.nodes m) owned.lengths (owned.claimed m) moves
          (owned.nodes m)
      · rw [Function.update_of_ne same]
        exact bystanderOwn owned free m
    · rw [node]
      exact uniqueUpdate owned.unique (fun m sn other new => claimedAlone distinct owned free moves other new)
    · intro m sn kv claims found
      rw [node] at claims
      by_cases same : m = n
      · subst same
        rw [Function.update_self] at claims
        rcases movesClaims range moves (owned.nodes m) claims with before | ⟨kv', found', address, _⟩
        · exact stillClaimed owned free before found
        · cases found.symm.trans found'
          exact address
      · rw [Function.update_of_ne same] at claims
        exact stillClaimed owned free claims found

theorem stepWrites (distinct : Function.Injective publicIp) (owned : Owned build publicIp config base c)
    (free : Uncontested c a) : OwnWrites build publicIp c a := by
  intro kv member
  obtain ⟨txns, log, new⟩ := changedLog (@stepChanged N _ build publicIp c a)
  rw [log, List.drop_left] at member
  obtain ⟨n, x, rfl, puts⟩ := new kv member
  refine ⟨n, x, rfl, (putsOwn (owned.nodes n) puts).1, ?_⟩
  intro old m found address
  exact distinct (address.symm.trans ((putsExclusive owned free puts).2 old found))

omit [DecidableEq N] in
theorem idleOwned (accepted : getNetworkConfig build c.stored = .ok config) (idle : ∀ n, c.node n = .idle) :
    Owned build publicIp config c.db.log.length c := by
  refine ⟨accepted, sinceIdle idle, fun kv put => ?_, fun n => ?_, fun n m sn claims => ?_, fun n sn kv claims => ?_⟩
  · rw [List.drop_length] at put
    exact absurd put List.not_mem_nil
  · rw [idle n]
    trivial
  · rw [idle n] at claims
    cases claims
  · rw [idle n] at claims
    cases claims

theorem writesStayOwn (distinct : Function.Injective publicIp) {actions : List (Action N)}
    (accepted : getNetworkConfig build c.stored = .ok config)
    (idle : ∀ n, c.node n = .idle)
    (permitted : Along (step build publicIp) (fun c a => Shared a ∧ Uncontested c a) c actions) :
    Along (step build publicIp) (OwnWrites build publicIp) c actions :=
  alongInvariant (fun _ _ owned permitted => stepOwned distinct owned permitted.1 permitted.2)
    (fun _ _ owned permitted => stepWrites distinct owned permitted.2) (idleOwned accepted idle) permitted

end Run

/- The entry of the first node is stored when both nodes start. -/
private def returning : Cluster Bool :=
  quietCluster (Etcd.empty.put Codec.plain ⟨cidr 0x0A000004 30, { publicIp := 1 }, 9⟩) settledPut

private def delayedReuse : List (Action Bool) :=
  choosing false ++ [.expire (cidr 0x0A000004 30)] ++ choosing true ++ [writing true 1]

theorem delayedReuseReplaces : ¬Along (step .checked addressOf) (OwnWrites .checked addressOf) returning
    (delayedReuse ++ [writing false 2]) := by
  intro along
  obtain ⟨_, last⟩ := alongSnoc.mp along
  obtain ⟨n, x, same, address, owner⟩ := last ⟨cidr 0x0A000004 30, { publicIp := 1 }, 2⟩ (by decide)
  cases same
  exact absurd (owner ⟨cidr 0x0A000004 30, { publicIp := 2 }, 1⟩ true (by decide) (by decide)) (by decide)

/- Besides it, the store holds an entry of an older configuration. -/
private def mixedLengths : Cluster Bool :=
  quietCluster ((Etcd.empty.put Codec.plain ⟨cidr 0x0A00000C 31, { publicIp := 3 }, 8⟩).put Codec.plain
    ⟨cidr 0x0A000004 30, { publicIp := 1 }, 9⟩) settledPut

theorem oneAfterAnotherStaysOwn : Along (step .checked addressOf) (OwnWrites .checked addressOf) mixedLengths
    (choosing false ++ [writing false 1] ++ choosing true ++ [writing true 2]) := by
  refine writesStayOwn addressesDiffer (smallConfigAccepted .checked) (fun _ => rfl) ?_
  refine ⟨⟨trivial, trivial⟩, ⟨trivial, trivial⟩, ⟨trivial, trivial⟩, ⟨trivial, trivial⟩, ⟨trivial, trivial⟩,
    ⟨trivial, fun _ _ m other => ?_⟩, trivial⟩
  cases m with
  | false => decide
  | true => contradiction

end FlannelNg
