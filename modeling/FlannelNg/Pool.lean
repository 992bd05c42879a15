import FlannelNg.HandOver
import FlannelNg.Race
import FlannelNg.ScanExact
import FlannelNg.UsableRange

/-! Handing out the whole pool. Nodes that come one after the other each get a block of
their own, whatever is picked, until every block of the default range is taken; from
then on a new node gets none and leaves the store as it is. -/
namespace FlannelNg
open Cidr Outcome Runs

section Slots
variable {α : Type} [DecidableEq α] {slots taken : List α}

theorem freeSlot (distinct : slots.Nodup) (fewer : taken.length < slots.length) : ∃ s ∈ slots, s ∉ taken := by
  by_contra none
  push Not at none
  exact absurd (distinct.subperm none).length_le (by omega)

omit [DecidableEq α] in
theorem noFreeSlot (distinct : taken.Nodup) (inside : taken ⊆ slots) (full : slots.length ≤ taken.length) :
    slots ⊆ taken :=
  ((distinct.subperm inside).perm_of_length_le full).symm.subset

end Slots

/- An attempt that nobody interferes with, and whose RPCs succeed. -/
structure Attempt.Alone (att : Round) : Prop where
  before : att.before = []
  meanwhile : att.meanwhile = []
  read : att.read.failed = none
  ttl : ∀ kv, Answered (att.read.ttl kv) (att.read.clock kv)
  grant : ∃ id ttl, att.write.grant = .ok (id, ttl)
  answer : att.write.answer = .answered
  reported : ∃ exp, att.write.reported = .ok exp

structure Call where
  attrs : LeaseAttrs
  attempts : Nat → Round

structure Pool where
  results : List (Res Lease)
  db : Etcd Ipv4Network LeaseAttrs

namespace Pool

def empty : Pool := ⟨[], Etcd.empty⟩

def acquire (build : Build) (fuel : Nat) (stored : Res Config) (db : Etcd Ipv4Network LeaseAttrs)
    (call : Call) : Res Lease × Etcd Ipv4Network LeaseAttrs :=
  acquireLease Codec.plain build fuel stored call.attrs call.attempts db

def serve (build : Build) (fuel : Nat) (stored : Res Config) (pool : Pool) (call : Call) : Pool :=
  let (result, db) := acquire build fuel stored pool.db call
  ⟨pool.results ++ [result], db⟩

end Pool

/- The blocks of the network, less the first. -/
def poolSize (config : Config) (n : Ipv4Network) : Nat := 2 ^ (config.subnetLen - n.prefixLen) - 1

/- The blocks of the default range are whole blocks of the network, without its first. -/
structure Default (config : Config) (n : Ipv4Network) (subnetMin subnetMax : Ipv4Addr) : Prop where
  usable : UsableRange config n subnetMin subnetMax
  canonical : n.Canonical
  first : subnetMin.toNat = n.ip.toNat + 2 ^ (32 - config.subnetLen)
  last : subnetMax.toNat + 2 ^ (32 - config.subnetLen) = n.ip.toNat + n.size
  below : n.ip.toNat + n.size < 2 ^ 32

theorem acceptedDefault {build : Build} {raw config : Config} {n : Ipv4Network}
    (accepted : getNetworkConfig build (.ok raw) = .ok config) (net : raw.network = some n) (canonical : n.Canonical)
    (low : 0 < n.prefixLen) (below : n.ip.toNat + n.size < 2 ^ 32) (noMin : raw.subnetMin = none)
    (noMax : raw.subnetMax = none) : ∃ subnetMin subnetMax, Default config n subnetMin subnetMax := by
  obtain ⟨m, net', accepts, rfl⟩ := acceptedCompletes accepted
  cases Option.some.inj (net.symm.trans net')
  obtain ⟨size, four⟩ := blockSizeNat accepts.len
  have value : (n.ip + raw.readied.blockSize n).toNat = n.ip.toNat + 2 ^ (32 - raw.readied.blockLen n) := by
    rw [BitVec.toNat_add, size]
    exact Nat.mod_eq_of_lt (by omega)
  have pos : 0 < 2 ^ (32 - raw.readied.blockLen n) := Nat.two_pow_pos _
  have first : raw.readied.firstBlock n = n.ip + raw.readied.blockSize n := by
    rw [Config.firstBlock, show raw.readied.subnetMin = none from noMin]
    rfl
  have stays : raw.readied.StaysInside n := by
    refine ⟨fun _ => ?_, fun _ => .inr canonical, ?_⟩
    · rw [containsRange canonical, value]
      omega
    · rintro (given | all)
      · exact absurd noMax given
      · omega
  obtain ⟨_, lower, upper, usable⟩ := (@usableIff raw.readied n net accepts).mpr stays
  cases Option.some.inj (net.symm.trans usable.network)
  cases Option.some.inj (usable.range.least)
  cases Option.some.inj (usable.range.greatest)
  refine ⟨_, _, usable, canonical, ?_, ?_, below⟩
  · rw [first, value]
    rfl
  · have last := lastOfCanonical accepts.len low noMax canonical
    change _ + 2 ^ (32 - raw.readied.blockLen n) = _
    omega

section Blocks
variable {build : Build} {config : Config} {n : Ipv4Network} {subnetMin subnetMax : Ipv4Addr}

theorem defaultSpan (range : Default config n subnetMin subnetMax) : Span range.usable.range.start subnetMax :=
  rangeSpan range.usable.range range.usable.ordered

theorem defaultCount (range : Default config n subnetMin subnetMax) :
    blocksBefore range.usable.range.start subnetMax + 1 = poolSize config n := by
  have room := range.usable.room
  have high := range.usable.range.lenHigh
  have first := range.first
  have last := range.last
  have pos : 0 < 2 ^ (32 - config.subnetLen) := Nat.two_pow_pos _
  have exact_ := spanExact (defaultSpan range)
  have size : range.usable.range.start.size = 2 ^ (32 - config.subnetLen) := rfl
  have start : range.usable.range.start.ip = subnetMin := rfl
  have split : n.size = 2 ^ (config.subnetLen - n.prefixLen) * 2 ^ (32 - config.subnetLen) := by
    rw [Ipv4Network.size, ← Nat.pow_add]
    congr 1
    omega
  rw [size, start] at exact_
  have total : (blocksBefore range.usable.range.start subnetMax + 2) * 2 ^ (32 - config.subnetLen) =
      2 ^ (config.subnetLen - n.prefixLen) * 2 ^ (32 - config.subnetLen) := by
    rw [← split, Nat.add_mul]
    omega
  have same := Nat.eq_of_mul_eq_mul_right pos total
  unfold poolSize
  omega

/- The blocks of the pool. -/
def slots (range : Default config n subnetMin subnetMax) : List Ipv4Network :=
  blocks range.usable.range.start (poolSize config n)

theorem slotsLength (range : Default config n subnetMin subnetMax) : (slots range).length = poolSize config n := by
  simp [slots, blocks]

theorem slotMem (range : Default config n subnetMin subnetMax) {sn : Ipv4Network} : sn ∈ slots range ↔
    ∃ i ≤ blocksBefore range.usable.range.start subnetMax, nth range.usable.range.start i = sn := by
  rw [slots, blocks, List.mem_map, ← defaultCount range]
  simp only [List.mem_range, Nat.lt_succ_iff]

theorem slotsDistinct (range : Default config n subnetMin subnetMax) : (slots range).Nodup := by
  refine List.Nodup.map_on ?_ List.nodup_range
  intro i here j there same
  have span := defaultSpan range
  have count := defaultCount range
  rw [List.mem_range] at here there
  have addresses := congrArg (fun sn => sn.ip.toNat) same
  simp only [nthInSpan span (show i ≤ blocksBefore range.usable.range.start subnetMax by omega),
    nthInSpan span (show j ≤ blocksBefore range.usable.range.start subnetMax by omega)] at addresses
  exact Nat.eq_of_mul_eq_mul_right (sizePos range.usable.range.start) (by omega)

theorem slotBlock (range : Default config n subnetMin subnetMax) {sn : Ipv4Network} : sn ∈ slots range ↔
    sn.prefixLen = config.subnetLen ∧ sn.Canonical ∧ subnetMin ≤ sn.ip ∧ sn.ip ≤ subnetMax := by
  have span := defaultSpan range
  rw [slotMem]
  constructor
  · rintro ⟨i, before, rfl⟩
    have value := nthInSpan span before
    have last := spanExact span
    have upTo := Nat.mul_le_mul_right range.usable.range.start.size before
    refine ⟨rfl, nthCanonical ((canonicalIff _).mpr span.startAligned) i, ?_, ?_⟩
    · rw [BitVec.le_def, value]
      exact Nat.le_add_right subnetMin.toNat _
    · rw [BitVec.le_def, value]
      omega
  · rintro ⟨length, canonical, least, greatest⟩
    exact blockInSpan span length canonical least greatest

theorem slotInside (range : Default config n subnetMin subnetMax) {sn : Ipv4Network} (slot : sn ∈ slots range) :
    (∀ a, sn.contains a = true → n.contains a = true) ∧ sn.contains n.ip = false := by
  obtain ⟨length, canonical, least, greatest⟩ := (slotBlock range).mp slot
  have size : sn.size = 2 ^ (32 - config.subnetLen) := by rw [Ipv4Network.size, length]
  have pos : 0 < 2 ^ (32 - config.subnetLen) := Nat.two_pow_pos _
  rw [BitVec.le_def] at least greatest
  constructor
  · intro a member
    obtain ⟨from_, before⟩ := (containsRange canonical a).mp member
    exact range.usable.inside a (by omega) (by omega)
  · rw [Bool.eq_false_iff]
    intro member
    have from_ := ((containsRange canonical n.ip).mp member).1
    have first := range.first
    omega

end Blocks

/- What the calls served so far leave behind: one entry for each, in a block of the pool,
until the pool is used up. -/
structure Served {config : Config} {n : Ipv4Network} {subnetMin subnetMax : Ipv4Addr}
    (range : Default config n subnetMin subnetMax) (served : List Call) (db : Etcd Ipv4Network LeaseAttrs) : Prop where
  keys : ∀ kv ∈ db.kvs, kv.key ∈ slots range
  owners : ∀ kv ∈ db.kvs, ∃ call ∈ served, call.attrs.publicIp = kv.value.publicIp
  count : db.kvs.length = min served.length (poolSize config n)

section Serve
variable {build : Build} {config : Config} {n : Ipv4Network} {subnetMin subnetMax : Ipv4Addr} {stored : Res Config}
variable {range : Default config n subnetMin subnetMax} {served : List Call} {call : Call} {fuel pick : Nat}
variable {db : Etcd Ipv4Network LeaseAttrs} {leases : List Lease} {kv : KeyValue Ipv4Network LeaseAttrs}

theorem putPerm (absent : db.get kv.key = none) : (db.put Codec.plain kv).kvs.Perm (kv :: db.kvs) := by
  have missing : (Keyed.lookup KeyValue.key kv.key db.kvs).isSome = false := by
    rw [show Keyed.lookup KeyValue.key kv.key db.kvs = none from absent]
    rfl
  change (Keyed.insertSorted KeyValue.key _ kv db.kvs).Perm _
  rw [Keyed.insertSorted, if_neg (by simp [missing])]
  exact List.perm_orderedInsert _ kv db.kvs

theorem getAbsent {sn : Ipv4Network} : db.get sn = none ↔ sn ∉ db.kvs.map KeyValue.key := by
  unfold Etcd.get
  rw [Keyed.lookupNone, List.mem_map]
  push Not
  rfl

theorem aloneSnapshot {rpc : ReadRpc Ipv4Network LeaseAttrs} (read : rpc.failed = none)
    (answered : ∀ kv, Answered (rpc.ttl kv) (rpc.clock kv)) :
    ∃ leases revision, getSubnets Codec.plain rpc db = .ok (leases, revision) ∧
      leases.map Lease.subnet = db.kvs.map KeyValue.key := by
  obtain ⟨leases, all, _, subnets⟩ := @readAll _ _ Codec.plain id id db.kvs rpc (fun kv _ => answered kv)
    (fun kv _ => ⟨none, rfl⟩) (fun kv _ => rfl)
  by_cases empty : db.kvs.length = 0
  · exact ⟨[], 0, by simp [getSubnets, read, empty], by rw [List.eq_nil_of_length_eq_zero empty]; rfl⟩
  · refine ⟨leases, db.revision, ?_, subnets⟩
    simp only [getSubnets, read, if_neg empty, all]
    rfl

theorem freshSnapshot {rpc : ReadRpc Ipv4Network LeaseAttrs} {revision : Nat} {ip : Ipv4Addr}
    (read : getSubnets Codec.plain rpc db = .ok (leases, revision))
    (fresh : ∀ kv ∈ db.kvs, kv.value.publicIp ≠ ip) : leases.find? (fun it => it.attrs.publicIp = ip) = none := by
  rw [List.find?_eq_none]
  intro lease member
  obtain ⟨kv, stored, _, attrs⟩ := plainStored read member
  simpa [attrs] using fresh kv stored

/- The free blocks of the scan are those of the pool that are not taken. -/
theorem freeSlots {free : List Ipv4Addr} (range : Default config n subnetMin subnetMax)
    (blocks : FreeBlocks config subnetMin subnetMax leases free) (keys : ∀ l ∈ leases, l.subnet ∈ slots range) :
    (∀ sn ∈ slots range, sn ∉ leases.map Lease.subnet → sn.ip ∈ free) ∧
    ∀ ip ∈ free, cidr ip config.subnetLen ∈ slots range ∧ cidr ip config.subnetLen ∉ leases.map Lease.subnet := by
  have valid := range.usable.range.start.valid
  constructor
  · intro sn slot untaken
    obtain ⟨length, canonical, least, greatest⟩ := (slotBlock range).mp slot
    refine (blocks.member sn.ip).mpr ⟨least, greatest, ?_, fun l member => ?_⟩
    · rw [← length]
      exact (canonicalIff sn).mp canonical
    · obtain ⟨length', canonical', _, _⟩ := (slotBlock range).mp (keys l member)
      have same : cidr sn.ip config.subnetLen = sn :=
        (cidrIs valid).trans (eqOfParts rfl length.symm)
      rw [same]
      refine canonicalDisjoint canonical canonical' (length.trans length'.symm) ?_
      rintro rfl
      exact untaken (List.mem_map_of_mem member)
  · intro ip member
    obtain ⟨least, greatest, aligned, clear⟩ := (blocks.member ip).mp member
    have length : (cidr ip config.subnetLen).prefixLen = config.subnetLen :=
      congrArg Ipv4Network.prefixLen (cidrIs valid)
    refine ⟨(slotBlock range).mpr ⟨length, ?_, least, greatest⟩, ?_⟩
    · rw [canonicalIff, Ipv4Network.size, length]
      exact aligned
    · intro taken
      obtain ⟨l, member, same⟩ := List.mem_map.mp taken
      have apart := clear l member
      rw [same] at apart
      exact sharedIp rfl apart

/- The allocator finds a block exactly while one of the pool is not taken. -/
theorem allocateSlot (range : Default config n subnetMin subnetMax) (keys : ∀ kv ∈ db.kvs, kv.key ∈ slots range)
    (snapshot : leases.map Lease.subnet = db.kvs.map KeyValue.key) (enough : 2 ^ 37 < fuel) :
    ((∃ s ∈ slots range, s ∉ db.kvs.map KeyValue.key) → ∃ sn ∈ slots range, sn ∉ db.kvs.map KeyValue.key ∧
      allocateSubnet build config leases fuel pick = .ok sn) ∧
    (slots range ⊆ db.kvs.map KeyValue.key →
      allocateSubnet build config leases fuel pick = .error (.bail "no available subnets")) := by
  have last := range.last
  have below := range.below
  obtain ⟨free, blocks, scanned⟩ := @scanExact build _ _ _ leases fuel range.usable.range (by omega) enough
  obtain ⟨none, some⟩ := @allocateFrom build _ _ _ leases fuel pick _ range.usable.range scanned
  have inPool : ∀ l ∈ leases, l.subnet ∈ slots range := by
    intro l member
    have key : l.subnet ∈ db.kvs.map KeyValue.key := snapshot ▸ List.mem_map_of_mem member
    obtain ⟨kv, stored, same⟩ := List.mem_map.mp key
    exact same ▸ keys kv stored
  obtain ⟨free_, blockOfFree⟩ := freeSlots range blocks inPool
  rw [snapshot] at free_ blockOfFree
  constructor
  · rintro ⟨s, slot, untaken⟩
    obtain ⟨ip, chosen, allocated⟩ := some (by
      simpa using List.ne_nil_of_mem (free_ s slot untaken))
    obtain ⟨slot', untaken'⟩ := blockOfFree ip (List.mem_of_mem_take (List.mem_of_getElem? chosen))
    exact ⟨_, slot', untaken', allocated⟩
  · intro all
    refine none ?_
    rw [List.take_eq_nil_iff]
    refine .inr (List.eq_nil_iff_forall_not_mem.mpr fun ip member => ?_)
    obtain ⟨slot, untaken⟩ := blockOfFree ip member
    exact untaken (all slot)

theorem aloneStores {att : Round} (alone : att.Alone) : att.seen db = db ∧ att.met db = db := by
  have seen : att.seen db = db := by simp [Attempt.seen, alone.before]
  exact ⟨seen, by rw [Attempt.met, seen, alone.meanwhile]; rfl⟩

theorem acquireServes (accepted : getNetworkConfig build stored = .ok config) (enough : 2 ^ 37 < fuel)
    (alone : ∀ round, (call.attempts round).Alone)
    (fresh : ∀ earlier ∈ served, earlier.attrs.publicIp ≠ call.attrs.publicIp) (inv : Served range served db) :
    (served.length < poolSize config n → ∃ lease id, lease.subnet ∈ slots range ∧ db.get lease.subnet = none ∧
      Pool.acquire build fuel stored db call = (.ok lease, db.put Codec.plain ⟨lease.subnet, call.attrs, id⟩)) ∧
    (poolSize config n ≤ served.length →
      Pool.acquire build fuel stored db call = (.error (.bail "no available subnets"), db)) := by
  have quiet := alone 0
  obtain ⟨seen, met⟩ := @aloneStores db _ quiet
  obtain ⟨leases, revision, read, snapshot⟩ := @aloneSnapshot db (call.attempts 0).read quiet.read quiet.ttl
  have others : ∀ kv ∈ db.kvs, kv.value.publicIp ≠ call.attrs.publicIp := by
    intro kv member same
    obtain ⟨earlier, mem, own⟩ := inv.owners kv member
    exact fresh earlier mem (own.trans same)
  have unknown := freshSnapshot read others
  have chosen : decideLease Codec.plain build fuel config call.attrs.publicIp (call.attempts 0).read
      (call.attempts 0).pick db =
        (allocateSubnet build config leases fuel (call.attempts 0).pick).map Choice.create := by
    have nothing : ¬∃ old, leases.find? (fun it => it.attrs.publicIp = call.attrs.publicIp) = some old ∧
        isReusable config old = .ok true := by
      simp [unknown]
    rw [← chooseFresh range.usable.range nothing]
    simp [decideLease, read, bind, Except.bind]
  obtain ⟨free, full⟩ := @allocateSlot build _ _ _ _ fuel (call.attempts 0).pick db leases range inv.keys snapshot enough
  have distinct : (db.kvs.map KeyValue.key).Nodup := db.distinct
  have count := inv.count
  constructor
  · intro room
    obtain ⟨sn, slot, untaken, allocated⟩ := free (freeSlot (slotsDistinct range) (by
      rw [slotsLength, List.length_map]
      omega))
    rw [allocated] at chosen
    have absent : db.get sn = none := getAbsent.mpr untaken
    obtain ⟨exp, reported⟩ := quiet.reported
    have written := @commitCreate call.attrs (call.attempts 0).write db sn quiet.grant quiet.answer
    rw [if_pos absent, reported] at written
    obtain ⟨_, _, _, id, put⟩ := committed (Prod.ext written rfl)
    refine ⟨(Choice.create sn).lease call.attrs exp, id, slot, absent, ?_⟩
    rw [Pool.acquire, acquireCommits accepted (by rw [seen]; exact chosen), met]
    exact Prod.ext written put
  · intro done
    have all := noFreeSlot distinct (fun s member => by
      obtain ⟨kv, stored, rfl⟩ := List.mem_map.mp member
      exact inv.keys kv stored) (by
        rw [slotsLength, List.length_map]
        omega)
    rw [full all] at chosen
    rw [Pool.acquire, acquireIsFirst accepted]
    have before : (call.attempts 0).before.foldl (interfere Codec.plain) db = db := seen
    simp only [tryAcquireLease, before, chosen]
    rfl

theorem servedStep (accepted : getNetworkConfig build stored = .ok config) (enough : 2 ^ 37 < fuel)
    (alone : ∀ round, (call.attempts round).Alone)
    (fresh : ∀ earlier ∈ served, earlier.attrs.publicIp ≠ call.attrs.publicIp) (inv : Served range served db) :
    Served range (served ++ [call]) (Pool.acquire build fuel stored db call).2 ∧
      ((Pool.acquire build fuel stored db call).2 = db ∨ ∃ kv, db.get kv.key = none ∧
        (Pool.acquire build fuel stored db call).2 = db.put Codec.plain kv) ∧
      ∀ lease, (Pool.acquire build fuel stored db call).1 = .ok lease →
        lease.subnet ∈ (Pool.acquire build fuel stored db call).2.kvs.map KeyValue.key := by
  obtain ⟨wins, fails⟩ := acquireServes accepted enough alone fresh inv
  have count := inv.count
  rcases Nat.lt_or_ge served.length (poolSize config n) with room | done
  · obtain ⟨lease, id, slot, absent, acquired⟩ := wins room
    have perm := @putPerm db ⟨lease.subnet, call.attrs, id⟩ absent
    rw [acquired]
    refine ⟨⟨?_, ?_, ?_⟩, .inr ⟨_, absent, rfl⟩, ?_⟩
    · intro kv member
      rcases List.mem_cons.mp (perm.subset member) with rfl | old
      · exact slot
      · exact inv.keys kv old
    · intro kv member
      rcases List.mem_cons.mp (perm.subset member) with rfl | old
      · exact ⟨call, by simp, rfl⟩
      · obtain ⟨earlier, mem, own⟩ := inv.owners kv old
        exact ⟨earlier, List.mem_append_left _ mem, own⟩
    · rw [perm.length_eq, List.length_cons, List.length_append, List.length_singleton]
      omega
    · intro won same
      cases Except.ok.inj same
      exact List.mem_map.mpr ⟨_, perm.symm.subset List.mem_cons_self, rfl⟩
  · rw [fails done]
    refine ⟨⟨inv.keys, fun kv member => ?_, ?_⟩, .inl rfl, fun lease won => by contradiction⟩
    · obtain ⟨earlier, mem, own⟩ := inv.owners kv member
      exact ⟨earlier, List.mem_append_left _ mem, own⟩
    · change db.kvs.length = _
      rw [List.length_append, List.length_singleton]
      omega

theorem servedRun (range : Default config n subnetMin subnetMax) (accepted : getNetworkConfig build stored = .ok config)
    (enough : 2 ^ 37 < fuel) {calls : List Call} (alone : ∀ call ∈ calls, ∀ round, (call.attempts round).Alone)
    (apart : (calls.map (fun call => call.attrs.publicIp)).Nodup) :
    Served range calls (run (Pool.serve build fuel stored) Pool.empty calls).db ∧
      ∀ lease, .ok lease ∈ (run (Pool.serve build fuel stored) Pool.empty calls).results →
        lease.subnet ∈ (run (Pool.serve build fuel stored) Pool.empty calls).db.kvs.map KeyValue.key := by
  -- one entry more for each call, up to the size of the pool
  induction calls using List.reverseRecOn with
  | nil => exact ⟨⟨nofun, nofun, (Nat.zero_min _).symm⟩, nofun⟩
  | append_singleton calls call ih =>
    rw [List.map_append, List.nodup_append] at apart
    obtain ⟨inv, granted⟩ := ih (fun earlier mem => alone earlier (List.mem_append_left _ mem)) apart.1
    have fresh : ∀ earlier ∈ calls, earlier.attrs.publicIp ≠ call.attrs.publicIp := fun earlier mem =>
      apart.2.2 _ (List.mem_map_of_mem mem) _ (by simp)
    rw [runAppend, runCons, runNil]
    obtain ⟨inv', moved, won⟩ := servedStep accepted enough (alone call (by simp)) fresh inv
    refine ⟨inv', fun lease member => ?_⟩
    rcases List.mem_append.mp member with old | new
    · obtain ⟨kv, entry, own⟩ := List.mem_map.mp (granted lease old)
      change lease.subnet ∈ (Pool.acquire build fuel stored _ call).2.kvs.map KeyValue.key
      refine List.mem_map.mpr ⟨kv, ?_, own⟩
      rcases moved with same | ⟨kv', absent, put⟩
      · rw [same]
        exact entry
      · rw [put]
        exact (putPerm absent).symm.subset (List.mem_cons_of_mem _ entry)
    · exact won lease (List.mem_singleton.mp new).symm

end Serve

theorem poolIsExhausted {build : Build} {raw config : Config} {n : Ipv4Network} {fuel : Nat}
    (accepted : getNetworkConfig build (.ok raw) = .ok config) (net : raw.network = some n) (canonical : n.Canonical)
    (low : 1 ≤ n.prefixLen) (below : n.ip.toNat + n.size < 2 ^ 32) (noMin : raw.subnetMin = none)
    (noMax : raw.subnetMax = none) (enough : 2 ^ 37 < fuel) (calls : List Call)
    (alone : ∀ call ∈ calls, ∀ round, (call.attempts round).Alone)
    (apart : (calls.map (fun call => call.attrs.publicIp)).Nodup) :
    ∀ pre call post, calls = pre ++ call :: post →
      let pool := run (Pool.serve build fuel (.ok raw)) Pool.empty pre
      (pre.length < 2 ^ (config.subnetLen - n.prefixLen) - 1 →
        ∃ lease after, Pool.acquire build fuel (.ok raw) pool.db call = (.ok lease, after) ∧
          (∀ a, lease.subnet.contains a = true → n.contains a = true) ∧ lease.subnet.contains n.ip = false ∧
          ∀ earlier, .ok earlier ∈ pool.results → earlier.subnet.Disjoint lease.subnet) ∧
      (2 ^ (config.subnetLen - n.prefixLen) - 1 ≤ pre.length →
        Pool.acquire build fuel (.ok raw) pool.db call = (.error (.bail "no available subnets"), pool.db)) := by
  rintro pre call post rfl
  obtain ⟨subnetMin, subnetMax, range⟩ := acceptedDefault accepted net canonical low below noMin noMax
  rw [List.map_append, List.nodup_append] at apart
  obtain ⟨inv, granted⟩ := servedRun range accepted enough
    (fun earlier mem => alone earlier (List.mem_append_left _ mem)) apart.1
  have fresh : ∀ earlier ∈ pre, earlier.attrs.publicIp ≠ call.attrs.publicIp := fun earlier mem =>
    apart.2.2 _ (List.mem_map_of_mem mem) _ (by simp)
  obtain ⟨wins, fails⟩ := acquireServes accepted enough (alone call (by simp)) fresh inv
  refine ⟨fun room => ?_, fails⟩
  obtain ⟨lease, id, slot, absent, acquired⟩ := wins room
  obtain ⟨inside, base⟩ := slotInside range slot
  refine ⟨lease, _, acquired, inside, base, fun earlier member => ?_⟩
  obtain ⟨kv, stored, same⟩ := List.mem_map.mp (granted earlier member)
  obtain ⟨length, canonical', _⟩ := (slotBlock range).mp (inv.keys kv stored)
  obtain ⟨length', canonical'', _⟩ := (slotBlock range).mp slot
  rw [← same]
  refine canonicalDisjoint canonical' canonical'' (length.trans length'.symm) fun equal => ?_
  exact getAbsent.mp absent (equal ▸ List.mem_map_of_mem stored)

private def arrival (ip : Ipv4Addr) (pick : Nat) : Call :=
  ⟨{ publicIp := ip }, fun _ => { read := ReadRpc.quiet 100 0, pick := pick, write := WriteRpc.quiet 1 0 }⟩

private def arrivals : List Call := [arrival 1 2, arrival 2 0, arrival 3 5, arrival 4 1]

private theorem arrivalAlone (ip : Ipv4Addr) (pick round : Nat) : ((arrival ip pick).attempts round).Alone := by
  have granted : ((arrival ip pick).attempts round).write.reported = SystemTime.addSecs 0 86400 := rfl
  have inRange : SystemTime.addSecs 0 86400 = .ok (0 + 86400 * SystemTime.nanos) := if_pos (by decide)
  exact ⟨rfl, rfl, rfl, fun _ => ⟨100, rfl, show 0 / SystemTime.nanos + 100 < 2 ^ 63 by decide⟩, ⟨1, 86400, rfl⟩, rfl,
    ⟨_, granted.trans inRange⟩⟩

/- The third call gets the last block, the fourth none. -/
theorem smallPoolIsExhausted :
    let before := fun calls => run (Pool.serve .checked (2 ^ 38) (.ok smallConfig)) Pool.empty calls
    (∃ lease after, Pool.acquire .checked (2 ^ 38) (.ok smallConfig) (before [arrival 1 2, arrival 2 0]).db (arrival 3 5) =
        (.ok lease, after) ∧
      (∀ a, lease.subnet.contains a = true → (cidr 0x0A000000 28).contains a = true) ∧
      lease.subnet.contains 0x0A000000 = false ∧
      ∀ earlier, .ok earlier ∈ (before [arrival 1 2, arrival 2 0]).results → earlier.subnet.Disjoint lease.subnet) ∧
    Pool.acquire .checked (2 ^ 38) (.ok smallConfig) (before [arrival 1 2, arrival 2 0, arrival 3 5]).db (arrival 4 1) =
      (.error (.bail "no available subnets"), (before [arrival 1 2, arrival 2 0, arrival 3 5]).db) := by
  intro before
  have exhausted := poolIsExhausted (smallConfigAccepted .checked) rfl (by decide) (by decide) (by decide) rfl rfl
    (show 2 ^ 37 < 2 ^ 38 by decide) arrivals (fun call member round => by
      obtain ⟨ip, pick, rfl⟩ : ∃ ip pick, call = arrival ip pick := by
        simp only [arrivals, List.mem_cons, List.not_mem_nil, or_false] at member
        rcases member with rfl | rfl | rfl | rfl <;> exact ⟨_, _, rfl⟩
      exact arrivalAlone ip pick round) (by decide)
  exact ⟨(exhausted [arrival 1 2, arrival 2 0] (arrival 3 5) [arrival 4 1] rfl).1 (by decide),
    (exhausted [arrival 1 2, arrival 2 0, arrival 3 5] (arrival 4 1) [] rfl).2 (by decide)⟩

end FlannelNg
