import FlannelNg.Allocate

/-! What the allocation scan finds. It examines the blocks from SubnetMin to SubnetMax
when the address behind the last one exists. Where it does not, a build with overflow
checks panics on the last block unless 100 candidates came before it, and one without
goes around the address space until it has 100. -/
namespace FlannelNg
open Cidr Outcome

structure Span (start : Ipv4Network) (subnetMax : Ipv4Addr) : Prop where
  low : 0 < start.prefixLen
  high : start.prefixLen < 32
  startAligned : start.size ∣ start.ip.toNat
  maxAligned : start.size ∣ subnetMax.toNat
  ordered : start.ip.toNat ≤ subnetMax.toNat

def blocksBefore (start : Ipv4Network) (subnetMax : Ipv4Addr) : Nat :=
  (subnetMax.toNat - start.ip.toNat) / start.size

/- How many blocks the scan examines, at most, while it does not panic. -/
def scanLength (build : Build) (start : Ipv4Network) (subnetMax : Ipv4Addr) : Nat :=
  if subnetMax.toNat + start.size < 2 ^ 32 then blocksBefore start subnetMax + 1
  else match build with
    | .checked => blocksBefore start subnetMax
    | .wrapping => 100 * 2 ^ start.prefixLen

def candidates (build : Build) (start : Ipv4Network) (subnetMax : Ipv4Addr) (leases : List Lease) : List Ipv4Addr :=
  (freeAmong leases start (scanLength build start subnetMax)).take 100

/- The scan meets its end before it would step behind the address space. -/
def ScanEnds (build : Build) (start : Ipv4Network) (subnetMax : Ipv4Addr) (leases : List Lease) : Prop :=
  subnetMax.toNat + start.size < 2 ^ 32 ∨ 100 ≤ (freeAmong leases start (scanLength build start subnetMax)).length

instance (build start subnetMax leases) : Decidable (ScanEnds build start subnetMax leases) := by
  unfold ScanEnds
  infer_instance

section Span
variable {build : Build} {start : Ipv4Network} {subnetMax : Ipv4Addr} {leases : List Lease} {fuel i : Nat}

theorem spanExact (span : Span start subnetMax) :
    start.ip.toNat + blocksBefore start subnetMax * start.size = subnetMax.toNat := by
  have whole := Nat.div_mul_cancel (Nat.dvd_sub span.maxAligned span.startAligned)
  have ordered := span.ordered
  rw [blocksBefore, whole]
  omega

theorem nthInSpan (span : Span start subnetMax) (inside : i ≤ blocksBefore start subnetMax) :
    (nth start i).ip.toNat = start.ip.toNat + i * start.size := by
  have last := spanExact span
  have smaller := Nat.mul_le_mul_right start.size inside
  rw [nthNat, Nat.mod_eq_of_lt (by omega)]

theorem topOfSpan (span : Span start subnetMax) : subnetMax.toNat + start.size ≤ 2 ^ 32 := by
  obtain ⟨k, whole⟩ := sizeDvd start
  obtain ⟨j, top⟩ := span.maxAligned
  have below : start.size * j < start.size * k := by omega
  have more := Nat.mul_le_mul_left start.size (Nat.lt_of_mul_lt_mul_left below)
  rw [Nat.mul_succ] at more
  omega

theorem blocksBeforeSmall (span : Span start subnetMax) : blocksBefore start subnetMax < 2 ^ start.prefixLen := by
  have last := spanExact span
  have split : 2 ^ start.prefixLen * start.size = 2 ^ 32 := by
    rw [Ipv4Network.size, ← Nat.pow_add]
    congr 1
    have := span.high
    omega
  have small : blocksBefore start subnetMax * start.size < 2 ^ start.prefixLen * start.size := by omega
  exact Nat.lt_of_mul_lt_mul_right small

theorem blockInSpan (span : Span start subnetMax) {sn : Ipv4Network} (length : sn.prefixLen = start.prefixLen)
    (canonical : sn.Canonical) (least : start.ip ≤ sn.ip) (greatest : sn.ip ≤ subnetMax) :
    ∃ i ≤ blocksBefore start subnetMax, nth start i = sn := by
  have aligned := (canonicalIff sn).mp canonical
  rw [show sn.size = start.size by simp [Ipv4Network.size, length]] at aligned
  rw [BitVec.le_def] at least greatest
  have whole := Nat.div_mul_cancel (Nat.dvd_sub aligned span.startAligned)
  have inside : (sn.ip.toNat - start.ip.toNat) / start.size ≤ blocksBefore start subnetMax :=
    Nat.div_le_div_right (by omega)
  refine ⟨_, inside, eqOfParts ?_ length.symm⟩
  apply BitVec.eq_of_toNat_eq
  rw [nthInSpan span inside]
  omega

theorem scanBefore (span : Span start subnetMax) : ∀ i < blocksBefore start subnetMax,
    (nth start i).ip ≤ subnetMax ∧ (nth start i).ip.toNat + start.size < 2 ^ 32 := by
  intro i inside
  have last := spanExact span
  have smaller := Nat.mul_le_mul_right start.size inside
  rw [Nat.succ_mul] at smaller
  have here := nthInSpan span (Nat.le_of_lt inside)
  exact ⟨BitVec.le_def.mpr (by omega), by omega⟩

theorem scanInside (span : Span start subnetMax) (room : subnetMax.toNat + start.size < 2 ^ 32)
    (enough : scanLength build start subnetMax < fuel) :
    scan build subnetMax leases fuel start [] = .ok (candidates build start subnetMax leases) := by
  have length : scanLength build start subnetMax = blocksBefore start subnetMax + 1 := if_pos room
  have last := spanExact span
  have lastIp := nthInSpan span (Nat.le_refl _)
  have each : ∀ i < blocksBefore start subnetMax + 1,
      (nth start i).ip ≤ subnetMax ∧ (nth start i).ip.toNat + start.size < 2 ^ 32 := by
    intro i inside
    rcases Nat.lt_succ_iff_lt_or_eq.mp inside with before | rfl
    · exact scanBefore span i before
    · exact ⟨BitVec.le_def.mpr (by omega), by omega⟩
  obtain ⟨more, rfl⟩ := Nat.exists_eq_add_of_lt enough
  unfold candidates
  rw [length, Nat.add_assoc, scanRounds span.low span.high (fun i hi => (each i hi).1) (fun i hi => .inl (each i hi).2)
    (by simp)]
  split
  · simp
  · rename_i few
    have behind : (nth start (blocksBefore start subnetMax + 1)).ip.toNat = subnetMax.toNat + start.size := by
      rw [nthNat, Nat.succ_mul]
      exact (Nat.mod_eq_of_lt (by omega)).trans (by omega)
    have pos := sizePos start
    rw [scan, if_neg (by rw [BitVec.le_def]; omega), List.nil_append, List.take_of_length_le]
    rw [List.nil_append] at few
    omega

theorem scanAtTop (span : Span start subnetMax) (top : ¬subnetMax.toNat + start.size < 2 ^ 32)
    (enough : scanLength .checked start subnetMax < fuel) :
    scan .checked subnetMax leases fuel start [] =
      if 100 ≤ (freeAmong leases start (scanLength .checked start subnetMax)).length
      then .ok (candidates .checked start subnetMax leases) else .error .panicked := by
  have length : scanLength .checked start subnetMax = blocksBefore start subnetMax := if_neg top
  have last := spanExact span
  have lastIp := nthInSpan span (Nat.le_refl _)
  obtain ⟨more, rfl⟩ := Nat.exists_eq_add_of_lt enough
  unfold candidates
  rw [length, Nat.add_assoc, scanRounds span.low span.high (fun i hi => (scanBefore span i hi).1)
    (fun i hi => .inl (scanBefore span i hi).2) (by simp), List.nil_append]
  split
  · rfl
  · rename_i few
    have size : (nth start (blocksBefore start subnetMax)).size = start.size := rfl
    exact scanOverflow span.low span.high (BitVec.le_def.mpr (by omega)) (by omega) (by rw [size]; omega)

theorem nthCycle (k : Nat) (valid : start.prefixLen ≤ 32) : nth start (k * 2 ^ start.prefixLen) = start := by
  refine eqOfParts ?_ rfl
  have whole : k * 2 ^ start.prefixLen * start.size = k * 2 ^ 32 := by
    rw [Nat.mul_assoc, Ipv4Network.size, ← Nat.pow_add]
    congr 2
    omega
  apply BitVec.eq_of_toNat_eq
  rw [nthNat, whole, Nat.add_mul_mod_self_right]
  exact Nat.mod_eq_of_lt start.ip.isLt

theorem freeCycle (k : Nat) : (freeAmong leases start (k * 2 ^ start.prefixLen)).length =
    k * (freeAmong leases start (2 ^ start.prefixLen)).length := by
  induction k with
  | zero => simp [freeAmong, blocks]
  | succ k ih =>
    rw [Nat.succ_mul, freeAmongAdd, nthCycle k start.valid, List.length_append, ih, Nat.succ_mul]

theorem scanAround (span : Span start subnetMax) (top : ¬subnetMax.toNat + start.size < 2 ^ 32)
    (free : ∃ i ≤ blocksBefore start subnetMax, isFree leases (nth start i) = true)
    (enough : scanLength .wrapping start subnetMax < fuel) :
    100 ≤ (freeAmong leases start (scanLength .wrapping start subnetMax)).length ∧
    scan .wrapping subnetMax leases fuel start [] = .ok (candidates .wrapping start subnetMax leases) := by
  have length : scanLength .wrapping start subnetMax = 100 * 2 ^ start.prefixLen := if_neg top
  have some : 1 ≤ (freeAmong leases start (2 ^ start.prefixLen)).length := by
    obtain ⟨i, inside, free⟩ := free
    refine List.length_pos_iff_exists_mem.mpr ⟨(nth start i).ip, freeAmongMem.mpr ⟨i, ?_, free, rfl⟩⟩
    exact Nat.lt_of_le_of_lt inside (blocksBeforeSmall span)
  -- each time around the address space meets the same free blocks
  have full : 100 ≤ (freeAmong leases start (100 * 2 ^ start.prefixLen)).length := by
    rw [freeCycle]
    omega
  have below : ∀ i, (nth start i).ip ≤ subnetMax := by
    intro i
    have canonical := (canonicalIff _).mp (nthCanonical ((canonicalIff start).mpr span.startAligned) i)
    obtain ⟨j, here⟩ := canonical
    obtain ⟨k, whole⟩ := sizeDvd start
    have size : (nth start i).size = start.size := rfl
    rw [size] at here
    have less : start.size * j < start.size * k := by
      have := (nth start i).ip.isLt
      omega
    have more := Nat.mul_le_mul_left start.size (Nat.lt_of_mul_lt_mul_left less)
    rw [Nat.mul_succ] at more
    have atTop := topOfSpan span
    exact BitVec.le_def.mpr (by omega)
  obtain ⟨more, rfl⟩ := Nat.exists_eq_add_of_lt enough
  unfold candidates
  rw [length, Nat.add_assoc, scanRounds span.low span.high (fun i _ => below i) (fun i _ => .inr rfl) (by simp),
    List.nil_append, if_pos full]
  exact ⟨full, rfl⟩

theorem scanDecides (span : Span start subnetMax)
    (free : ∃ i ≤ blocksBefore start subnetMax, isFree leases (nth start i) = true)
    (enough : scanLength build start subnetMax < fuel) :
    scan build subnetMax leases fuel start [] =
      if ScanEnds build start subnetMax leases then .ok (candidates build start subnetMax leases)
      else .error .panicked := by
  by_cases room : subnetMax.toNat + start.size < 2 ^ 32
  · rw [if_pos (.inl room)]
    exact scanInside span room enough
  · cases build with
    | checked =>
      rw [scanAtTop span room enough]
      simp only [ScanEnds, room, false_or]
    | wrapping =>
      obtain ⟨full, found⟩ := scanAround span room free enough
      rw [if_pos (.inr full)]
      exact found

theorem candidatesExist (ends : ScanEnds build start subnetMax leases)
    (free : ∃ i ≤ blocksBefore start subnetMax, isFree leases (nth start i) = true) :
    candidates build start subnetMax leases ≠ [] := by
  have some : 1 ≤ (freeAmong leases start (scanLength build start subnetMax)).length := by
    rcases ends with room | full
    · obtain ⟨i, inside, free⟩ := free
      refine List.length_pos_iff_exists_mem.mpr ⟨(nth start i).ip, freeAmongMem.mpr ⟨i, ?_, free, rfl⟩⟩
      unfold scanLength
      rw [if_pos room]
      omega
    · omega
  apply List.ne_nil_of_length_pos
  rw [candidates, List.length_take]
  omega

end Span

def picked (build : Build) (start : Ipv4Network) (subnetMax : Ipv4Addr) (leases : List Lease) (pick : Nat) :
    Option Ipv4Network :=
  let ips := candidates build start subnetMax leases
  ips[pick % ips.length]?.map (fun ip => ⟨ip, start.prefixLen, start.valid⟩)

section Allocation
variable {build : Build} {config : Config} {subnetMin subnetMax : Ipv4Addr} {leases : List Lease} {fuel pick : Nat}
variable {ips : List Ipv4Addr}

/- The block at SubnetMin, where the scan starts. -/
def Range.start (range : Range config subnetMin subnetMax) : Ipv4Network :=
  ⟨subnetMin, config.subnetLen, by have := range.lenHigh; omega⟩

theorem rangeSpan (range : Range config subnetMin subnetMax) (ordered : subnetMin ≤ subnetMax) :
    Span range.start subnetMax where
  low := by have := range.lenLow; exact Nat.lt_of_lt_of_le (by omega) this
  high := by have := range.lenHigh; exact Nat.lt_of_le_of_lt this (by omega)
  startAligned := range.minAligned
  maxAligned := range.maxAligned
  ordered := BitVec.le_def.mp ordered

theorem scanLengthBound (range : Range config subnetMin subnetMax) (ordered : subnetMin ≤ subnetMax) :
    scanLength build range.start subnetMax ≤ 2 ^ 37 := by
  have before := blocksBeforeSmall (rangeSpan range ordered)
  have small : 2 ^ range.start.prefixLen ≤ 2 ^ 30 := Nat.pow_le_pow_right (by omega) range.lenHigh
  unfold scanLength
  split
  · omega
  · cases build with
    | checked => simp only; omega
    | wrapping => simp only; omega

theorem startIs (range : Range config subnetMin subnetMax) : range.start = cidr subnetMin config.subnetLen :=
  (cidrIs range.start.valid).symm

theorem newInRange (range : Range config subnetMin subnetMax) (ip : Ipv4Addr) :
    Ipv4Network.new ip config.subnetLen = some (cidr ip config.subnetLen) :=
  (newValid range.start.valid).trans (congrArg some (cidrIs range.start.valid).symm)

theorem allocateStops (range : Range config subnetMin subnetMax) {stop : Stop}
    (stopped : scan build subnetMax leases fuel range.start [] = .error stop) :
    allocateSubnet build config leases fuel pick = .error stop := by
  rw [startIs range] at stopped
  simp [allocateSubnet, range.greatest, range.least, unwrap, okOr, newInRange range, bind, Except.bind, stopped]

theorem allocateFrom (range : Range config subnetMin subnetMax)
    (scanned : scan build subnetMax leases fuel range.start [] = .ok ips) :
    (ips = [] → allocateSubnet build config leases fuel pick = .error (.bail "no available subnets")) ∧
    (ips ≠ [] → ∃ ip, ips[pick % ips.length]? = some ip ∧
      allocateSubnet build config leases fuel pick = .ok (cidr ip config.subnetLen)) := by
  rw [startIs range] at scanned
  simp only [allocateSubnet, range.greatest, range.least, unwrap, okOr, newInRange range, bind, Except.bind, scanned]
  constructor
  · rintro rfl
    rfl
  · intro nonempty
    have index := Nat.mod_lt pick (List.length_pos_of_ne_nil nonempty)
    exact ⟨_, List.getElem?_eq_getElem index, by simp [List.isEmpty_iff, nonempty, List.getElem?_eq_getElem index]⟩

theorem allocateDecides (range : Range config subnetMin subnetMax) (ordered : subnetMin ≤ subnetMax)
    (free : ∃ i ≤ blocksBefore range.start subnetMax, isFree leases (nth range.start i) = true)
    (enough : 2 ^ 37 < fuel) :
    (ScanEnds build range.start subnetMax leases ∧ ∃ sn, picked build range.start subnetMax leases pick = some sn ∧
      allocateSubnet build config leases fuel pick = .ok sn) ∨
    (¬ScanEnds build range.start subnetMax leases ∧
      allocateSubnet build config leases fuel pick = .error .panicked) := by
  have scanned := @scanDecides build _ _ leases fuel (rangeSpan range ordered) free
    (Nat.lt_of_le_of_lt (scanLengthBound range ordered) enough)
  by_cases ends : ScanEnds build range.start subnetMax leases
  · rw [if_pos ends] at scanned
    obtain ⟨ip, chosen, allocated⟩ := (allocateFrom range scanned).2 (candidatesExist ends free)
    refine .inl ⟨ends, _, ?_, allocated⟩
    rw [picked, chosen]
    exact congrArg some (cidrIs range.start.valid).symm
  · rw [if_neg ends] at scanned
    exact .inr ⟨ends, allocateStops range scanned⟩

end Allocation
end FlannelNg
