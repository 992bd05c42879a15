import FlannelNg.Candidates

/-! Exactness of the allocation scan, and where it leaves the range. While the address
behind the last block exists, the candidates are the first 100 free blocks of the
range. Where it does not, the step behind the last block leaves 32 bits, unless 100
free blocks end the scan before. -/
namespace FlannelNg
open Cidr Outcome

/-- The free blocks of the range in ascending order; the two facts determine the list. -/
structure FreeBlocks (config : Config) (subnetMin subnetMax : Ipv4Addr) (leases : List Lease) (free : List Ipv4Addr) :
    Prop where
  ascending : free.Pairwise (· < ·)
  member : ∀ a, a ∈ free ↔ subnetMin ≤ a ∧ a ≤ subnetMax ∧ 2 ^ (32 - config.subnetLen) ∣ a.toNat ∧
    ∀ l ∈ leases, (cidr a config.subnetLen).Disjoint l.subnet

/- The blocks that the loop looks at within a number of rounds. -/
def examined (build : Build) (subnetMax : Ipv4Addr) (leases : List Lease) :
    Nat → Ipv4Network → List Ipv4Addr → List Ipv4Network
  | 0, _, _ => []
  | rounds + 1, sn, availableIps =>
    if sn.ip ≤ subnetMax ∧ availableIps.length < 100 then
      sn :: match Ipv4.nextNetwork build sn with
        | .ok (some next) =>
          examined build subnetMax leases rounds next (if isFree leases sn then availableIps ++ [sn.ip] else availableIps)
        | _ => []
    else []

/-- The allocation ends in `Ok` or in its own error, and the loop looks at blocks of the
range only, each with an address behind it. -/
structure ScanStaysInside (build : Build) (config : Config) (subnetMin subnetMax : Ipv4Addr) (leases : List Lease) :
    Prop where
  ends : ∃ rounds, ∀ fuel pick, rounds < fuel →
    (∃ sn, allocateSubnet build config leases fuel pick = .ok sn) ∨
      allocateSubnet build config leases fuel pick = .error (.bail "no available subnets")
  inside : ∀ rounds, ∀ sn ∈ examined build subnetMax leases rounds (cidr subnetMin config.subnetLen) [],
    subnetMin ≤ sn.ip ∧ sn.ip ≤ subnetMax
  exact : ∀ rounds, ∀ sn ∈ examined build subnetMax leases rounds (cidr subnetMin config.subnetLen) [],
    sn.ip.toNat + sn.size < 2 ^ 32

section Examined
variable {build : Build} {subnetMax : Ipv4Addr} {leases : List Lease} {sn : Ipv4Network} {available : List Ipv4Addr}
variable {n rounds : Nat}

theorem nextFits (low : 0 < sn.prefixLen) (high : sn.prefixLen < 32) (fits : sn.ip.toNat + sn.size < 2 ^ 32) :
    Ipv4.nextNetwork build sn = .ok (some (successor sn)) := by
  rw [nextExact low high, if_pos fits]

theorem examinedRound (low : 0 < sn.prefixLen) (high : sn.prefixLen < 32) (inside : sn.ip ≤ subnetMax)
    (room : available.length < 100) (fits : sn.ip.toNat + sn.size < 2 ^ 32) :
    examined build subnetMax leases (rounds + 1) sn available =
      sn :: examined build subnetMax leases rounds (successor sn)
        (available ++ if isFree leases sn then [sn.ip] else []) := by
  rw [examined, if_pos ⟨inside, room⟩, nextFits low high fits]
  by_cases free : isFree leases sn = true <;> simp [free]

theorem examinedStops (stops : ¬(sn.ip ≤ subnetMax ∧ available.length < 100)) :
    examined build subnetMax leases rounds sn available = [] := by
  cases rounds with
  | zero => rfl
  | succ rounds => rw [examined, if_neg stops]

/- The candidates that a finished scan found are the free ones that it looked at. -/
theorem scanExamined {result : List Ipv4Addr} (ok : scan build subnetMax leases rounds sn available = .ok result) :
    result = available ++ ((examined build subnetMax leases rounds sn available).filter (isFree leases)).map
      Ipv4Network.ip := by
  induction rounds generalizing sn available with
  | zero => simp [scan] at ok
  | succ rounds ih =>
    unfold scan at ok
    split at ok
    · rename_i running
      simp only [bindOk, unwrapOk] at ok
      obtain ⟨_, stepped, next, rfl, rest⟩ := ok
      rw [ih rest, examined, if_pos running, stepped]
      by_cases free : isFree leases sn = true <;> simp [free]
    · rename_i stops
      rw [examinedStops stops]
      simpa using (Except.ok.inj ok).symm

theorem examinedBefore (low : 0 < sn.prefixLen) (high : sn.prefixLen < 32)
    (fits : ∀ i < n, (nth sn i).ip.toNat + sn.size < 2 ^ 32)
    (stops : 100 ≤ available.length + (freeAmong leases sn n).length ∨ ¬(nth sn n).ip ≤ subnetMax) :
    ∀ b ∈ examined build subnetMax leases rounds sn available, ∃ i < n, b = nth sn i := by
  -- the loop is over at the n-th block, if not before
  induction n generalizing sn available rounds with
  | zero =>
    rw [nthZero] at stops
    rw [examinedStops]
    · simp
    · rintro ⟨inside, room⟩
      rcases stops with full | outside
      · simp only [freeAmong, blocks, List.range_zero, List.map_nil, List.filter_nil, List.length_nil] at full
        omega
      · exact outside inside
  | succ n ih =>
    cases rounds with
    | zero => simp [examined]
    | succ rounds =>
      by_cases running : sn.ip ≤ subnetMax ∧ available.length < 100
      · have first := fits 0 (by omega)
        rw [nthZero] at first
        rw [examinedRound low high running.1 running.2 first]
        intro b member
        rcases List.mem_cons.mp member with rfl | later
        · exact ⟨0, by omega, (nthZero b).symm⟩
        · obtain ⟨i, before, rfl⟩ := @ih (successor sn) _ rounds low high
            (fun i before => by
              rw [nthSucc]
              exact fits (i + 1) (by omega))
            (by
              rw [nthSucc]
              rw [freeAmongSucc, List.length_append] at stops
              rw [List.length_append]
              exact stops.imp_left (fun full => by omega)) b later
          exact ⟨i + 1, by omega, nthSucc sn i⟩
      · rw [examinedStops running]
        simp

theorem examinedReaches (low : 0 < sn.prefixLen) (high : sn.prefixLen < 32)
    (inside : ∀ i < n, (nth sn i).ip ≤ subnetMax) (fits : ∀ i < n, (nth sn i).ip.toNat + sn.size < 2 ^ 32)
    (few : available.length + (freeAmong leases sn n).length < 100) (last : (nth sn n).ip ≤ subnetMax) :
    nth sn n ∈ examined build subnetMax leases (n + 1) sn available := by
  induction n generalizing sn available with
  | zero =>
    rw [nthZero] at last ⊢
    rw [examined, if_pos ⟨last, by omega⟩]
    exact List.mem_cons_self
  | succ n ih =>
    have firstInside := inside 0 (by omega)
    have firstFits := fits 0 (by omega)
    rw [nthZero] at firstInside firstFits
    rw [freeAmongSucc, List.length_append] at few
    rw [examinedRound low high firstInside (by omega) firstFits, ← nthSucc]
    refine List.mem_cons_of_mem _ (@ih (successor sn) _ low high ?_ ?_ ?_ ?_)
    · intro i before
      rw [nthSucc]
      exact inside (i + 1) (by omega)
    · intro i before
      rw [nthSucc]
      exact fits (i + 1) (by omega)
    · rw [List.length_append]
      omega
    · rw [nthSucc]
      exact last

end Examined

section Allocation
variable {build : Build} {config : Config} {subnetMin subnetMax : Ipv4Addr} {leases : List Lease} {fuel pick : Nat}
variable {stored : Res Config}

theorem scanEmpty (beyond : ¬subnetMin ≤ subnetMax) (enough : 0 < fuel) :
    scan build subnetMax leases fuel (cidr subnetMin config.subnetLen) [] = .ok [] := by
  obtain ⟨more, rfl⟩ := Nat.exists_eq_add_of_lt enough
  rw [Nat.zero_add, scan, if_neg (fun running => beyond running.1)]

theorem freeAscending (range : Range config subnetMin subnetMax) (ordered : subnetMin ≤ subnetMax) :
    FreeBlocks config subnetMin subnetMax leases
      (freeAmong leases range.start (blocksBefore range.start subnetMax + 1)) := by
  have span := rangeSpan range ordered
  have pos := sizePos range.start
  have last := spanExact span
  have sizeIs : range.start.size = 2 ^ (32 - config.subnetLen) := rfl
  constructor
  · unfold freeAmong blocks
    rw [List.pairwise_map]
    refine List.Pairwise.filter _ (List.pairwise_map.mpr ?_)
    refine List.Pairwise.imp_of_mem ?_ List.pairwise_lt_range
    intro i j here there before
    rw [List.mem_range] at here there
    rw [BitVec.lt_def, nthInSpan span (by omega), nthInSpan span (by omega)]
    have more := Nat.mul_lt_mul_of_pos_right before pos
    omega
  · intro a
    rw [freeAmongMem]
    constructor
    · rintro ⟨i, before, free, rfl⟩
      have value := nthInSpan span (show i ≤ blocksBefore range.start subnetMax by omega)
      have upTo := Nat.mul_le_mul_right range.start.size (show i ≤ blocksBefore range.start subnetMax by omega)
      have block : cidr (nth range.start i).ip config.subnetLen = nth range.start i := cidrIs range.start.valid
      refine ⟨?_, ?_, ?_, ?_⟩
      · rw [BitVec.le_def, value]
        exact Nat.le_add_right _ _
      · rw [BitVec.le_def]
        omega
      · rw [value]
        exact Nat.dvd_add range.minAligned (Nat.dvd_mul_left _ _)
      · rw [block]
        exact freeIff.mp free
    · rintro ⟨least, greatest, aligned, clear⟩
      have length : (cidr a config.subnetLen).prefixLen = range.start.prefixLen :=
        Nat.min_eq_left range.start.valid
      have canonical : (cidr a config.subnetLen).Canonical := by
        rw [canonicalIff, show (cidr a config.subnetLen).size = 2 ^ (32 - config.subnetLen) by
          simp only [Ipv4Network.size, length]; rfl]
        exact aligned
      obtain ⟨i, before, same⟩ := blockInSpan span length canonical least greatest
      exact ⟨i, by omega, by rw [same]; exact freeIff.mpr clear, by rw [same]; rfl⟩

theorem freeNone (beyond : ¬subnetMin ≤ subnetMax) : FreeBlocks config subnetMin subnetMax leases [] := by
  refine ⟨List.Pairwise.nil, fun a => ?_⟩
  simp only [List.not_mem_nil, false_iff]
  rintro ⟨least, greatest, _⟩
  exact beyond (BitVec.le_trans least greatest)

theorem scanExact (range : Range config subnetMin subnetMax)
    (room : subnetMax.toNat + 2 ^ (32 - config.subnetLen) < 2 ^ 32) (enough : 2 ^ 37 < fuel) :
    ∃ free, FreeBlocks config subnetMin subnetMax leases free ∧
      scan build subnetMax leases fuel range.start [] = .ok (free.take 100) := by
  by_cases ordered : subnetMin ≤ subnetMax
  · refine ⟨_, freeAscending range ordered, ?_⟩
    have length : scanLength build range.start subnetMax = blocksBefore range.start subnetMax + 1 := if_pos room
    rw [scanInside (rangeSpan range ordered) room (Nat.lt_of_le_of_lt (scanLengthBound range ordered) enough),
      candidates, length]
  · refine ⟨[], freeNone ordered, ?_⟩
    rw [startIs range]
    exact scanEmpty ordered (by omega)

theorem allocationExact (accepted : getNetworkConfig build stored = .ok config)
    (least : config.subnetMin = some subnetMin) (greatest : config.subnetMax = some subnetMax)
    (room : subnetMax.toNat + 2 ^ (32 - config.subnetLen) < 2 ^ 32) (enough : 2 ^ 37 < fuel) (leases : List Lease) :
    ∃ free, FreeBlocks config subnetMin subnetMax leases free ∧
      scan build subnetMax leases fuel (cidr subnetMin config.subnetLen) [] = .ok (free.take 100) ∧
      ∀ pick, (free = [] → allocateSubnet build config leases fuel pick = .error (.bail "no available subnets")) ∧
        (free ≠ [] → ∃ ip ∈ free.take 100,
          allocateSubnet build config leases fuel pick = .ok (cidr ip config.subnetLen)) := by
  obtain ⟨lower, upper, range⟩ := acceptedRange accepted
  cases Option.some.inj (range.least.symm.trans least)
  cases Option.some.inj (range.greatest.symm.trans greatest)
  obtain ⟨free, blocks, scanned⟩ := @scanExact build _ _ _ leases fuel range room enough
  refine ⟨free, blocks, startIs range ▸ scanned, fun pick => ?_⟩
  obtain ⟨none, some⟩ := @allocateFrom build _ _ _ leases fuel pick _ range scanned
  refine ⟨fun empty => none (by simp [empty]), fun found => ?_⟩
  obtain ⟨ip, chosen, allocated⟩ := some (by simpa using found)
  exact ⟨ip, List.mem_of_getElem? chosen, allocated⟩

end Allocation

private def taken : List Lease := [{ Lease.default 0 with subnet := cidr 0x0A000009 31 }]

theorem smallAllocationExact : ∃ free, FreeBlocks smallAccepted 0x0A000004 0x0A00000C taken free ∧
    scan .checked 0x0A00000C taken (2 ^ 38) (cidr 0x0A000004 30) [] = .ok (free.take 100) ∧
    ∀ pick,
      (free = [] → allocateSubnet .checked smallAccepted taken (2 ^ 38) pick = .error (.bail "no available subnets")) ∧
      (free ≠ [] → ∃ ip ∈ free.take 100, allocateSubnet .checked smallAccepted taken (2 ^ 38) pick = .ok (cidr ip 30)) :=
  allocationExact (smallConfigAccepted .checked) rfl rfl (by decide) (by decide) taken

section Stays
variable {build : Build} {config : Config} {subnetMin subnetMax : Ipv4Addr} {leases : List Lease}
variable {stored : Res Config}

theorem endsOf (range : Range config subnetMin subnetMax) {rounds : Nat}
    (scanned : ∀ fuel, rounds < fuel → ∃ ips, scan build subnetMax leases fuel range.start [] = .ok ips) :
    ∃ rounds, ∀ fuel pick, rounds < fuel → (∃ sn, allocateSubnet build config leases fuel pick = .ok sn) ∨
      allocateSubnet build config leases fuel pick = .error (.bail "no available subnets") := by
  refine ⟨rounds, fun fuel pick enough => ?_⟩
  obtain ⟨ips, ok⟩ := scanned fuel enough
  obtain ⟨none, some⟩ := @allocateFrom build _ _ _ leases fuel pick _ range ok
  by_cases empty : ips = []
  · exact .inr (none empty)
  · obtain ⟨ip, _, allocated⟩ := some empty
    exact .inl ⟨_, allocated⟩

/- The scan is over before the n-th block, all blocks up to there are in the range and
have an address behind them. -/
theorem staysInsideOf (range : Range config subnetMin subnetMax) (ordered : subnetMin ≤ subnetMax) {n : Nat}
    (short : n ≤ blocksBefore range.start subnetMax + 1)
    (fits : ∀ i < n, (nth range.start i).ip.toNat + range.start.size < 2 ^ 32)
    (stops : 100 ≤ (freeAmong leases range.start n).length ∨ ¬(nth range.start n).ip ≤ subnetMax) :
    ScanStaysInside build config subnetMin subnetMax leases := by
  have span := rangeSpan range ordered
  have last := spanExact span
  have inside : ∀ i < n, subnetMin ≤ (nth range.start i).ip ∧ (nth range.start i).ip ≤ subnetMax := by
    intro i before
    have value := nthInSpan span (show i ≤ blocksBefore range.start subnetMax by omega)
    have upTo := Nat.mul_le_mul_right range.start.size (show i ≤ blocksBefore range.start subnetMax by omega)
    rw [BitVec.le_def, BitVec.le_def]
    exact ⟨value ▸ Nat.le_add_right _ _, by omega⟩
  have before : ∀ rounds, ∀ b ∈ examined build subnetMax leases rounds (cidr subnetMin config.subnetLen) [],
      ∃ i < n, b = nth range.start i := by
    rw [← startIs range]
    exact fun rounds => examinedBefore span.low span.high fits (by simpa using stops)
  have scanned : ∀ fuel, n < fuel → ∃ ips, scan build subnetMax leases fuel range.start [] = .ok ips := by
    intro fuel enough
    obtain ⟨more, rfl⟩ := Nat.exists_eq_add_of_lt enough
    rw [Nat.add_assoc, scanRounds span.low span.high (fun i hi => (inside i hi).2) (fun i hi => .inl (fits i hi)) (by simp)]
    split
    · exact ⟨_, rfl⟩
    · rename_i few
      rw [List.nil_append] at few
      exact ⟨_, by rw [scan, if_neg (fun running => stops.elim few (fun outside => outside running.1))]⟩
  refine ⟨endsOf range scanned, fun rounds b member => ?_, fun rounds b member => ?_⟩
  · obtain ⟨i, hi, rfl⟩ := before rounds b member
    exact inside i hi
  · obtain ⟨i, hi, rfl⟩ := before rounds b member
    exact fits i hi

theorem staysInsideEmpty (range : Range config subnetMin subnetMax) (beyond : ¬subnetMin ≤ subnetMax) :
    ScanStaysInside build config subnetMin subnetMax leases := by
  have nothing : ∀ rounds, examined build subnetMax leases rounds (cidr subnetMin config.subnetLen) [] = [] :=
    fun rounds => examinedStops (fun running => beyond running.1)
  refine ⟨@endsOf build _ _ _ leases range 0 (fun fuel enough => ⟨[], ?_⟩), ?_, ?_⟩
  · rw [startIs range]
    exact scanEmpty beyond enough
  · simp [nothing]
  · simp [nothing]

theorem scanStaysInsideIff (accepted : getNetworkConfig build stored = .ok config)
    (least : config.subnetMin = some subnetMin) (greatest : config.subnetMax = some subnetMax) (leases : List Lease) :
    ScanStaysInside build config subnetMin subnetMax leases ↔
      subnetMax < subnetMin ∨ subnetMax.toNat + 2 ^ (32 - config.subnetLen) < 2 ^ 32 ∨
        100 ≤ (freeAmong leases (cidr subnetMin config.subnetLen)
          (blocksBefore (cidr subnetMin config.subnetLen) subnetMax)).length := by
  obtain ⟨lower, upper, range⟩ := acceptedRange accepted
  cases Option.some.inj (range.least.symm.trans least)
  cases Option.some.inj (range.greatest.symm.trans greatest)
  rw [← startIs range]
  by_cases ordered : subnetMin ≤ subnetMax
  · have span := rangeSpan range ordered
    have last := spanExact span
    have before := scanBefore span
    have lastIp := nthInSpan span (Nat.le_refl (blocksBefore range.start subnetMax))
    have size : range.start.size = 2 ^ (32 - config.subnetLen) := rfl
    rw [← size]
    constructor
    · intro stays
      by_contra other
      push Not at other
      obtain ⟨_, top, few⟩ := other
      -- the last block is looked at, and no address is behind it
      have reached := @examinedReaches build subnetMax leases range.start [] _ span.low span.high
        (fun i hi => (before i hi).1) (fun i hi => (before i hi).2) (by simpa using few)
        (BitVec.le_def.mpr (by omega))
      rw [startIs range] at reached
      have fits := stays.exact _ _ reached
      rw [← startIs range] at fits
      have same : (nth range.start (blocksBefore range.start subnetMax)).size = range.start.size := rfl
      omega
    · rintro (beyond | room | full)
      · rw [BitVec.lt_def] at beyond
        rw [BitVec.le_def] at ordered
        omega
      · have fits : ∀ i < blocksBefore range.start subnetMax + 1,
            (nth range.start i).ip.toNat + range.start.size < 2 ^ 32 := by
          intro i hi
          rcases Nat.lt_succ_iff_lt_or_eq.mp hi with inner | rfl
          · exact (before i inner).2
          · omega
        refine staysInsideOf range ordered (Nat.le_refl _) fits (.inr ?_)
        have pos := sizePos range.start
        rw [BitVec.le_def, nthNat, Nat.succ_mul, Nat.mod_eq_of_lt (by omega)]
        omega
      · exact staysInsideOf range ordered (Nat.le_succ _) (fun i hi => (before i hi).2) (.inl full)
  · refine ⟨fun _ => .inl ?_, fun _ => staysInsideEmpty range ordered⟩
    rw [BitVec.lt_def]
    rw [BitVec.le_def] at ordered
    omega

end Stays

/- The last blocks of the address space. -/
private def topConfig : Config := {
  enableIpv4 := true
  network := some (cidr 0xFFFFFFF0 28)
  subnetMin := some 0xFFFFFFF4
  subnetMax := some 0xFFFFFFFC
  subnetLen := 30
  backendType := some "udp" }

theorem topScanOverflows : (∀ build, getNetworkConfig build (.ok topConfig) = .ok topConfig ∧
      ¬ScanStaysInside build topConfig 0xFFFFFFF4 0xFFFFFFFC []) ∧
    allocateSubnet .checked topConfig [] 9 0 = .error .panicked := by
  refine ⟨fun build => ⟨by cases build <;> decide, fun stays => ?_⟩, by decide⟩
  have reached : cidr 0xFFFFFFFC 30 ∈ examined build 0xFFFFFFFC [] 3 (cidr 0xFFFFFFF4 30) [] := by
    cases build <;> decide
  exact absurd (stays.exact 3 _ reached) (by decide)

theorem smallScanStaysInside : ScanStaysInside .checked smallAccepted 0x0A000004 0x0A00000C taken :=
  (scanStaysInsideIff (smallConfigAccepted .checked) rfl rfl taken).mpr (.inr (.inl (by decide)))

end FlannelNg
