import FlannelNg.Config

/-! Allocation of a free block of the configured length. The scan stops behind
SubnetMax or at 100 candidates; what it meets on the way is described by the
sequence of blocks from SubnetMin on, which wraps at the end of the address space
where the build lets it. -/
namespace FlannelNg
open Cidr Outcome

def isFree (leases : List Lease) (sn : Ipv4Network) : Bool := !leases.any (fun l => sn.overlaps l.subnet)

/- The `while` loop, one round for each unit of fuel. -/
def scan (build : Build) (subnetMax : Ipv4Addr) (leases : List Lease) :
    Nat → Ipv4Network → List Ipv4Addr → Res (List Ipv4Addr)
  | 0, _, _ => .error .outOfFuel
  | fuel + 1, sn, availableIps =>
    if sn.ip ≤ subnetMax ∧ availableIps.length < 100 then do
      let availableIps := if isFree leases sn then availableIps ++ [sn.ip] else availableIps
      let next ← unwrap (← Ipv4.nextNetwork build sn)
      scan build subnetMax leases fuel next availableIps
    else .ok availableIps

/- `pick` decides the random index. -/
def allocateSubnet (build : Build) (config : Config) (leases : List Lease) (fuel pick : Nat) : Res Ipv4Network := do
  let subnetMax ← unwrap config.subnetMax
  let subnetMin ← unwrap config.subnetMin
  let sn ← okOr "invalid prefix" (Ipv4Network.new subnetMin config.subnetLen)
  let availableIps ← scan build subnetMax leases fuel sn []
  if availableIps.isEmpty then .error (.bail "no available subnets")
  else do
    let ip ← unwrap (availableIps[pick % availableIps.length]?)
    unwrap (Ipv4Network.new ip config.subnetLen)

/-- A block the allocator may hand out: of the configured length, without host
bits, and disjoint from every lease. -/
structure Allocatable (len : Nat) (leases : List Lease) (sn : Ipv4Network) : Prop where
  length : sn.prefixLen = len
  canonical : sn.Canonical
  clear : ∀ l ∈ leases, sn.Disjoint l.subnet

theorem freeIff {leases sn} : isFree leases sn = true ↔ ∀ l ∈ leases, sn.Disjoint l.subnet := by
  simp [isFree, disjointIff]

/- The block behind a network; at the end of the address space the first one. -/
def successor (sn : Ipv4Network) : Ipv4Network := ⟨sn.ip + BitVec.ofNat 32 sn.size, sn.prefixLen, sn.valid⟩

def nth (sn : Ipv4Network) (i : Nat) : Ipv4Network := ⟨sn.ip + BitVec.ofNat 32 (i * sn.size), sn.prefixLen, sn.valid⟩

def blocks (sn : Ipv4Network) (n : Nat) : List Ipv4Network := (List.range n).map (nth sn)

/- The free ones of the first `n` blocks, in the order of the scan. -/
def freeAmong (leases : List Lease) (sn : Ipv4Network) (n : Nat) : List Ipv4Addr :=
  ((blocks sn n).filter (isFree leases)).map Ipv4Network.ip

theorem nextExact {sn : Ipv4Network} (low : 0 < sn.prefixLen) (high : sn.prefixLen < 32) (build : Build) :
    Ipv4.nextNetwork build sn = if sn.ip.toNat + sn.size < 2 ^ 32 then .ok (some (successor sn))
      else overflow build (some (successor sn)) := by
  have step : (1#32 <<< (32 - sn.prefixLen)) = BitVec.ofNat 32 sn.size := by
    apply BitVec.eq_of_toNat_eq
    simp [Ipv4Network.size, Nat.shiftLeft_eq]
  have value : (BitVec.ofNat 32 sn.size).toNat = sn.size := by
    rw [BitVec.toNat_ofNat]
    exact Nat.mod_eq_of_lt (Nat.pow_lt_pow_right (by omega) (by omega))
  have again : Ipv4Network.new (sn.ip + BitVec.ofNat 32 sn.size) sn.prefixLen = some (successor sn) :=
    newValid sn.valid
  unfold Ipv4.nextNetwork
  rw [if_neg (by omega), shlBitsOk (by omega), step]
  simp only [bind, Except.bind, addBits, value, ← again]
  by_cases fits : sn.ip.toNat + sn.size < 2 ^ 32
  · rw [if_pos fits, if_pos fits]
    rfl
  · rw [if_neg fits, if_neg fits]
    cases build <;> rfl

theorem nthZero (sn : Ipv4Network) : nth sn 0 = sn := eqOfParts (by simp [nth]) rfl

theorem nthSucc (sn : Ipv4Network) (i : Nat) : nth (successor sn) i = nth sn (i + 1) := by
  refine eqOfParts ?_ rfl
  simp only [nth, successor, Ipv4Network.size, BitVec.add_assoc, ← BitVec.ofNat_add]
  congr 2
  ring

theorem nthAdd (sn : Ipv4Network) (i j : Nat) : nth (nth sn i) j = nth sn (i + j) := by
  refine eqOfParts ?_ rfl
  simp only [nth, Ipv4Network.size, BitVec.add_assoc, ← BitVec.ofNat_add]
  congr 2
  ring

theorem successorNth (sn : Ipv4Network) (i : Nat) : successor (nth sn i) = nth sn (i + 1) := by
  have one : successor sn = nth sn 1 := eqOfParts (by simp [nth, successor]) rfl
  have at1 : successor (nth sn i) = nth (nth sn i) 1 := eqOfParts (by simp [nth, successor]) rfl
  rw [at1, nthAdd]

theorem nthNat (sn : Ipv4Network) (i : Nat) : (nth sn i).ip.toNat = (sn.ip.toNat + i * sn.size) % 2 ^ 32 := by
  simp [nth]

theorem nthCanonical {sn : Ipv4Network} (canonical : sn.Canonical) (i : Nat) : (nth sn i).Canonical := by
  rw [canonicalIff] at *
  change sn.size ∣ (nth sn i).ip.toNat
  rw [nthNat, Nat.dvd_mod_iff (sizeDvd sn)]
  exact Nat.dvd_add canonical (Nat.dvd_mul_left _ _)

theorem successorCanonical {sn : Ipv4Network} (canonical : sn.Canonical) : (successor sn).Canonical := by
  rw [← nthZero sn, successorNth]
  exact nthCanonical canonical 1

theorem blocksSucc (sn : Ipv4Network) (n : Nat) : blocks sn (n + 1) = sn :: blocks (successor sn) n := by
  simp [blocks, List.range_succ_eq_map, nthZero, nthSucc, Function.comp_def]

theorem blocksAdd (sn : Ipv4Network) (m n : Nat) : blocks sn (m + n) = blocks sn m ++ blocks (nth sn m) n := by
  simp [blocks, List.range_add, nthAdd, Function.comp_def]

theorem freeAmongSucc (leases : List Lease) (sn : Ipv4Network) (n : Nat) :
    freeAmong leases sn (n + 1) = (if isFree leases sn then [sn.ip] else []) ++ freeAmong leases (successor sn) n := by
  unfold freeAmong
  rw [blocksSucc]
  by_cases free : isFree leases sn = true <;> simp [free]

theorem freeAmongAdd (leases : List Lease) (sn : Ipv4Network) (m n : Nat) :
    freeAmong leases sn (m + n) = freeAmong leases sn m ++ freeAmong leases (nth sn m) n := by
  simp [freeAmong, blocksAdd]

theorem freeAmongMem {leases sn n a} : a ∈ freeAmong leases sn n ↔
    ∃ i < n, isFree leases (nth sn i) = true ∧ (nth sn i).ip = a := by
  simp only [freeAmong, blocks, List.mem_map, List.mem_filter, List.mem_range]
  constructor
  · rintro ⟨b, ⟨⟨i, hi, rfl⟩, free⟩, rfl⟩
    exact ⟨i, hi, free, rfl⟩
  · rintro ⟨i, hi, free, rfl⟩
    exact ⟨nth sn i, ⟨⟨i, hi, rfl⟩, free⟩, rfl⟩

section Scan
variable {build : Build} {subnetMax : Ipv4Addr} {leases : List Lease}

theorem scanRound {sn : Ipv4Network} {available : List Ipv4Addr} {fuel : Nat}
    (low : 0 < sn.prefixLen) (high : sn.prefixLen < 32)
    (inside : sn.ip ≤ subnetMax) (room : available.length < 100)
    (fits : sn.ip.toNat + sn.size < 2 ^ 32 ∨ build = .wrapping) :
    scan build subnetMax leases (fuel + 1) sn available =
      scan build subnetMax leases fuel (successor sn)
        (available ++ if isFree leases sn then [sn.ip] else []) := by
  have next : Ipv4.nextNetwork build sn = .ok (some (successor sn)) := by
    rw [nextExact low high]
    rcases fits with h | rfl
    · rw [if_pos h]
    · split <;> rfl
  rw [scan, if_pos ⟨inside, room⟩, next]
  by_cases free : isFree leases sn = true <;> simp [free, bind, Except.bind, unwrap]

theorem scanOverflow {sn : Ipv4Network} {available : List Ipv4Addr} {fuel : Nat}
    (low : 0 < sn.prefixLen) (high : sn.prefixLen < 32)
    (inside : sn.ip ≤ subnetMax) (room : available.length < 100)
    (beyond : 2 ^ 32 ≤ sn.ip.toNat + sn.size) :
    scan .checked subnetMax leases (fuel + 1) sn available = .error .panicked := by
  have next : Ipv4.nextNetwork .checked sn = .error .panicked := by
    rw [nextExact low high, if_neg (by omega)]
    rfl
  rw [scan, if_pos ⟨inside, room⟩, next]
  rfl

theorem scanRounds {n fuel : Nat} {sn : Ipv4Network} {available : List Ipv4Addr}
    (low : 0 < sn.prefixLen) (high : sn.prefixLen < 32)
    (inside : ∀ i < n, (nth sn i).ip ≤ subnetMax)
    (fits : ∀ i < n, (nth sn i).ip.toNat + sn.size < 2 ^ 32 ∨ build = .wrapping)
    (few : available.length ≤ 100) :
    scan build subnetMax leases (n + (fuel + 1)) sn available =
      if 100 ≤ (available ++ freeAmong leases sn n).length
      then .ok ((available ++ freeAmong leases sn n).take 100)
      else scan build subnetMax leases (fuel + 1) (nth sn n) (available ++ freeAmong leases sn n) := by
  -- the first round looks at `sn`, the others start from the block behind it
  induction n generalizing sn available with
  | zero =>
    simp only [freeAmong, blocks, List.range_zero, List.map_nil, List.filter_nil, List.append_nil, nthZero,
      Nat.zero_add]
    split
    · rename_i full
      rw [scan, if_neg (by omega), List.take_of_length_le few]
    · rfl
  | succ n ih =>
    by_cases full : 100 ≤ available.length
    · have exact100 : available.length = 100 := by omega
      rw [show n + 1 + (fuel + 1) = n + fuel + 1 + 1 by omega, scan, if_neg (by omega),
        if_pos (by rw [List.length_append]; omega), ← exact100, List.take_left]
    · have first := inside 0 (by omega)
      have firstFits := fits 0 (by omega)
      rw [nthZero] at first firstFits
      rw [show n + 1 + (fuel + 1) = n + (fuel + 1) + 1 by omega,
        scanRound low high first (by omega) firstFits, freeAmongSucc, ← List.append_assoc,
        @ih (successor sn) _ low high ?_ ?_ ?_, nthSucc]
      · intro i hi
        rw [nthSucc]
        exact inside (i + 1) (by omega)
      · intro i hi
        rw [nthSucc]
        exact fits (i + 1) (by omega)
      · split <;> simp <;> omega

theorem nextIsSuccessor {sn next : Ipv4Network} (low : 0 < sn.prefixLen) (high : sn.prefixLen < 32)
    (ok : Ipv4.nextNetwork build sn = .ok (some next)) : next = successor sn := by
  rw [nextExact low high] at ok
  split at ok
  · exact (Option.some.inj (Except.ok.inj ok)).symm
  · cases build with
    | checked => contradiction
    | wrapping => exact (Option.some.inj (Except.ok.inj ok)).symm

theorem scanAllocatable (len : Nat) {fuel : Nat} {sn : Ipv4Network} {available result : List Ipv4Addr}
    (low : 0 < len) (high : len < 32) (same : sn.prefixLen = len) (canonical : sn.Canonical)
    (ok : scan build subnetMax leases fuel sn available = .ok result)
    (good : ∀ a ∈ available, ∃ b, Allocatable len leases b ∧ b.ip = a) :
    ∀ a ∈ result, ∃ b, Allocatable len leases b ∧ b.ip = a := by
  induction fuel generalizing sn available with
  | zero => simp [scan] at ok
  | succ fuel ih =>
    unfold scan at ok
    split at ok
    · simp only [bindOk, unwrapOk] at ok
      obtain ⟨_, hn, next, rfl, rest⟩ := ok
      have is := nextIsSuccessor (by omega) (by omega) hn
      subst is
      refine @ih (successor sn) _ same (successorCanonical canonical) rest ?_
      split
      · rename_i free
        intro a member
        rcases List.mem_append.mp member with old | new
        · exact good a old
        · exact ⟨sn, ⟨same, canonical, freeIff.mp free⟩, (List.mem_singleton.mp new).symm⟩
      · exact good
    · cases Except.ok.inj ok
      exact good

end Scan

theorem allocated {build config leases fuel pick sn subnetMin subnetMax} (range : Range config subnetMin subnetMax)
    (ok : allocateSubnet build config leases fuel pick = .ok sn) : Allocatable config.subnetLen leases sn := by
  have low := range.lenLow
  have high := range.lenHigh
  simp only [allocateSubnet, range.least, range.greatest, newValid (show config.subnetLen ≤ 32 by omega),
    bindOk, unwrapOk, Option.some.injEq, okOr, Except.ok.injEq] at ok
  obtain ⟨_, rfl, _, rfl, start, rfl, available, scanned, last⟩ := ok
  split at last <;> try contradiction
  simp only [bindOk, unwrapOk] at last
  obtain ⟨ip, picked, made⟩ := last
  obtain ⟨b, good, rfl⟩ := scanAllocatable config.subnetLen (by omega) (by omega) rfl
    ((canonicalIff _).mpr range.minAligned) scanned (by simp) ip (List.mem_of_getElem? picked)
  have same : b = sn := eqOfParts (by simp [← Option.some.inj made]) (by simp [← Option.some.inj made, good.length])
  exact same ▸ good

end FlannelNg
