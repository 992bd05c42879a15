import FlannelNg.ConfigCheck

/-! The range of an accepted configuration. Bounds that are given are checked to lie in
the network; those that are left out are computed from the address as written, host
bits included, and no check relates the two bounds. -/
namespace FlannelNg
open Cidr Outcome

/-- All blocks of the range are blocks of the network. -/
structure UsableRange (config : Config) (n : Ipv4Network) (subnetMin subnetMax : Ipv4Addr) : Prop where
  network : config.network = some n
  range : Range config subnetMin subnetMax
  room : n.prefixLen + 2 ≤ config.subnetLen
  ordered : subnetMin ≤ subnetMax
  inside : ∀ a : Ipv4Addr, subnetMin.toNat ≤ a.toNat → a.toNat < subnetMax.toNat + 2 ^ (32 - config.subnetLen) →
    n.contains a = true

def Usable (config : Config) : Prop := ∃ n subnetMin subnetMax, UsableRange config n subnetMin subnetMax

/-- The bounds left out come to lie in the network, in front of and behind each other. A
default for SubnetMax is in order with any SubnetMin, except in the network of all addresses. -/
structure Config.StaysInside (config : Config) (n : Ipv4Network) : Prop where
  min : config.subnetMin = none → n.contains (n.ip + config.blockSize n) = true
  max : config.subnetMax = none → n.prefixLen = 0 ∨ n.Canonical
  ordered : config.subnetMax ≠ none ∨ n.prefixLen = 0 → config.firstBlock n ≤ config.lastBlock n

section Blocks
variable {config accepted : Config} {n : Ipv4Network} {a b : Ipv4Addr} {len : Nat} {build : Build}

theorem blockSplit (short : n.prefixLen ≤ len) (valid : len ≤ 32) :
    ∃ k, n.size = 2 ^ (32 - len) * k := by
  refine ⟨2 ^ (len - n.prefixLen), ?_⟩
  rw [Ipv4Network.size, ← Nat.pow_add]
  congr 1
  omega

theorem blockEnd (short : n.prefixLen ≤ len) (valid : len ≤ 32) (aligned : 2 ^ (32 - len) ∣ b.toNat)
    (before : a.toNat < b.toNat + 2 ^ (32 - len)) : blockOf n.prefixLen a ≤ blockOf n.prefixLen b := by
  obtain ⟨k, split⟩ := blockSplit short valid
  have coarse : ∀ x, x / n.size = x / 2 ^ (32 - len) / k := fun x => by rw [split, Nat.div_div_eq_div_mul]
  change a.toNat / n.size ≤ b.toNat / n.size
  rw [coarse, coarse]
  refine Nat.div_le_div_right ?_
  obtain ⟨j, whole⟩ := aligned
  rw [whole] at before ⊢
  rw [Nat.mul_div_cancel_left _ (Nat.two_pow_pos _)]
  refine Nat.le_of_lt_succ ((Nat.div_lt_iff_lt_mul (Nat.two_pow_pos _)).mpr ?_)
  rw [Nat.succ_mul, Nat.mul_comm]
  exact before

theorem insideBetween (short : n.prefixLen ≤ len) (valid : len ≤ 32) (least : n.contains a = true)
    (greatest : n.contains b = true) (aligned : 2 ^ (32 - len) ∣ b.toNat) (c : Ipv4Addr) (from_ : a.toNat ≤ c.toNat)
    (before : c.toNat < b.toNat + 2 ^ (32 - len)) : n.contains c = true := by
  rw [containsIff] at least greatest ⊢
  have up : blockOf n.prefixLen a ≤ blockOf n.prefixLen c := Nat.div_le_div_right from_
  have down := blockEnd short valid aligned before
  omega

theorem networkEnd (n : Ipv4Network) : n.size * (n.ip.toNat / n.size) + n.size ≤ 2 ^ 32 := by
  obtain ⟨m, whole⟩ := sizeDvd n
  have below := n.ip.isLt
  have less : n.size * (n.ip.toNat / n.size) < n.size * m := Nat.lt_of_le_of_lt (Nat.mul_div_le _ _) (by omega)
  have next := Nat.mul_le_mul_left n.size (Nat.lt_of_mul_lt_mul_left less)
  rw [Nat.mul_succ] at next
  omega

theorem lastNat (len : LenAccepted n.prefixLen config.subnetLen) (low : 0 < n.prefixLen)
    (absent : config.subnetMax = none) :
    (config.lastBlock n).toNat = (n.ip.toNat + n.size - (config.blockSize n).toNat) % 2 ^ 32 := by
  obtain ⟨hop, small⟩ := hopNat low
  obtain ⟨_, four⟩ := blockSizeNat len
  have hopSize : n.hop.toNat = n.size := by
    rw [hop, BitVec.toNat_ofNat]
    exact Nat.mod_eq_of_lt small
  rw [Config.lastBlock, absent, Option.getD_none, BitVec.toNat_sub, BitVec.toNat_add, hopSize]
  have below := n.ip.isLt
  omega

theorem lastOfCanonical (len : LenAccepted n.prefixLen config.subnetLen) (low : 0 < n.prefixLen)
    (absent : config.subnetMax = none) (canonical : n.Canonical) :
    (config.lastBlock n).toNat = n.ip.toNat + (n.size - (config.blockSize n).toNat) := by
  obtain ⟨_, four⟩ := blockSizeNat len
  have positive : 0 < (config.blockSize n).toNat := by
    rw [(blockSizeNat len).1]
    exact Nat.two_pow_pos _
  have last := networkEnd n
  rw [Nat.mul_div_cancel' ((canonicalIff n).mp canonical)] at last
  rw [lastNat len low absent, Nat.mod_eq_of_lt (by omega)]
  omega

/- A multiple of the block size behind the last block of the network is outside. -/
theorem beyondNetwork {d : Nat} (low : 0 < n.prefixLen) (small : d < n.size) :
    (n.size * (n.ip.toNat / n.size) + n.size + d) % 2 ^ 32 / n.size ≠ n.ip.toNat / n.size := by
  have pos := sizePos n
  have last := networkEnd n
  obtain ⟨_, proper⟩ := hopNat low
  obtain ⟨m, whole⟩ := sizeDvd n
  generalize n.ip.toNat / n.size = q at last ⊢
  rcases Nat.lt_or_eq_of_le last with inner | top
  · have more : n.size * (q + 1) + n.size ≤ 2 ^ 32 := by
      rw [whole, ← Nat.mul_succ] at inner ⊢
      exact Nat.mul_le_mul_left n.size (Nat.lt_of_mul_lt_mul_left inner)
    rw [Nat.mul_succ] at more
    rw [Nat.mod_eq_of_lt (by omega), ← Nat.mul_succ, Nat.mul_add_div pos, Nat.div_eq_of_lt small]
    omega
  · rw [top, Nat.add_mod_left, Nat.mod_eq_of_lt (by omega), Nat.div_eq_of_lt small]
    rintro rfl
    omega

/- Without host bits the default for SubnetMax is the last block of the network; with
aligned host bits it is behind the network. -/
theorem lastInside (len : LenAccepted n.prefixLen config.subnetLen) (low : 0 < n.prefixLen)
    (absent : config.subnetMax = none) (aligned : 2 ^ (32 - config.blockLen n) ∣ (config.lastBlock n).toNat) :
    n.contains (config.lastBlock n) = true ↔ n.Canonical := by
  obtain ⟨size, four⟩ := blockSizeNat len
  have pos := sizePos n
  have positive : 0 < (config.blockSize n).toNat := by
    rw [size]
    exact Nat.two_pow_pos _
  rw [containsIff]
  constructor
  · intro same
    have short : n.prefixLen ≤ config.blockLen n := Nat.le_of_add_right_le (effectiveBounds len).1
    have high : config.blockLen n ≤ 30 := (effectiveBounds len).2
    obtain ⟨k, split⟩ := blockSplit short (show config.blockLen n ≤ 32 by omega)
    have divides : (config.blockSize n).toNat ∣ n.size := ⟨k, by rw [size, split]⟩
    -- the host bits are whole blocks, so what is left of them shows behind the network
    have address := Nat.div_add_mod n.ip.toNat n.size
    have hostSmall := Nat.mod_lt n.ip.toNat pos
    rw [canonicalIff, Nat.dvd_iff_mod_eq_zero]
    by_contra host
    have hostAligned : (config.blockSize n).toNat ∣ n.ip.toNat % n.size := by
      rw [lastNat len low absent, ← size, Nat.dvd_mod_iff (Nat.dvd_trans divides (sizeDvd n))] at aligned
      have sum := Nat.dvd_add aligned (Nat.dvd_refl _)
      rw [Nat.sub_add_cancel (by omega)] at sum
      exact (Nat.dvd_mod_iff divides).mpr ((Nat.dvd_add_iff_left divides).mpr sum)
    have behind := Nat.le_of_dvd (Nat.pos_of_ne_zero host) hostAligned
    have sum : n.ip.toNat + n.size - (config.blockSize n).toNat =
        n.size * (n.ip.toNat / n.size) + n.size + (n.ip.toNat % n.size - (config.blockSize n).toNat) := by
      omega
    refine beyondNetwork low (show n.ip.toNat % n.size - (config.blockSize n).toNat < n.size by omega) ?_
    rw [← sum, ← lastNat len low absent]
    exact same
  · intro canonical
    change (config.lastBlock n).toNat / n.size = n.ip.toNat / n.size
    obtain ⟨q, whole⟩ := (canonicalIff n).mp canonical
    rw [lastOfCanonical len low absent canonical, whole, Nat.mul_add_div pos, Nat.mul_div_cancel_left _ pos,
      Nat.div_eq_of_lt (by omega), Nat.add_zero]

theorem firstInOrder (accepts : config.Accepts n) (low : 0 < n.prefixLen) (absent : config.subnetMax = none)
    (canonical : n.Canonical) (least : n.contains (config.firstBlock n) = true) :
    config.firstBlock n ≤ config.lastBlock n := by
  obtain ⟨size, four⟩ := blockSizeNat accepts.len
  have short : n.prefixLen ≤ config.blockLen n := Nat.le_of_add_right_le (effectiveBounds accepts.len).1
  have high : config.blockLen n ≤ 30 := (effectiveBounds accepts.len).2
  obtain ⟨k, split⟩ := blockSplit short (show config.blockLen n ≤ 32 by omega)
  obtain ⟨q, whole⟩ := (canonicalIff n).mp canonical
  obtain ⟨j, first⟩ := accepts.minAligned
  have inside : (config.firstBlock n).toNat < n.size * (q + 1) := by
    have same : (config.firstBlock n).toNat / n.size = n.ip.toNat / n.size := (containsIff n _).mp least
    rw [whole, Nat.mul_div_cancel_left _ (sizePos n)] at same
    rw [← same]
    exact Nat.lt_mul_div_succ _ (sizePos n)
  rw [first, split, Nat.mul_assoc] at inside
  have before := Nat.mul_le_mul_left (2 ^ (32 - config.blockLen n)) (Nat.lt_of_mul_lt_mul_left inside)
  rw [← Nat.mul_assoc, ← split, Nat.mul_succ, Nat.mul_succ, ← first] at before
  rw [BitVec.le_def, lastOfCanonical accepts.len low absent canonical, whole, size]
  omega

theorem completedRange (accepts : config.Accepts n) :
    Range (config.completed n) (config.firstBlock n) (config.lastBlock n) where
  least := rfl
  greatest := rfl
  lenLow := Nat.le_of_add_left_le (effectiveBounds accepts.len).1
  lenHigh := (effectiveBounds accepts.len).2
  minAligned := accepts.minAligned
  maxAligned := accepts.maxAligned

theorem usableIff (net : config.network = some n) (accepts : config.Accepts n) :
    Usable (config.completed n) ↔ config.StaysInside n := by
  have short : n.prefixLen ≤ config.blockLen n := Nat.le_of_add_right_le (effectiveBounds accepts.len).1
  have high : config.blockLen n ≤ 30 := (effectiveBounds accepts.len).2
  constructor
  · rintro ⟨m, first, last, usable⟩
    obtain rfl : n = m := Option.some.inj (net.symm.trans usable.network)
    obtain rfl : config.firstBlock n = first := Option.some.inj usable.range.least
    obtain rfl : config.lastBlock n = last := Option.some.inj usable.range.greatest
    have ordered := usable.ordered
    have least := usable.inside (config.firstBlock n) (Nat.le_refl _)
      (Nat.lt_of_le_of_lt (BitVec.le_def.mp ordered) (Nat.lt_add_of_pos_right (Nat.two_pow_pos _)))
    have greatest := usable.inside (config.lastBlock n) (BitVec.le_def.mp ordered)
      (Nat.lt_add_of_pos_right (Nat.two_pow_pos _))
    refine ⟨fun absent => ?_, fun absent => ?_, fun _ => ordered⟩
    · rwa [Config.firstBlock, absent] at least
    · rcases Nat.eq_zero_or_pos n.prefixLen with all | low
      · exact .inl all
      · exact .inr ((lastInside accepts.len low absent accepts.maxAligned).mp greatest)
  · intro stays
    have least : n.contains (config.firstBlock n) = true := by
      cases given : config.subnetMin with
      | none =>
        rw [Config.firstBlock, given]
        exact stays.min given
      | some a =>
        rw [Config.firstBlock, given]
        exact accepts.min a given
    have greatest : n.contains (config.lastBlock n) = true := by
      cases given : config.subnetMax with
      | none =>
        rcases Nat.eq_zero_or_pos n.prefixLen with all | low
        · rw [containsIff, blockOf, blockOf, all, Nat.div_eq_of_lt (BitVec.isLt _), Nat.div_eq_of_lt (BitVec.isLt _)]
        · have canonical := (stays.max given).resolve_left (by omega)
          exact (lastInside accepts.len low given accepts.maxAligned).mpr canonical
      | some a =>
        rw [Config.lastBlock, given]
        exact accepts.max a given
    have ordered : config.firstBlock n ≤ config.lastBlock n := by
      by_cases related : config.subnetMax ≠ none ∨ n.prefixLen = 0
      · exact stays.ordered related
      · push Not at related
        obtain ⟨absent, low⟩ := related
        have canonical := (stays.max absent).resolve_left low
        exact firstInOrder accepts (Nat.pos_of_ne_zero low) absent canonical least
    exact ⟨n, _, _, net, completedRange accepts, (effectiveBounds accepts.len).1, ordered,
      insideBetween short (show config.blockLen n ≤ 32 by omega) least greatest accepts.maxAligned⟩

/- Without `EnableIPv4` nothing is checked and the configuration stays as it is. -/
theorem acceptedUsableIff (ok : checkNetworkConfig build config = .ok accepted) : Usable accepted ↔
    if config.enableIpv4 then ∀ n, config.network = some n → config.StaysInside n else Usable config := by
  have passed := passedCheck ok
  split at passed
  · rename_i enabled
    obtain ⟨n, net, accepts, rfl⟩ := checkedCompletes passed
    rw [usableIff net accepts, if_pos enabled]
    constructor
    · intro stays m same
      rw [net] at same
      exact Option.some.inj same ▸ stays
    · exact fun stays => stays n net
  · rename_i disabled
    rw [passed, if_neg disabled]

end Blocks

/- The network 10.0.1.0/16 has the host bits 0.0.1.0. -/
private def hostBits : Config := { enableIpv4 := true, network := some (cidr 0x0A000100 16) }

private def crossed : Config := {
  enableIpv4 := true
  network := some (cidr 0x0A000000 16)
  subnetMin := some 0x0A000900
  subnetMax := some 0x0A000100 }

private def plainNetwork : Config := { enableIpv4 := true, network := some (cidr 0x0A000000 16) }

theorem acceptedLeavesNetwork :
    (checkNetworkConfig .checked hostBits = .ok (hostBits.completed (cidr 0x0A000100 16)) ∧
      ¬Usable (hostBits.completed (cidr 0x0A000100 16))) ∧
    (checkNetworkConfig .checked crossed = .ok (crossed.completed (cidr 0x0A000000 16)) ∧
      ¬Usable (crossed.completed (cidr 0x0A000000 16))) := by
  refine ⟨⟨by decide, fun usable => ?_⟩, ⟨by decide, fun usable => ?_⟩⟩
  · have stays := (usableIff rfl (by decide)).mp usable
    exact absurd (stays.max rfl) (by decide)
  · have stays := (usableIff rfl (by decide)).mp usable
    exact absurd (stays.ordered (.inl (by decide))) (by decide)

theorem plainNetworkUsable : Usable (plainNetwork.completed (cidr 0x0A000000 16)) := by
  refine (@acceptedUsableIff plainNetwork _ .checked (by decide)).mpr ?_
  intro n net
  cases Option.some.inj net
  exact ⟨by decide, by decide, by decide⟩

end FlannelNg
