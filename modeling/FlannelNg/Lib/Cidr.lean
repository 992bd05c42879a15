import Mathlib.Data.BitVec
import Mathlib.Tactic.Ring

/-! IPv4 networks as the `ipnetwork` crate documents them: an address, kept as it
was written, and a prefix length of at most 32. A network stands for the block of
addresses that agree with it above the last `32 - prefixLen` bits. -/
namespace FlannelNg.Cidr

abbrev Ipv4Addr := BitVec 32

/- The block number of an address among the blocks of one prefix length. -/
def blockOf (prefixLen : Nat) (a : Ipv4Addr) : Nat := a.toNat / 2 ^ (32 - prefixLen)

def maskOf (prefixLen : Nat) : Ipv4Addr := ~~~(0xFFFFFFFF#32 >>> prefixLen)

structure Ipv4Network where
  ip : Ipv4Addr
  prefixLen : Nat
  valid : prefixLen ≤ 32
  deriving DecidableEq, Repr

/- A length beyond 32 is read as 32. -/
def cidr (ip : Ipv4Addr) (len : Nat) : Ipv4Network := ⟨ip, min len 32, Nat.min_le_right len 32⟩

namespace Ipv4Network

/- The constructor keeps the host bits of the address; only the length is checked. -/
def new (ip : Ipv4Addr) (prefixLen : Nat) : Option Ipv4Network :=
  if h : prefixLen ≤ 32 then some ⟨ip, prefixLen, h⟩ else none

variable (n : Ipv4Network)

def size : Nat := 2 ^ (32 - n.prefixLen)
def mask : Ipv4Addr := maskOf n.prefixLen
def network : Ipv4Addr := n.ip &&& n.mask
def broadcast : Ipv4Addr := n.ip ||| ~~~n.mask
def contains (a : Ipv4Addr) : Bool := a &&& n.mask == n.ip &&& n.mask

def overlaps (other : Ipv4Network) : Bool :=
  other.contains n.ip || (other.contains n.broadcast || (n.contains other.ip || n.contains other.broadcast))

def Canonical : Prop := n.network = n.ip
instance : Decidable n.Canonical := by unfold Canonical; infer_instance

def Disjoint (m : Ipv4Network) : Prop := ∀ a, ¬(n.contains a = true ∧ m.contains a = true)

end Ipv4Network

open Ipv4Network

theorem newValid {ip len} (h : len ≤ 32) : Ipv4Network.new ip len = some ⟨ip, len, h⟩ := dif_pos h

theorem eqOfParts {n m : Ipv4Network} (ip : n.ip = m.ip) (len : n.prefixLen = m.prefixLen) : n = m := by
  cases n
  cases m
  simp_all

theorem cidrIs {ip len} (valid : len ≤ 32) : cidr ip len = ⟨ip, len, valid⟩ := eqOfParts rfl (Nat.min_eq_left valid)

theorem maskBit {len i : Nat} :
    (maskOf len).getLsbD i = decide (32 - len ≤ i ∧ i < 32) := by
  have ones : (0xFFFFFFFF#32).getLsbD (len + i) = decide (len + i < 32) := by
    rw [show (0xFFFFFFFF#32) = BitVec.allOnes 32 from rfl, BitVec.getLsbD_allOnes]
  simp only [maskOf, BitVec.getLsbD_not, BitVec.getLsbD_ushiftRight, ones]
  by_cases h : i < 32 <;> by_cases h' : len + i < 32 <;> simp [h, h'] <;> omega

theorem maskedNat (len : Nat) (a : Ipv4Addr) :
    (a &&& maskOf len).toNat = blockOf len a * 2 ^ (32 - len) := by
  apply Nat.eq_of_testBit_eq
  intro i
  have bit : (a &&& maskOf len).toNat.testBit i = (a &&& maskOf len).getLsbD i := rfl
  rw [bit, BitVec.getLsbD_and, maskBit, blockOf, Nat.testBit_mul_two_pow, Nat.testBit_div_two_pow]
  have top : ¬ i < 32 → a.toNat.testBit i = false := fun h =>
    Nat.testBit_lt_two_pow (lt_of_lt_of_le a.isLt (Nat.pow_le_pow_right (by omega) (by omega)))
  by_cases low : 32 - len ≤ i
  · by_cases high : i < 32
    · simp [low, high, BitVec.getLsbD]
    · simp [low, high, top high]
  · simp [low]

theorem shiftedMask {len : Nat} : 0xFFFFFFFF#32 <<< (32 - len) = maskOf len := by
  apply BitVec.eq_of_getLsbD_eq
  intro i hi
  rw [maskBit, show (0xFFFFFFFF#32) = BitVec.allOnes 32 from rfl, BitVec.getLsbD_shiftLeft,
    BitVec.getLsbD_allOnes]
  by_cases h : i < 32 - len <;> simp [h, hi] <;> omega

theorem sizePos (n : Ipv4Network) : 0 < n.size := Nat.two_pow_pos _

theorem sizeDvd (n : Ipv4Network) : n.size ∣ 2 ^ 32 := Nat.pow_dvd_pow 2 (by omega)

theorem containsIff (n : Ipv4Network) (a : Ipv4Addr) :
    n.contains a = true ↔ blockOf n.prefixLen a = blockOf n.prefixLen n.ip := by
  simp only [contains, mask, beq_iff_eq, ← BitVec.toNat_inj, maskedNat]
  exact Nat.mul_left_inj (Nat.two_pow_pos _).ne'

theorem containsSelf (n : Ipv4Network) : n.contains n.ip = true := (containsIff n n.ip).mpr rfl

theorem sharedIp {n m : Ipv4Network} (same : n.ip = m.ip) : ¬n.Disjoint m :=
  fun disjoint => disjoint n.ip ⟨containsSelf n, same ▸ containsSelf m⟩

theorem containsBroadcast (n : Ipv4Network) : n.contains n.broadcast = true := by
  simp only [contains, beq_iff_eq, broadcast]
  apply BitVec.eq_of_getLsbD_eq
  intro i hi
  simp only [BitVec.getLsbD_and, BitVec.getLsbD_or, BitVec.getLsbD_not, hi, decide_true, Bool.true_and]
  cases n.mask.getLsbD i <;> simp

theorem blockOfShorter {short long : Nat} (h : short ≤ long) (valid : long ≤ 32) {a b : Ipv4Addr}
    (same : blockOf long a = blockOf long b) : blockOf short a = blockOf short b := by
  have split : 2 ^ (32 - short) = 2 ^ (32 - long) * 2 ^ (long - short) := by
    rw [← Nat.pow_add]
    congr 1
    omega
  simp only [blockOf, split, ← Nat.div_div_eq_div_mul] at *
  rw [same]

/- `overlaps` tests a few addresses only; blocks are nested or disjoint, so it
decides whether they share any address. -/
theorem overlapsIff (n m : Ipv4Network) : n.overlaps m = true ↔ ¬n.Disjoint m := by
  unfold Ipv4Network.Disjoint
  push Not
  simp only [overlaps, Bool.or_eq_true]
  constructor
  · rintro (h | h | h | h)
    · exact ⟨n.ip, containsSelf n, h⟩
    · exact ⟨n.broadcast, containsBroadcast n, h⟩
    · exact ⟨m.ip, h, containsSelf m⟩
    · exact ⟨m.broadcast, h, containsBroadcast m⟩
  · rintro ⟨a, inN, inM⟩
    rw [containsIff] at inN inM
    rcases Nat.le_total n.prefixLen m.prefixLen with le | le
    · have same := blockOfShorter le m.valid inM
      exact .inr (.inr (.inl ((containsIff n m.ip).mpr (same.symm.trans inN))))
    · have same := blockOfShorter le n.valid inN
      exact .inl ((containsIff m n.ip).mpr (same.symm.trans inM))

theorem disjointIff (n m : Ipv4Network) : n.Disjoint m ↔ n.overlaps m = false := by
  have h := overlapsIff n m
  cases hv : n.overlaps m <;> simp [hv] at h <;> simp [h]

instance (n m : Ipv4Network) : Decidable (n.Disjoint m) := decidable_of_iff _ (disjointIff n m).symm

theorem disjointSymm {n m : Ipv4Network} (h : n.Disjoint m) : m.Disjoint n :=
  fun a both => h a both.symm

theorem canonicalDisjoint {n m : Ipv4Network} (cn : n.Canonical) (cm : m.Canonical)
    (len : n.prefixLen = m.prefixLen) (different : n ≠ m) : n.Disjoint m := by
  rintro a ⟨inN, inM⟩
  rw [containsIff] at inN inM
  apply different
  refine eqOfParts ?_ len
  have block : blockOf n.prefixLen n.ip = blockOf m.prefixLen m.ip := by
    rw [← inN, ← inM, len]
  rw [← cn, ← cm, ← BitVec.toNat_inj]
  simp only [network, mask]
  rw [maskedNat, maskedNat, block, len]

theorem canonicalIff (n : Ipv4Network) : n.Canonical ↔ n.size ∣ n.ip.toNat := by
  rw [Canonical, ← BitVec.toNat_inj, network, mask, maskedNat, blockOf]
  exact ⟨fun h => h ▸ Nat.dvd_mul_left _ _, Nat.div_mul_cancel⟩

theorem containsRange {n : Ipv4Network} (canonical : n.Canonical) (a : Ipv4Addr) :
    n.contains a = true ↔ n.ip.toNat ≤ a.toNat ∧ a.toNat < n.ip.toNat + n.size := by
  have pos := sizePos n
  obtain ⟨q, whole⟩ := (canonicalIff n).mp canonical
  rw [containsIff]
  change a.toNat / n.size = n.ip.toNat / n.size ↔ _
  rw [whole, Nat.mul_div_cancel_left _ pos, Nat.div_eq_iff pos, Nat.mul_comm q]
  omega

end FlannelNg.Cidr
