import FlannelNg.Lease
import FlannelNg.Lib.Dotted
import FlannelNg.Lib.Keyed

/-! The part of etcd that holds the subnet leases: the keys under `subnets`, in the
order of a range read, and every transaction that changed them. The first
transaction of the log has revision 2; an empty store is at revision 1. -/
namespace FlannelNg
open Cidr Outcome

/-- How the registry writes a subnet and its attributes to etcd and reads them back,
and how etcd compares keys. -/
structure Codec (K V : Type) where
  key : Ipv4Network → K
  extractIpAndSubnet : K → Res (Ipv4Network × Option Ipv6Network)
  toVec : LeaseAttrs → V
  fromSlice : V → Res LeaseAttrs
  before : K → K → Bool
  startsWith : K → K → Bool

structure KeyValue (K V : Type) where
  key : K
  value : V
  lease : Int
  deriving DecidableEq, Repr

inductive Event (K V : Type) where
  | put (kv : KeyValue K V)
  | delete (key : K)
  deriving DecidableEq, Repr

def Event.key {K V : Type} : Event K V → K
  | .put kv => kv.key
  | .delete k => k

structure Etcd (K V : Type) where
  kvs : List (KeyValue K V)
  log : List (List (Event K V))
  distinct : Keyed.Distinct KeyValue.key kvs
  deriving DecidableEq

namespace Etcd
variable {K V : Type} [DecidableEq K] (codec : Codec K V)

def empty : Etcd K V := ⟨[], [], List.nodup_nil⟩

def revision (db : Etcd K V) : Nat := db.log.length + 1

def get (k : K) (db : Etcd K V) : Option (KeyValue K V) := Keyed.lookup KeyValue.key k db.kvs

def applyEvent (kvs : List (KeyValue K V)) : Event K V → List (KeyValue K V)
  | .put kv => Keyed.insertSorted KeyValue.key (fun x y => codec.before x.key y.key = true) kv kvs
  | .delete k => kvs.filter (fun kv => decide (kv.key ≠ k))

theorem distinctApplyEvent {kvs : List (KeyValue K V)} (distinct : Keyed.Distinct KeyValue.key kvs)
    (ev : Event K V) : Keyed.Distinct KeyValue.key (applyEvent codec kvs ev) := by
  cases ev with
  | put kv => exact Keyed.distinctInsertSorted distinct
  | delete k => exact Keyed.distinctSublist distinct List.filter_sublist

theorem distinctApplyEvents {kvs : List (KeyValue K V)} (distinct : Keyed.Distinct KeyValue.key kvs)
    (txn : List (Event K V)) : Keyed.Distinct KeyValue.key (txn.foldl (applyEvent codec) kvs) := by
  induction txn generalizing kvs with
  | nil => exact distinct
  | cons ev rest ih => exact ih (distinctApplyEvent codec distinct ev)

def commit (txn : List (Event K V)) (db : Etcd K V) : Etcd K V where
  kvs := txn.foldl (applyEvent codec) db.kvs
  log := db.log ++ [txn]
  distinct := distinctApplyEvents codec db.distinct txn

def put (kv : KeyValue K V) (db : Etcd K V) : Etcd K V := db.commit codec [.put kv]

/- The transaction with the comparison `version(key) == 0`. -/
def putIfAbsent (kv : KeyValue K V) (db : Etcd K V) : Bool × Etcd K V :=
  if (db.get kv.key).isNone then (true, db.put codec kv) else (false, db)

/- Deleting no key is no transaction. -/
def deleteWhere (p : KeyValue K V → Bool) (db : Etcd K V) : Etcd K V :=
  if db.kvs.any p then db.commit codec ((db.kvs.filter p).map (fun kv => .delete kv.key)) else db

def revoke (lease : Int) (db : Etcd K V) : Etcd K V := db.deleteWhere codec (fun kv => kv.lease = lease)

def expire (k : K) (db : Etcd K V) : Etcd K V := db.deleteWhere codec (fun kv => decide (kv.key = k))

variable {codec} {db : Etcd K V} {k : K} {kv : KeyValue K V}

theorem getSome (found : db.get k = some kv) : kv ∈ db.kvs ∧ kv.key = k := Keyed.lookupSome found

theorem memIff : kv ∈ db.kvs ↔ db.get kv.key = some kv := Keyed.memIff db.distinct

theorem getPut : (db.put codec kv).get k = if kv.key = k then some kv else db.get k :=
  Keyed.lookupInsertSorted db.distinct

theorem logPut : (db.put codec kv).log = db.log ++ [[.put kv]] := rfl

theorem lookupDeletes {kvs : List (KeyValue K V)} (ks : List K) :
    Keyed.lookup KeyValue.key k ((ks.map Event.delete).foldl (applyEvent codec) kvs) =
      if k ∈ ks then none else Keyed.lookup KeyValue.key k kvs := by
  induction ks generalizing kvs with
  | nil => simp
  | cons j js ih =>
    have one : Keyed.lookup KeyValue.key k (applyEvent codec kvs (.delete j)) =
        if decide (k ≠ j) then Keyed.lookup KeyValue.key k kvs else none :=
      Keyed.lookupFilter (p := fun x => decide (x ≠ j))
    simp only [List.map_cons, List.foldl_cons, ih, one, List.mem_cons]
    by_cases h : k = j <;> by_cases h' : k ∈ js <;> simp [h, h']

theorem getDeleteWhere {p : KeyValue K V → Bool} :
    (db.deleteWhere codec p).get k = (db.get k).filter (fun kv => !p kv) := by
  unfold deleteWhere
  split
  · change Keyed.lookup _ k _ = _
    simp only [commit, ← Function.comp_def Event.delete, ← List.map_map, lookupDeletes]
    cases found : db.get k with
    | none =>
      have none : Keyed.lookup KeyValue.key k db.kvs = none := found
      simp [none]
    | some kv =>
      obtain ⟨member, rfl⟩ := getSome found
      have here : Keyed.lookup KeyValue.key kv.key db.kvs = some kv := found
      have deleted : kv.key ∈ (db.kvs.filter p).map KeyValue.key ↔ p kv = true := by
        constructor
        · intro h
          obtain ⟨other, ho, same⟩ := List.mem_map.mp h
          obtain ⟨ho, hp⟩ := List.mem_filter.mp ho
          rw [memIff, same, found] at ho
          rw [Option.some.inj ho]
          exact hp
        · exact fun hp => List.mem_map.mpr ⟨kv, List.mem_filter.mpr ⟨member, hp⟩, rfl⟩
      by_cases hp : p kv = true
      · simp [deleted, hp, Option.filter]
      · simp [here, deleted, hp, Option.filter]
  · rename_i nothing
    cases found : db.get k with
    | none => rfl
    | some kv =>
      have keep : p kv = false := by
        have all : ∀ kv ∈ db.kvs, p kv = false := by simpa using nothing
        exact all kv (getSome found).1
      simp [keep, Option.filter]

theorem getOfDeleteWhere {p : KeyValue K V → Bool} (found : (db.deleteWhere codec p).get k = some kv) :
    db.get k = some kv ∧ p kv = false := by
  rw [getDeleteWhere, Option.filter_eq_some_iff] at found
  exact ⟨found.1, by simpa using found.2⟩

theorem logDeleteWhere {p : KeyValue K V → Bool} : (db.deleteWhere codec p).log = db.log ∨
    ∃ ks : List K, (db.deleteWhere codec p).log = db.log ++ [ks.map Event.delete] := by
  unfold deleteWhere
  split
  · exact .inr ⟨(db.kvs.filter p).map KeyValue.key, by simp [commit, List.map_map, Function.comp_def]⟩
  · exact .inl rfl

end Etcd

/- `format!("{}-{}", sn.ip(), sn.prefix())`, the last segment of a subnet's key. -/
def subnetName (sn : Ipv4Network) : List Char := dotted sn.ip ++ '-' :: decimal sn.prefixLen

theorem subnetNameInj {a b : Ipv4Network} (same : subnetName a = subnetName b) : a = b := by
  have sep := notInDotted (c := '-') rfl (by decide)
  obtain ⟨ip, len⟩ := splitAt (sep _) (sep _) same
  exact eqOfParts (dottedInj ip) (decimalInj len)

theorem subnetNameIp {a b : Ipv4Network} (start : (subnetName a).isPrefixOf (subnetName b) = true) : a.ip = b.ip := by
  obtain ⟨rest, same⟩ := List.isPrefixOf_iff_prefix.mp start
  have sep := notInDotted (c := '-') rfl (by decide)
  simp only [subnetName, List.append_assoc, List.cons_append] at same
  exact dottedInj (splitAt (sep _) (sep _) same).1

theorem subnetNamePrefix {a b : Ipv4Network} (start : (subnetName a).isPrefixOf (subnetName b) = true)
    (len : a.prefixLen = b.prefixLen) : a = b := eqOfParts (subnetNameIp start) len

/- Keys and values taken as the networks and attributes they stand for. -/
def Codec.plain : Codec Ipv4Network LeaseAttrs where
  key := id
  extractIpAndSubnet := fun sn => .ok (sn, none)
  toVec := id
  fromSlice := .ok
  before := fun a b => decide (subnetName a < subnetName b)
  startsWith := fun k start => (subnetName start).isPrefixOf (subnetName k)

end FlannelNg
