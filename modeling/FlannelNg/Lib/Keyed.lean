import Mathlib.Data.List.Sort
import Mathlib.Data.List.Nodup
import Mathlib.Logic.Function.Basic

/-! Lists whose elements carry a key, read as finite maps: the first element with a
key is the one that counts. -/
namespace FlannelNg.Keyed

variable {α κ : Type} (key : α → κ)

def Distinct (xs : List α) : Prop := (xs.map key).Nodup

theorem distinctSublist {key : α → κ} {xs ys : List α} (distinct : Distinct key ys)
    (sub : xs.Sublist ys) : Distinct key xs := List.Nodup.sublist (sub.map key) distinct

variable [DecidableEq κ]

instance (xs : List α) : Decidable (Distinct key xs) := by unfold Distinct; infer_instance

def lookup (k : κ) (xs : List α) : Option α := xs.find? (fun x => key x = k)

/- Overwrites the first element with the key, or appends. -/
def upsert (x : α) : List α → List α
  | [] => [x]
  | y :: ys => if key y = key x then x :: ys else y :: upsert x ys

/- Erases the first element with the key. -/
def remove (k : κ) (xs : List α) : List α := xs.eraseP (fun x => key x = k)

/- Overwrites the element with the key, or inserts in front of the first later one. -/
def insertSorted (before : α → α → Prop) [DecidableRel before] (x : α) (xs : List α) : List α :=
  if (lookup key (key x) xs).isSome then upsert key x xs else xs.orderedInsert before x

variable {key} {k k' : κ} {x : α} {xs ys : List α}

@[simp] theorem lookupNil : lookup key k [] = none := rfl

theorem lookupCons : lookup key k (x :: xs) = if key x = k then some x else lookup key k xs := by
  by_cases h : key x = k <;> simp [lookup, h]

theorem lookupSome (found : lookup key k xs = some x) : x ∈ xs ∧ key x = k :=
  ⟨List.mem_of_find?_eq_some found, by simpa using List.find?_some found⟩

theorem lookupNone : lookup key k xs = none ↔ ∀ x ∈ xs, key x ≠ k := by
  simp [lookup]

theorem keyMem : k ∈ xs.map key ↔ ∃ x, lookup key k xs = some x := by
  constructor
  · intro member
    obtain ⟨y, hy, same⟩ := List.mem_map.mp member
    cases h : lookup key k xs with
    | some x => exact ⟨x, rfl⟩
    | none => exact absurd same (lookupNone.mp h y hy)
  · rintro ⟨x, found⟩
    obtain ⟨member, rfl⟩ := lookupSome found
    exact List.mem_map_of_mem member

theorem memIff (distinct : Distinct key xs) : x ∈ xs ↔ lookup key (key x) xs = some x := by
  constructor
  · intro member
    obtain ⟨y, found⟩ := keyMem.mp (List.mem_map_of_mem (f := key) member)
    obtain ⟨hy, same⟩ := lookupSome found
    rw [found, List.inj_on_of_nodup_map distinct hy member same]
  · exact fun found => (lookupSome found).1

theorem lookupPerm (distinct : Distinct key xs) (perm : xs.Perm ys) : lookup key k xs = lookup key k ys := by
  have distinct' : Distinct key ys := (perm.map key).nodup_iff.mp distinct
  cases h : lookup key k xs with
  | some x =>
    obtain ⟨member, rfl⟩ := lookupSome h
    exact ((memIff distinct').mp (perm.subset member)).symm
  | none =>
    symm
    rw [lookupNone] at h ⊢
    exact fun y hy => h y (perm.symm.subset hy)

theorem lookupUpsert : lookup key k (upsert key x xs) = if key x = k then some x else lookup key k xs := by
  induction xs with
  | nil => simp only [upsert, lookupCons]
  | cons y ys ih =>
    by_cases same : key y = key x
    · rw [upsert, if_pos same, lookupCons, lookupCons, same]
      by_cases hx : key x = k <;> simp [hx]
    · simp only [upsert, if_neg same, lookupCons, ih]
      split
      · rename_i hy
        rw [if_neg (fun hx => same (hy.trans hx.symm))]
      · rfl

theorem upsertKeys (present : key x ∈ xs.map key) : (upsert key x xs).map key = xs.map key := by
  induction xs with
  | nil => simp at present
  | cons y ys ih =>
    by_cases same : key y = key x
    · simp [upsert, same]
    · have later : key x ∈ ys.map key := by
        rcases List.mem_cons.mp present with h | h
        · exact absurd h.symm same
        · exact h
      simp [upsert, same, ih later]

theorem upsertAbsent (absent : key x ∉ xs.map key) : upsert key x xs = xs ++ [x] := by
  induction xs with
  | nil => rfl
  | cons y ys ih =>
    simp only [List.map_cons, List.mem_cons, not_or] at absent
    simp [upsert, Ne.symm absent.1, ih absent.2]

theorem distinctUpsert (distinct : Distinct key xs) : Distinct key (upsert key x xs) := by
  by_cases present : key x ∈ xs.map key
  · unfold Distinct
    rw [upsertKeys present]
    exact distinct
  · rw [upsertAbsent present]
    unfold Distinct
    rw [List.map_append, List.nodup_append]
    refine ⟨distinct, by simp, ?_⟩
    intro a ha b hb same
    rw [same, List.mem_singleton.mp hb] at ha
    exact present ha

theorem lookupRemove (distinct : Distinct key xs) :
    lookup key k (remove key k' xs) = if k = k' then none else lookup key k xs := by
  induction xs with
  | nil => simp [remove]
  | cons y ys ih =>
    obtain ⟨fresh, distinct⟩ := List.nodup_cons.mp (by simpa [Distinct] using distinct :
      (key y :: ys.map key).Nodup)
    by_cases hy : key y = k'
    · subst hy
      simp only [remove, decide_true, List.eraseP_cons_of_pos, lookupCons]
      by_cases hk : k = key y
      · subst hk
        have absent : lookup key (key y) ys = none := lookupNone.mpr (fun x hx same =>
          fresh (by rw [← same]; exact List.mem_map_of_mem hx))
        simp [absent]
      · simp [hk, Ne.symm hk]
    · have step : remove key k' (y :: ys) = y :: remove key k' ys :=
        List.eraseP_cons_of_neg (by simpa using hy)
      simp only [step, lookupCons, ih distinct]
      by_cases hk : key y = k
      · have : k ≠ k' := fun h => hy (hk.trans h)
        simp [hk, this]
      · simp [hk]

theorem distinctRemove (distinct : Distinct key xs) : Distinct key (remove key k xs) :=
  distinctSublist distinct List.eraseP_sublist

theorem lookupFilter {p : κ → Bool} :
    lookup key k (xs.filter (fun x => p (key x))) = if p k then lookup key k xs else none := by
  induction xs with
  | nil => simp
  | cons y ys ih =>
    by_cases hk : key y = k
    · subst hk
      by_cases hp : p (key y) <;> simp [lookupCons, hp, ih]
    · by_cases hp : p (key y) <;> simp [lookupCons, hp, hk, ih]

theorem removeFilter (distinct : Distinct key xs) : remove key k xs = xs.filter (fun x => decide (key x ≠ k)) := by
  induction xs with
  | nil => rfl
  | cons y ys ih =>
    obtain ⟨fresh, distinct⟩ := List.nodup_cons.mp (by simpa [Distinct] using distinct :
      (key y :: ys.map key).Nodup)
    by_cases hy : key y = k
    · subst hy
      have others : ∀ x ∈ ys, key x ≠ key y := fun x hx same => fresh (by rw [← same]; exact List.mem_map_of_mem hx)
      simp only [remove, decide_true, List.eraseP_cons_of_pos, ne_eq, not_true_eq_false, decide_false,
        Bool.false_eq_true, not_false_eq_true, List.filter_cons_of_neg]
      exact (List.filter_eq_self.mpr (fun x hx => by simpa using others x hx)).symm
    · have step : remove key k (y :: ys) = y :: remove key k ys :=
        List.eraseP_cons_of_neg (by simpa using hy)
      rw [step, ih distinct, List.filter_cons_of_pos (by simpa using hy)]

section Represents
variable {ν : Type} {value : α → ν} {m : κ → Option ν} {v : ν}

/-- A list in which keys may repeat stands for a map: each element holds the value of
its key, and each key of the map occurs. -/
structure Represents (key : α → κ) (value : α → ν) (xs : List α) (m : κ → Option ν) : Prop where
  sound : ∀ x ∈ xs, m (key x) = some (value x)
  complete : ∀ k v, m k = some v → ∃ x ∈ xs, key x = k

omit [DecidableEq κ] in
theorem representsNil : Represents key value [] (fun _ => none) :=
  ⟨fun _ member => absurd member List.not_mem_nil, fun _ _ => nofun⟩

theorem representsPut (rep : Represents key value xs m) {set : α → α} (kept : ∀ x, key (set x) = key x)
    (written : ∀ x, value (set x) = v) (last : key x = k ∧ value x = v) :
    Represents key value (xs.map (fun x => if key x = k then set x else x) ++ [x])
      (Function.update m k (some v)) := by
  obtain ⟨rfl, rfl⟩ := last
  constructor
  · intro y member
    rcases List.mem_append.mp member with old | new
    · obtain ⟨z, mem, rfl⟩ := List.mem_map.mp old
      by_cases same : key z = key x
      · rw [if_pos same, kept, written, same, Function.update_self]
      · rw [if_neg same, Function.update_of_ne same, rep.sound z mem]
    · rw [List.mem_singleton.mp new, Function.update_self]
  · intro j u found
    by_cases same : j = key x
    · exact ⟨x, by simp, same.symm⟩
    · rw [Function.update_of_ne same] at found
      obtain ⟨z, mem, rfl⟩ := rep.complete j u found
      exact ⟨z, List.mem_append_left _ (List.mem_map.mpr ⟨z, mem, if_neg same⟩), rfl⟩

theorem representsDelete (rep : Represents key value xs m) :
    Represents key value (xs.filter (fun x => decide (key x ≠ k))) (Function.update m k none) := by
  constructor
  · intro x member
    obtain ⟨mem, other⟩ := List.mem_filter.mp member
    rw [Function.update_of_ne (of_decide_eq_true other), rep.sound x mem]
  · intro j u found
    by_cases same : j = k
    · rw [same, Function.update_self] at found
      contradiction
    · rw [Function.update_of_ne same] at found
      obtain ⟨x, mem, rfl⟩ := rep.complete j u found
      exact ⟨x, List.mem_filter.mpr ⟨mem, decide_eq_true same⟩, rfl⟩

variable {p : κ → Bool}

omit [DecidableEq κ] in
theorem representsFind (rep : Represents key value xs m) (present : m k = some v) (hit : p k = true)
    (only : ∀ j u, m j = some u → p j = true → j = k) :
    ∃ x, xs.find? (fun x => p (key x)) = some x ∧ value x = v := by
  obtain ⟨y, mem, rfl⟩ := rep.complete k v present
  cases found : xs.find? (fun x => p (key x)) with
  | none => exact absurd hit (List.find?_eq_none.mp found y mem)
  | some x =>
    have same := only _ _ (rep.sound x (List.mem_of_find?_eq_some found)) (by simpa using List.find?_some found)
    have held := rep.sound x (List.mem_of_find?_eq_some found)
    rw [same, present] at held
    exact ⟨x, rfl, (Option.some.inj held).symm⟩

omit [DecidableEq κ] in
theorem representsFindNone (rep : Represents key value xs m) :
    xs.find? (fun x => p (key x)) = none ↔ ∀ k v, m k = some v → p k = false := by
  rw [List.find?_eq_none]
  constructor
  · intro all k v present
    obtain ⟨x, mem, rfl⟩ := rep.complete k v present
    exact Bool.eq_false_of_not_eq_true (all x mem)
  · intro all x mem
    exact Bool.not_eq_true _ ▸ all _ _ (rep.sound x mem)

omit [DecidableEq κ] in
/- Lists that stand for one map find the same value, where one key at most is looked for. -/
theorem representsSame {β : Type} {key' : β → κ} {value' : β → ν} {ys : List β} (rep : Represents key value xs m)
    (rep' : Represents key' value' ys m) (alone : ∀ j k u v, m j = some u → m k = some v → p j = true → p k = true → j = k) :
    (xs.find? (fun x => p (key x))).map value = (ys.find? (fun y => p (key' y))).map value' := by
  cases found : xs.find? (fun x => p (key x)) with
  | none =>
    have none_ := (representsFindNone rep').mpr ((representsFindNone rep).mp found)
    rw [none_]
    rfl
  | some x =>
    have held := rep.sound x (List.mem_of_find?_eq_some found)
    have hit : p (key x) = true := by simpa using List.find?_some found
    obtain ⟨y, found', same⟩ := representsFind rep' held hit (fun j u present hit' => alone j _ u _ present held hit' hit)
    rw [found', Option.map_some, Option.map_some, same]

end Represents

section Sorted
variable {before : α → α → Prop} [DecidableRel before]

theorem distinctInsertSorted (distinct : Distinct key xs) : Distinct key (insertSorted key before x xs) := by
  unfold insertSorted
  split
  · exact distinctUpsert distinct
  · rename_i absent
    have fresh : key x ∉ xs.map key := fun member => absent (by
      obtain ⟨y, found⟩ := keyMem.mp member
      simp [found])
    unfold Distinct
    rw [((List.perm_orderedInsert before x xs).map key).nodup_iff]
    exact List.nodup_cons.mpr ⟨fresh, distinct⟩

theorem lookupInsertSorted (distinct : Distinct key xs) :
    lookup key k (insertSorted key before x xs) = if key x = k then some x else lookup key k xs := by
  have after : Distinct key (insertSorted key before x xs) := distinctInsertSorted distinct
  unfold insertSorted at after ⊢
  split at after
  · rename_i present
    rw [if_pos present, lookupUpsert]
  · rename_i absent
    rw [if_neg absent, lookupPerm after (List.perm_orderedInsert before x xs), lookupCons]

theorem lookupInsertOther {κ' : Type} [DecidableEq κ'] {other : α → κ'} {j : κ'} (apart : other x ≠ j)
    (same : ∀ y ∈ xs, key y = key x → other y ≠ j) :
    lookup other j (insertSorted key before x xs) = lookup other j xs := by
  have afterUpsert : lookup other j (upsert key x xs) = lookup other j xs := by
    induction xs with
    | nil => simp [upsert, lookupCons, apart]
    | cons y ys ih =>
      by_cases here : key y = key x
      · simp [upsert, here, lookupCons, apart, same y List.mem_cons_self here]
      · simp [upsert, here, lookupCons, ih (fun z mem => same z (List.mem_cons_of_mem _ mem))]
  have afterInsert : lookup other j (xs.orderedInsert before x) = lookup other j xs := by
    clear same afterUpsert
    induction xs with
    | nil => simp [lookupCons, apart]
    | cons y ys ih =>
      simp only [List.orderedInsert_cons]
      split
      · rw [lookupCons, if_neg apart]
      · rw [lookupCons, lookupCons, ih]
  unfold insertSorted
  split
  · exact afterUpsert
  · exact afterInsert

end Sorted

section Map
variable {β κ' : Type} [DecidableEq κ'] {key' : β → κ'} {f : α → β} {g : κ → κ'} {before : α → α → Prop}
variable {before' : β → β → Prop} [DecidableRel before] [DecidableRel before']

theorem lookupMap (keys : ∀ x, key' (f x) = g (key x)) (inj : Function.Injective g) :
    lookup key' (g k) (xs.map f) = (lookup key k xs).map f := by
  induction xs with
  | nil => rfl
  | cons x xs ih =>
    rw [List.map_cons, lookupCons, lookupCons, ih]
    simp only [keys, inj.eq_iff]
    split <;> rfl

theorem upsertMap (keys : ∀ x, key' (f x) = g (key x)) (inj : Function.Injective g) :
    upsert key' (f x) (xs.map f) = (upsert key x xs).map f := by
  induction xs with
  | nil => rfl
  | cons y ys ih =>
    simp only [List.map_cons, upsert, keys, inj.eq_iff, ih]
    split <;> rfl

omit [DecidableEq κ] in
theorem orderedInsertMap (order : ∀ x y, before' (f x) (f y) ↔ before x y) :
    (xs.map f).orderedInsert before' (f x) = (xs.orderedInsert before x).map f := by
  induction xs with
  | nil => rfl
  | cons y ys ih =>
    simp only [List.map_cons, List.orderedInsert_cons, order, ih]
    split <;> rfl

theorem insertSortedMap (keys : ∀ x, key' (f x) = g (key x)) (inj : Function.Injective g)
    (order : ∀ x y, before' (f x) (f y) ↔ before x y) :
    insertSorted key' before' (f x) (xs.map f) = (insertSorted key before x xs).map f := by
  unfold insertSorted
  rw [keys, lookupMap keys inj, Option.isSome_map, upsertMap keys inj, orderedInsertMap order]
  split <;> rfl

end Map
end FlannelNg.Keyed
