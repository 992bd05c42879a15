import Mathlib.Logic.Function.Basic
import Mathlib.Data.List.Induction
import FlannelNg.Lib.Keyed

/-! Maps kept up to date by a stream of changes, each of which puts a value under a
key or deletes the key. -/
namespace FlannelNg.Replay

variable {κ ν : Type} [DecidableEq κ]

inductive Change (κ ν : Type) where
  | put (key : κ) (value : ν)
  | delete (key : κ)
  deriving DecidableEq, Repr

def Change.key : Change κ ν → κ
  | .put k _ => k
  | .delete k => k

def Change.value : Change κ ν → Option ν
  | .put _ v => some v
  | .delete _ => none

def apply (m : κ → Option ν) (c : Change κ ν) : κ → Option ν := Function.update m c.key c.value

def replay (m : κ → Option ν) (cs : List (Change κ ν)) : κ → Option ν := cs.foldl apply m

/- The last change of a key. -/
def latest (k : κ) (cs : List (Change κ ν)) : Option (Change κ ν) := cs.reverse.find? (fun c => c.key = k)

variable {m m' : κ → Option ν} {k : κ} {c : Change κ ν} {cs ds : List (Change κ ν)}

theorem applyAt : apply m c k = if k = c.key then c.value else m k := by
  simp only [apply, Function.update_apply]

@[simp] theorem replayNil : replay m [] = m := rfl

@[simp] theorem replayCons : replay m (c :: cs) = replay (apply m c) cs := rfl

theorem replayAppend : replay m (cs ++ ds) = replay (replay m cs) ds := List.foldl_append

theorem replaySnoc : replay m (cs ++ [c]) = apply (replay m cs) c := replayAppend

theorem latestSnoc : latest k (cs ++ [c]) = if c.key = k then some c else latest k cs := by
  by_cases h : c.key = k <;> simp [latest, h]

theorem latestAppend : latest k (cs ++ ds) = (latest k ds).or (latest k cs) := by
  simp [latest]

theorem latestKey (found : latest k cs = some c) : c.key = k ∧ c ∈ cs :=
  ⟨by simpa using List.find?_some found, by simpa using List.mem_of_find?_eq_some found⟩

theorem latestNone : latest k cs = none ↔ ∀ c ∈ cs, c.key ≠ k := by
  simp [latest]

theorem replayAt : replay m cs k = match latest k cs with
    | some c => c.value
    | none => m k := by
  induction cs using List.reverseRecOn with
  | nil => rfl
  | append_singleton cs c ih =>
    rw [replaySnoc, applyAt, latestSnoc, ih]
    by_cases h : k = c.key
    · simp [h]
    · simp [h, Ne.symm h]

theorem replayCongrAt (same : m k = m' k) : replay m cs k = replay m' cs k := by
  rw [replayAt, replayAt, same]

theorem replayUntouched (untouched : ∀ c ∈ cs, c.key ≠ k) : replay m cs k = m k := by
  rw [replayAt, latestNone.mpr untouched]

theorem replayInForce {v : ν} (key : c.key = k) (value : c.value = some v)
    (again : ∀ d ∈ ds, d.key = k → d.value = some v) : replay m (cs ++ c :: ds) k = some v := by
  rw [replayAppend, replayCons, replayAt]
  cases last : latest k ds with
  | none => rw [applyAt, if_pos key.symm, value]
  | some d => exact again d (latestKey last).2 (latestKey last).1

theorem replayAgain : replay (replay m cs) (cs ++ ds) = replay (replay m cs) ds := by
  funext k
  have again := @replayAt _ _ _ (replay m cs) k (cs ++ ds)
  have once := @replayAt _ _ _ (replay m cs) k ds
  rw [latestAppend] at again
  rw [again, once]
  cases latest k ds with
  | some d => rfl
  | none =>
    rw [Option.none_or, replayAt]
    cases latest k cs <;> rfl

theorem replayOverlap {as bs : List (Change κ ν)} : replay (replay m (as ++ bs)) (bs ++ cs) = replay m (as ++ (bs ++ cs)) := by
  calc replay (replay m (as ++ bs)) (bs ++ cs) = replay (replay (replay m as) bs) (bs ++ cs) :=
        congrArg (fun v => replay v (bs ++ cs)) replayAppend
    _ = replay (replay (replay m as) bs) cs := replayAgain
    _ = replay m (as ++ (bs ++ cs)) := by rw [replayAppend, replayAppend]

theorem replaySuffix (empty : m k = none) : replay m ds k = replay m (cs ++ ds) k ↔
    ∀ v, latest k (cs ++ ds) = some (.put k v) → latest k ds ≠ none := by
  have later := @replayAt _ _ _ m k ds
  have all := @replayAt _ _ _ m k (cs ++ ds)
  rw [latestAppend] at all ⊢
  rw [later, all]
  cases latest k ds with
  | some d => simp
  | none =>
    rw [Option.none_or]
    cases earlier : latest k cs with
    | none => simp
    | some c =>
      cases c with
      | delete j => simp [Change.value, empty]
      | put j v =>
        have same : j = k := (latestKey earlier).1
        simp [Change.value, empty, same]

section Keyed
open Keyed
variable {α : Type} {key : α → κ} {value : α → ν} {xs : List α}

theorem replayPuts (distinct : Distinct key xs) :
    replay m (xs.map (fun x => .put (key x) (value x))) k = ((lookup key k xs).map value).or (m k) := by
  induction xs generalizing m with
  | nil => simp
  | cons x xs ih =>
    obtain ⟨fresh, distinct⟩ := List.nodup_cons.mp (by simpa [Distinct] using distinct :
      (key x :: xs.map key).Nodup)
    rw [List.map_cons, replayCons, ih distinct, lookupCons, applyAt]
    by_cases here : key x = k
    · subst here
      have absent : lookup key (key x) xs = none := by
        rw [lookupNone]
        exact fun y hy same => fresh (by rw [← same]; exact List.mem_map_of_mem hy)
      simp [absent, Change.key, Change.value]
    · simp [here, Ne.symm here, Change.key]

theorem replayDeletes :
    replay m (xs.map (fun x => .delete (key x))) k = if (lookup key k xs).isSome then none else m k := by
  induction xs generalizing m with
  | nil => simp
  | cons x xs ih =>
    rw [List.map_cons, replayCons, ih, lookupCons, applyAt]
    by_cases here : key x = k
    · simp [here, Change.key, Change.value]
    · simp [here, Change.key, Ne.symm here]

end Keyed
end FlannelNg.Replay
