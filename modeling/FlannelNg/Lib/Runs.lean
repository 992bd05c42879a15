import Mathlib.Data.List.Basic

/-! Runs of a deterministic machine over a list of actions, each of which carries
everything the environment chose for that step. -/
namespace FlannelNg.Runs

variable {σ α : Type} (step : σ → α → σ)

def run (s : σ) (actions : List α) : σ := actions.foldl step s

/-- Every step of the run meets `P`, which sees the state before the step. -/
def Along (P : σ → α → Prop) : σ → List α → Prop
  | _, [] => True
  | s, a :: rest => P s a ∧ Along P (step s a) rest

def decideAlong (P : σ → α → Prop) [∀ s a, Decidable (P s a)] :
    (s : σ) → (actions : List α) → Decidable (Along step P s actions)
  | _, [] => .isTrue trivial
  | s, a :: rest => @instDecidableAnd _ _ _ (decideAlong P (step s a) rest)

instance (P : σ → α → Prop) [∀ s a, Decidable (P s a)] (s : σ) (actions : List α) :
    Decidable (Along step P s actions) := decideAlong step P s actions

variable {step} {P Q : σ → α → Prop} {Inv : σ → Prop} {s : σ} {actions pre post : List α} {a : α}

@[simp] theorem runNil : run step s [] = s := rfl

@[simp] theorem runCons : run step s (a :: actions) = run step (step s a) actions := rfl

theorem runAppend : run step s (pre ++ post) = run step (run step s pre) post := List.foldl_append

theorem alongAppend : Along step P s (pre ++ post) ↔ Along step P s pre ∧ Along step P (run step s pre) post := by
  induction pre generalizing s with
  | nil => simp [Along]
  | cons b rest ih => simp only [List.cons_append, Along, ih, runCons, and_assoc]

theorem alongSnoc : Along step P s (pre ++ [a]) ↔ Along step P s pre ∧ P (run step s pre) a := by
  simp [alongAppend, Along]

theorem alongIff : Along step P s actions ↔
    ∀ pre a post, actions = pre ++ a :: post → P (run step s pre) a := by
  induction actions generalizing s with
  | nil => simp [Along]
  | cons b later ih =>
    simp only [Along, ih]
    constructor
    · rintro ⟨head, tail⟩ pre a post same
      cases pre with
      | nil =>
        obtain ⟨rfl, rfl⟩ := List.cons.inj same
        exact head
      | cons c pre =>
        obtain ⟨rfl, rest⟩ := List.cons.inj same
        exact tail pre a post rest
    · intro all
      exact ⟨all [] b later rfl, fun pre a post same => all (b :: pre) a post (by simp [same])⟩

theorem alongOfMem {R : α → Prop} (all : ∀ a ∈ actions, R a) : Along step (fun _ a => R a) s actions :=
  alongIff.mpr (fun pre a post same => all a (by simp [same]))

theorem alongMono (h : ∀ s a, P s a → Q s a) (all : Along step P s actions) : Along step Q s actions := by
  induction actions generalizing s with
  | nil => trivial
  | cons b rest ih => exact ⟨h _ _ all.1, ih all.2⟩

theorem runInvariant (preserved : ∀ s a, Inv s → P s a → Inv (step s a)) (start : Inv s)
    (permitted : Along step P s actions) : Inv (run step s actions) := by
  induction actions generalizing s with
  | nil => exact start
  | cons b rest ih => exact ih (preserved s b start permitted.1) permitted.2

theorem alongInvariant (preserved : ∀ s a, Inv s → P s a → Inv (step s a))
    (gives : ∀ s a, Inv s → P s a → Q s a) (start : Inv s)
    (permitted : Along step P s actions) : Along step Q s actions := by
  induction actions generalizing s with
  | nil => trivial
  | cons b rest ih =>
    exact ⟨gives s b start permitted.1, ih (preserved s b start permitted.1) permitted.2⟩

/-- Two conditions on the steps agree along a run while the invariant holds, and either keeps it. -/
theorem alongCongr (Inv : σ → Prop) (same : ∀ s a, Inv s → (P s a ↔ Q s a)) (preserved : ∀ s a, Inv s → P s a → Inv (step s a))
    (start : Inv s) : Along step P s actions ↔ Along step Q s actions := by
  induction actions generalizing s with
  | nil => exact Iff.rfl
  | cons b rest ih =>
    constructor
    · rintro ⟨here, later⟩
      exact ⟨(same s b start).mp here, (ih (preserved s b start here)).mp later⟩
    · rintro ⟨here, later⟩
      have met := (same s b start).mpr here
      exact ⟨met, (ih (preserved s b start met)).mpr later⟩

/- Actions that carry more than the machine looks at. -/
theorem runMap {β : Type} {f : β → α} {actions : List β} :
    run (fun s b => step s (f b)) s actions = run step s (actions.map f) := List.foldl_map.symm

theorem alongMap {β : Type} {f : β → α} {actions : List β} :
    Along (fun s b => step s (f b)) (fun s b => P s (f b)) s actions ↔ Along step P s (actions.map f) := by
  induction actions generalizing s with
  | nil => exact Iff.rfl
  | cons b rest ih => exact and_congr Iff.rfl ih

/-- Two runs side by side, the second without the actions that are not kept. -/
theorem runFiltered {R : σ → σ → Prop} {keep : α → Bool} {A : α → Prop} {t : σ}
    (kept : ∀ s t a, R s t → A a → keep a = true → R (step s a) (step t a))
    (dropped : ∀ s t a, R s t → A a → keep a = false → R (step s a) t) (start : R s t)
    (all : ∀ a ∈ actions, A a) : R (run step s actions) (run step t (actions.filter keep)) := by
  induction actions generalizing s t with
  | nil => exact start
  | cons b rest ih =>
    have here := all b List.mem_cons_self
    have later := fun a mem => all a (List.mem_cons_of_mem b mem)
    cases keeps : keep b with
    | true =>
      rw [List.filter_cons_of_pos keeps]
      exact ih (kept s t b start here keeps) later
    | false =>
      rw [List.filter_cons_of_neg (by simp [keeps])]
      exact ih (dropped s t b start here keeps) later

end FlannelNg.Runs
