import Mathlib.Data.List.Basic

/-! Regular expressions whose repetitions are over classes of characters, as far as the
patterns of programs with the leftmost-first rule need them: of the matches the one that
starts first counts, and of those the one that the order of the choices prefers. -/
namespace FlannelNg.Regex

inductive Pattern (α : Type) where
  | one (c : α → Bool)
  | plus (c : α → Bool)
  | seq (p q : Pattern α)
  | optional (p : Pattern α)
  | group (n : Nat) (p : Pattern α)
  | atEnd

abbrev Captures (α : Type) := List (Nat × List α)

/- What is matched, what is behind it, and what the groups have. -/
abbrev Match (α : Type) := List α × List α × Captures α

namespace Pattern
variable {α : Type}

/- One or more of a class, the longest first. -/
def repeats (c : α → Bool) : List α → List (List α × List α)
  | [] => []
  | x :: xs => if c x then (repeats c xs).map (fun w => (x :: w.1, w.2)) ++ [([x], xs)] else []

/- The matches at the start of a text, in the order of preference. -/
def ways : Pattern α → List α → List (Match α)
  | one c, text => match text with
    | x :: rest => if c x then [([x], rest, [])] else []
    | [] => []
  | plus c, text => (repeats c text).map (fun w => (w.1, w.2, []))
  | seq p q, text => (ways p text).flatMap (fun m =>
      (ways q m.2.1).map (fun m' => (m.1 ++ m'.1, m'.2.1, m.2.2 ++ m'.2.2)))
  | optional p, text => ways p text ++ [([], text, [])]
  | group n p, text => (ways p text).map (fun m => (m.1, m.2.1, (n, m.1) :: m.2.2))
  | atEnd, text => if text.isEmpty then [([], [], [])] else []

/- The preferred match at the first place of a text that has one. -/
def search (p : Pattern α) : List α → Option (Match α)
  | [] => (p.ways []).head?
  | x :: rest => (p.ways (x :: rest)).head? <|> search p rest

/- The text `w` in front of `rest` matches, and the groups have `caps`. -/
def Derives : Pattern α → (w rest : List α) → Captures α → Prop
  | one c, w, _, caps => ∃ x, c x = true ∧ w = [x] ∧ caps = []
  | plus c, w, _, caps => w ≠ [] ∧ (∀ x ∈ w, c x = true) ∧ caps = []
  | seq p q, w, rest, caps => ∃ u v cu cv, w = u ++ v ∧ caps = cu ++ cv ∧ Derives p u (v ++ rest) cu ∧ Derives q v rest cv
  | optional p, w, rest, caps => Derives p w rest caps ∨ w = [] ∧ caps = []
  | group n p, w, rest, caps => ∃ inner, caps = (n, w) :: inner ∧ Derives p w rest inner
  | atEnd, w, rest, caps => w = [] ∧ rest = [] ∧ caps = []

variable {p : Pattern α} {c : α → Bool} {text w rest pre post : List α} {caps : Captures α} {m : Match α}

theorem derivesOneSeq {q : Pattern α} : (seq (one c) q).Derives w rest caps ↔
    ∃ x v, c x = true ∧ w = x :: v ∧ q.Derives v rest caps := by
  constructor
  · rintro ⟨_, v, _, _, rfl, rfl, ⟨x, classed, rfl, rfl⟩, later⟩
    exact ⟨x, v, classed, rfl, later⟩
  · rintro ⟨x, v, classed, rfl, later⟩
    exact ⟨[x], v, [], caps, rfl, rfl, ⟨x, classed, rfl, rfl⟩, later⟩

theorem derivesPlusSeq {q : Pattern α} : (seq (plus c) q).Derives w rest caps ↔
    ∃ u v, u ≠ [] ∧ (∀ x ∈ u, c x = true) ∧ w = u ++ v ∧ q.Derives v rest caps := by
  constructor
  · rintro ⟨u, v, _, _, rfl, rfl, ⟨nonempty, all, rfl⟩, later⟩
    exact ⟨u, v, nonempty, all, rfl, later⟩
  · rintro ⟨u, v, nonempty, all, rfl, later⟩
    exact ⟨u, v, [], caps, rfl, rfl, ⟨nonempty, all, rfl⟩, later⟩

theorem derivesGroupSeq {n : Nat} {q : Pattern α} : (seq (group n p) q).Derives w rest caps ↔
    ∃ u v inner later, w = u ++ v ∧ caps = (n, u) :: (inner ++ later) ∧ p.Derives u (v ++ rest) inner ∧
      q.Derives v rest later := by
  constructor
  · rintro ⟨u, v, _, later, rfl, rfl, ⟨inner, rfl, here⟩, there⟩
    exact ⟨u, v, inner, later, rfl, rfl, here, there⟩
  · rintro ⟨u, v, inner, later, rfl, rfl, here, there⟩
    exact ⟨u, v, (n, u) :: inner, later, rfl, rfl, ⟨inner, rfl, here⟩, there⟩

theorem derivesOptionalEnd : (seq (optional p) atEnd).Derives w rest caps ↔
    rest = [] ∧ (p.Derives w [] caps ∨ w = [] ∧ caps = []) := by
  constructor
  · rintro ⟨u, _, cu, _, rfl, rfl, here, rfl, rfl, rfl⟩
    rw [List.append_nil, List.append_nil]
    exact ⟨rfl, here⟩
  · rintro ⟨rfl, here⟩
    exact ⟨w, [], caps, [], (List.append_nil w).symm, (List.append_nil caps).symm, here, rfl, rfl, rfl⟩

theorem memRepeats : (w, rest) ∈ repeats c text ↔ text = w ++ rest ∧ w ≠ [] ∧ ∀ x ∈ w, c x = true := by
  induction text generalizing w with
  | nil =>
    simp only [repeats, List.not_mem_nil, false_iff, not_and]
    intro same nonempty
    exact absurd (List.append_eq_nil_iff.mp same.symm).1 nonempty
  | cons x xs ih =>
    unfold repeats
    split
    · rename_i classed
      simp only [List.mem_append, List.mem_map, List.mem_singleton, Prod.mk.injEq]
      constructor
      · rintro (⟨⟨u, r⟩, member, rfl, rfl⟩ | ⟨rfl, rfl⟩)
        · obtain ⟨rfl, _, all⟩ := ih.mp member
          exact ⟨rfl, by simp, by simpa [classed] using all⟩
        · exact ⟨rfl, by simp, by simpa using classed⟩
      · rintro ⟨same, nonempty, all⟩
        cases w with
        | nil => exact absurd rfl nonempty
        | cons y u =>
          obtain ⟨rfl, rfl⟩ := List.cons.inj same
          cases u with
          | nil => exact .inr ⟨rfl, rfl⟩
          | cons z v =>
            exact .inl ⟨(z :: v, rest), ih.mpr ⟨rfl, by simp, fun a mem => all a (List.mem_cons_of_mem _ mem)⟩, rfl, rfl⟩
    · rename_i other
      simp only [List.not_mem_nil, false_iff, not_and]
      intro same nonempty all
      cases w with
      | nil => exact nonempty rfl
      | cons y u =>
        obtain ⟨rfl, _⟩ := List.cons.inj same
        exact other (all x List.mem_cons_self)

theorem memWaysOne : (w, rest, caps) ∈ (one c).ways text ↔ text = w ++ rest ∧ (one c).Derives w rest caps := by
  cases text with
  | nil =>
    simp only [ways, Derives, List.not_mem_nil, false_iff, not_and]
    rintro same ⟨x, _, rfl, _⟩
    simp at same
  | cons x xs =>
    simp only [ways, Derives]
    split
    · rename_i classed
      simp only [List.mem_singleton, Prod.mk.injEq]
      constructor
      · rintro ⟨rfl, rfl, rfl⟩
        exact ⟨rfl, x, classed, rfl, rfl⟩
      · rintro ⟨same, y, _, rfl, rfl⟩
        obtain ⟨rfl, rfl⟩ := List.cons.inj same
        exact ⟨rfl, rfl, rfl⟩
    · rename_i other
      simp only [List.not_mem_nil, false_iff, not_and]
      rintro same ⟨y, classed, rfl, rfl⟩
      obtain ⟨rfl, _⟩ := List.cons.inj same
      exact other classed

theorem memWaysPlus : (w, rest, caps) ∈ (plus c).ways text ↔ text = w ++ rest ∧ (plus c).Derives w rest caps := by
  simp only [ways, Derives, List.mem_map, Prod.mk.injEq]
  constructor
  · rintro ⟨⟨u, r⟩, member, rfl, rfl, rfl⟩
    obtain ⟨same, nonempty, all⟩ := memRepeats.mp member
    exact ⟨same, nonempty, all, rfl⟩
  · rintro ⟨same, nonempty, all, rfl⟩
    exact ⟨(w, rest), memRepeats.mpr ⟨same, nonempty, all⟩, rfl, rfl, rfl⟩

theorem memWaysEnd : (w, rest, caps) ∈ atEnd.ways text ↔ text = w ++ rest ∧ atEnd.Derives w rest caps := by
  simp only [ways, Derives]
  cases text with
  | nil =>
    simp only [List.isEmpty_nil, if_true, List.mem_singleton, Prod.mk.injEq]
    exact ⟨fun same => ⟨by simp [same], same⟩, fun same => same.2⟩
  | cons x xs =>
    simp only [List.isEmpty_cons, Bool.false_eq_true, if_false, List.not_mem_nil, false_iff, not_and]
    rintro same rfl rfl
    simp at same

/- The ways are the derivations at the start of the text. -/
theorem memWays : (w, rest, caps) ∈ p.ways text ↔ text = w ++ rest ∧ p.Derives w rest caps := by
  induction p generalizing text w rest caps with
  | one c => exact memWaysOne
  | plus c => exact memWaysPlus
  | seq p q ihp ihq =>
    simp only [ways, Derives, List.mem_flatMap, List.mem_map, Prod.mk.injEq]
    constructor
    · rintro ⟨⟨u, r, cu⟩, first, ⟨v, r', cv⟩, second, rfl, rfl, rfl⟩
      obtain ⟨rfl, left⟩ := ihp.mp first
      obtain ⟨rfl, right⟩ := ihq.mp second
      exact ⟨(List.append_assoc ..).symm, u, v, cu, cv, rfl, rfl, left, right⟩
    · rintro ⟨rfl, u, v, cu, cv, rfl, rfl, left, right⟩
      exact ⟨(u, v ++ rest, cu), ihp.mpr ⟨List.append_assoc .., left⟩, (v, rest, cv), ihq.mpr ⟨rfl, right⟩, rfl, rfl, rfl⟩
  | optional p ih =>
    simp only [ways, Derives, List.mem_append, List.mem_singleton, Prod.mk.injEq, ih]
    constructor
    · rintro (⟨same, some_⟩ | ⟨rfl, rfl, rfl⟩)
      · exact ⟨same, .inl some_⟩
      · exact ⟨rfl, .inr ⟨rfl, rfl⟩⟩
    · rintro ⟨same, some_ | ⟨rfl, rfl⟩⟩
      · exact .inl ⟨same, some_⟩
      · exact .inr ⟨rfl, same.symm, rfl⟩
  | group n p ih =>
    simp only [ways, Derives, List.mem_map, Prod.mk.injEq]
    constructor
    · rintro ⟨⟨u, r, cu⟩, member, rfl, rfl, rfl⟩
      obtain ⟨same, inner⟩ := ih.mp member
      exact ⟨same, cu, rfl, inner⟩
    · rintro ⟨same, inner, rfl, derived⟩
      exact ⟨(w, rest, inner), ih.mpr ⟨same, derived⟩, rfl, rfl, rfl⟩
  | atEnd => exact memWaysEnd

/- A match stands at the start of the text. -/
def Starts (p : Pattern α) (text : List α) : Prop := ∃ w rest caps, text = w ++ rest ∧ p.Derives w rest caps

theorem startsIff : p.Starts text ↔ p.ways text ≠ [] := by
  constructor
  · rintro ⟨w, rest, caps, derives⟩ none_
    have member := memWays.mpr derives
    rw [none_] at member
    exact List.not_mem_nil member
  · intro some_
    obtain ⟨⟨w, rest, caps⟩, member⟩ := List.exists_mem_of_ne_nil _ some_
    exact ⟨w, rest, caps, memWays.mp member⟩

/- No match starts before `pre` ends. -/
def NoneBefore (p : Pattern α) (pre post : List α) : Prop :=
  ∀ early late, pre ++ post = early ++ late → early.length < pre.length → ¬p.Starts late

theorem noneBeforeCons {x : α} (none_ : p.NoneBefore (x :: pre) post) : p.NoneBefore pre post := by
  intro early late same shorter
  exact none_ (x :: early) late (by rw [List.cons_append, same, List.cons_append]) (by simpa using shorter)

theorem searchAt (none_ : p.NoneBefore pre post) (here : p.Starts post) : p.search (pre ++ post) = (p.ways post).head? := by
  induction pre with
  | nil =>
    cases post with
    | nil => rfl
    | cons x rest =>
      obtain ⟨m, some_⟩ := Option.isSome_iff_exists.mp (List.isSome_head?.mpr (startsIff.mp here))
      rw [List.nil_append, search, some_]
      rfl
  | cons x pre ih =>
    have nothing : p.ways (x :: (pre ++ post)) = [] := by
      by_contra some_
      exact none_ [] (x :: (pre ++ post)) rfl (by simp) (startsIff.mpr some_)
    rw [List.cons_append, search, nothing]
    exact ih (noneBeforeCons none_)

theorem searchSource (found : p.search text = some (w, rest, caps)) :
    ∃ pre, text = pre ++ (w ++ rest) ∧ p.Derives w rest caps ∧ p.NoneBefore pre (w ++ rest) := by
  have atStart : ∀ {text : List α}, (p.ways text).head? = some (w, rest, caps) →
      ∃ pre, text = pre ++ (w ++ rest) ∧ p.Derives w rest caps ∧ p.NoneBefore pre (w ++ rest) := by
    intro text first
    obtain ⟨same, derives⟩ := memWays.mp (List.mem_of_mem_head? first)
    exact ⟨[], same, derives, fun _ _ _ shorter => absurd shorter (Nat.not_lt_zero _)⟩
  induction text with
  | nil => exact atStart found
  | cons x later ih =>
    unfold search at found
    cases first : (p.ways (x :: later)).head? with
    | some m =>
      rw [first] at found
      exact atStart (first.trans found)
    | none =>
      rw [first] at found
      obtain ⟨pre, same, derives, none_⟩ := ih found
      refine ⟨x :: pre, by rw [same, List.cons_append], derives, ?_⟩
      intro early late split shorter
      cases early with
      | nil =>
        rw [List.nil_append, List.cons_append, ← same] at split
        rw [← split, startsIff, List.head?_eq_none_iff.mp first]
        exact fun some_ => some_ rfl
      | cons y early =>
        exact none_ early late (List.cons.inj split).2 (by simpa using shorter)

end Pattern
end FlannelNg.Regex
