import Mathlib.Data.List.DropRight

/-! Texts of lines `KEY=value`, written line by line and read as `str::lines`, `str::trim`
and `str::split_once` do. A text of clean entries is read as the entries it was made of. -/
namespace FlannelNg.EnvText

abbrev Text := List Char

/- `str::lines`: a carriage return in front of a newline is not of the line. -/
def lines : Text → List Text
  | [] => []
  | c :: rest =>
    if c = '\n' then [] :: lines rest
    else if c = '\r' ∧ rest.head? = some '\n' then lines rest
    else match lines rest with
      | [] => [[c]]
      | line :: later => (c :: line) :: later

/- `char::is_whitespace` -/
def isWhitespace (c : Char) : Bool :=
  let n := c.toNat
  9 ≤ n && n ≤ 13 || n = 0x20 || n = 0x85 || n = 0xA0 || n = 0x1680 || 0x2000 ≤ n && n ≤ 0x200A || n = 0x2028 ||
    n = 0x2029 || n = 0x202F || n = 0x205F || n = 0x3000

def trim (text : Text) : Text := (text.dropWhile isWhitespace).rdropWhile isWhitespace

def splitOnce (sep : Char) : Text → Option (Text × Text)
  | [] => none
  | c :: rest => if c = sep then some ([], rest) else (splitOnce sep rest).map (fun parts => (c :: parts.1, parts.2))

/- The entries of a text; lines without `=` are passed over. -/
def entries (text : Text) : List (Text × Text) :=
  ((lines text).filter (fun it => !it.isEmpty)).filterMap (fun it => splitOnce '=' (trim it))

abbrev Env := Text → Option Text

def Env.insert (env : Env) (entry : Text × Text) : Env := Function.update env entry.1 (some entry.2)

/- A map with the entries, of which the last one of a key counts. -/
def collect (entries : List (Text × Text)) : Env := entries.foldl Env.insert (fun _ => none)

def line (entry : Text × Text) : Text := entry.1 ++ '=' :: entry.2

/- What `writeln!` makes of the entries. -/
def render (entries : List (Text × Text)) : Text := entries.flatMap (fun entry => line entry ++ ['\n'])

/-- The key ends at the first `=`, and the line is as it was written. -/
structure Clean (entry : Text × Text) : Prop where
  key : '=' ∉ entry.1
  line : ∀ c ∈ line entry, isWhitespace c = false

variable {text rest key value : Text} {entry : Text × Text} {all : List (Text × Text)}

theorem plainOf (none_ : text.any isWhitespace = false) : ∀ c ∈ text, isWhitespace c = false := by
  simpa using List.any_eq_false.mp none_

theorem linesAppend (plain : ∀ c ∈ text, isWhitespace c = false) : lines (text ++ '\n' :: rest) = text :: lines rest := by
  induction text with
  | nil => exact if_pos rfl
  | cons c text ih =>
    rw [List.forall_mem_cons] at plain
    have newline : c ≠ '\n' := by
      rintro rfl
      exact absurd plain.1 (by decide)
    have ret : c ≠ '\r' := by
      rintro rfl
      exact absurd plain.1 (by decide)
    rw [List.cons_append, lines, if_neg newline, if_neg (fun both => ret both.1), ih plain.2]

theorem trimPlain (plain : ∀ c ∈ text, isWhitespace c = false) : trim text = text := by
  have front : text.dropWhile isWhitespace = text := by
    cases text with
    | nil => rfl
    | cons c rest => exact List.dropWhile_cons_of_neg (by simp [plain c List.mem_cons_self])
  rw [trim, front, List.rdropWhile_eq_self_iff]
  intro nonempty
  simp [plain _ (List.getLast_mem nonempty)]

theorem splitOnceLine (key : '=' ∉ entry.1) : splitOnce '=' (line entry) = some entry := by
  obtain ⟨key_, value⟩ := entry
  dsimp only at key
  induction key_ with
  | nil => exact if_pos rfl
  | cons c rest ih =>
    simp only [List.mem_cons, not_or] at key
    rw [line, List.cons_append, splitOnce, if_neg (fun same => key.1 same.symm)]
    have later : splitOnce '=' (rest ++ '=' :: value) = some (rest, value) := ih key.2
    rw [later]
    rfl

theorem entriesRender (clean : ∀ entry ∈ all, Clean entry) : entries (render all) = all := by
  induction all with
  | nil => rfl
  | cons entry rest ih =>
    obtain ⟨here, later⟩ := List.forall_mem_cons.mp clean
    have nonempty : (line entry).isEmpty = false := by simp [line]
    have read : entries (line entry ++ '\n' :: render rest) = entry :: entries (render rest) := by
      simp only [entries, linesAppend here.line]
      rw [List.filter_cons_of_pos (by simp [nonempty]), List.filterMap_cons, trimPlain here.line, splitOnceLine here.key]
    have whole : render (entry :: rest) = line entry ++ '\n' :: render rest := by
      simp [render]
    rw [whole, read, ih later]

theorem insertAll {env : Env} (distinct : (all.map Prod.fst).Nodup) :
    all.foldl Env.insert env = fun key => (all.lookup key).or (env key) := by
  induction all generalizing env with
  | nil => rfl
  | cons entry rest ih =>
    rw [List.map_cons, List.nodup_cons] at distinct
    rw [List.foldl_cons, ih distinct.2]
    funext key
    rw [List.lookup_cons, Env.insert]
    by_cases same : key = entry.1
    · subst same
      have absent : rest.lookup entry.1 = none := by
        rw [List.lookup_eq_none_iff]
        intro other mem
        rw [bne_iff_ne]
        intro same
        exact distinct.1 (same ▸ List.mem_map_of_mem mem)
      simp [absent]
    · rw [Function.update_of_ne same, beq_false_of_ne same]

theorem lookupKeys : all.lookup key ≠ none ↔ key ∈ all.map Prod.fst := by
  rw [ne_eq, List.lookup_eq_none_iff, List.mem_map]
  push Not
  simp only [bne_iff_ne, ne_eq, not_not]
  exact ⟨fun ⟨entry, mem, same⟩ => ⟨entry, mem, same.symm⟩, fun ⟨entry, mem, same⟩ => ⟨entry, mem, same.symm⟩⟩

theorem collectLookup (distinct : (all.map Prod.fst).Nodup) : collect all = fun key => all.lookup key := by
  rw [collect, insertAll distinct]
  simp

end FlannelNg.EnvText
