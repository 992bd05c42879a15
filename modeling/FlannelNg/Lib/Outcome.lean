import Mathlib.Data.BitVec

/-! Outcomes of Rust functions: a value, an `anyhow` error with its text, a panic,
or a loop that has not ended within the given number of rounds. Machine arithmetic
takes the build as an argument: with overflow checks an overflow is a panic,
without them the result wraps. -/
namespace FlannelNg.Outcome

inductive Stop where
  | bail (message : String)
  | panicked
  | outOfFuel
  deriving DecidableEq, Repr

abbrev Res := Except Stop

inductive Build where
  | checked
  | wrapping
  deriving DecidableEq, Repr

def unwrap {α : Type} : Option α → Res α
  | some a => .ok a
  | none => .error .panicked

def okOr {α : Type} (message : String) : Option α → Res α
  | some a => .ok a
  | none => .error (.bail message)

/- `context` of `anyhow`: the error's text is the given one. -/
def context {α : Type} (message : String) : Res α → Res α
  | .error (.bail _) => .error (.bail message)
  | x => x

/- An error result met by `unwrap` is a panic; a loop that has not ended stays so. -/
def expect {α : Type} : Res α → Res α
  | .ok a => .ok a
  | .error .outOfFuel => .error .outOfFuel
  | .error _ => .error .panicked

/- `let _ = f();`: an error result is dropped, a panic is not. -/
def ignoreError {α : Type} : Res α → Res (Option α)
  | .ok a => .ok (some a)
  | .error (.bail _) => .ok none
  | .error stop => .error stop

theorem bindOk {ε α β : Type} {x : Except ε α} {f : α → Except ε β} {b : β} :
    (x >>= f) = .ok b ↔ ∃ a, x = .ok a ∧ f a = .ok b := by
  cases x with
  | error e => simp [bind, Except.bind]
  | ok a => simp [bind, Except.bind]

theorem mapOk {α β : Type} {x : Res α} {f : α → β} {b : β} : x.map f = .ok b ↔ ∃ a, x = .ok a ∧ f a = b := by
  cases x <;> simp [Except.map]

@[simp] theorem unwrapOk {α : Type} {o : Option α} {a : α} : unwrap o = .ok a ↔ o = some a := by
  cases o <;> simp [unwrap]

@[simp] theorem okOrOk {α : Type} {message : String} {o : Option α} {a : α} : okOr message o = .ok a ↔ o = some a := by
  cases o <;> simp [okOr]

@[simp] theorem expectOk {α : Type} {x : Res α} {a : α} : expect x = .ok a ↔ x = .ok a := by
  rcases x with (_ | _ | _) | _ <;> simp [expect]

@[simp] theorem contextOk {α : Type} {message : String} {x : Res α} {a : α} : context message x = .ok a ↔ x = .ok a := by
  rcases x with (_ | _ | _) | _ <;> simp [context]

/- A `for` loop over a range whose body may leave the function with a value. -/
def forRounds {σ β : Type} (body : Nat → σ → Option β × σ) : (left round : Nat) → σ → Option β × σ
  | 0, _, s => (none, s)
  | left + 1, round, s =>
    match body round s with
    | (some b, s) => (some b, s)
    | (none, s) => forRounds body left (round + 1) s

section Arithmetic

def overflow {α : Type} (build : Build) (wrapped : α) : Res α :=
  match build with
  | .checked => .error .panicked
  | .wrapping => .ok wrapped

/- Unsigned integers of width `w`, as natural numbers below `2 ^ w`. -/
def addNat (w : Nat) (build : Build) (x y : Nat) : Res Nat :=
  if x + y < 2 ^ w then .ok (x + y) else overflow build ((x + y) % 2 ^ w)

def subNat (w : Nat) (build : Build) (x y : Nat) : Res Nat :=
  if y ≤ x then .ok (x - y) else overflow build ((x + 2 ^ w - y) % 2 ^ w)

variable {w : Nat}

def addBits (build : Build) (x y : BitVec w) : Res (BitVec w) :=
  if x.toNat + y.toNat < 2 ^ w then .ok (x + y) else overflow build (x + y)

def subBits (build : Build) (x y : BitVec w) : Res (BitVec w) :=
  if y ≤ x then .ok (x - y) else overflow build (x - y)

/- Without overflow checks the shift amount is taken modulo the width. -/
def shlBits (build : Build) (x : BitVec w) (n : Nat) : Res (BitVec w) :=
  if n < w then .ok (x <<< n) else overflow build (x <<< (n % w))

theorem addNatOk {build x y} (fits : x + y < 2 ^ w) : addNat w build x y = .ok (x + y) :=
  if_pos fits

theorem subNatOk {build x y} (fits : y ≤ x) : subNat w build x y = .ok (x - y) := if_pos fits

/- A wrapped difference does not give back what was subtracted from. -/
theorem subNatBack {build x y d} (done : subNat w build x y = .ok d) : d + y = x ↔ y ≤ x := by
  refine ⟨fun same => same ▸ Nat.le_add_left y d, fun fits => ?_⟩
  rw [subNatOk fits] at done
  rw [← Except.ok.inj done]
  exact Nat.sub_add_cancel fits

theorem shlBitsOk {build} {x : BitVec w} {n} (fits : n < w) : shlBits build x n = .ok (x <<< n) :=
  if_pos fits

end Arithmetic
end FlannelNg.Outcome
