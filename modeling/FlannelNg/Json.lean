import Mathlib.Tactic.Basic

/-! The JSON values that configurations and lease attributes carry. Numbers that are not
integers are kept as text, of which nothing is used but that they are no integers; an object
lists its members, the first of a name counts. -/
namespace FlannelNg

inductive Json where
  | null
  | bool (b : Bool)
  | num (n : Int)
  | float (text : String)
  | str (s : String)
  | arr (items : List Json)
  | obj (members : List (String × Json))
  deriving Repr

namespace Json

mutual
def decEq : (a b : Json) → Decidable (a = b)
  | .null, .null => .isTrue rfl
  | .bool a, .bool b => decidable_of_iff (a = b) (by simp)
  | .num a, .num b => decidable_of_iff (a = b) (by simp)
  | .float a, .float b => decidable_of_iff (a = b) (by simp)
  | .str a, .str b => decidable_of_iff (a = b) (by simp)
  | .arr xs, .arr ys => @decidable_of_iff _ (xs = ys) (by simp) (decEqItems xs ys)
  | .obj xs, .obj ys => @decidable_of_iff _ (xs = ys) (by simp) (decEqMembers xs ys)
  | .null, .bool _ | .null, .num _ | .null, .float _ | .null, .str _ | .null, .arr _ | .null, .obj _
  | .bool _, .null | .bool _, .num _ | .bool _, .float _ | .bool _, .str _ | .bool _, .arr _ | .bool _, .obj _
  | .num _, .null | .num _, .bool _ | .num _, .float _ | .num _, .str _ | .num _, .arr _ | .num _, .obj _
  | .float _, .null | .float _, .bool _ | .float _, .num _ | .float _, .str _ | .float _, .arr _ | .float _, .obj _
  | .str _, .null | .str _, .bool _ | .str _, .num _ | .str _, .float _ | .str _, .arr _ | .str _, .obj _
  | .arr _, .null | .arr _, .bool _ | .arr _, .num _ | .arr _, .float _ | .arr _, .str _ | .arr _, .obj _
  | .obj _, .null | .obj _, .bool _ | .obj _, .num _ | .obj _, .float _ | .obj _, .str _ | .obj _, .arr _ =>
    .isFalse nofun
def decEqItems : (xs ys : List Json) → Decidable (xs = ys)
  | [], [] => .isTrue rfl
  | x :: xs, y :: ys =>
    @decidable_of_iff _ (x = y ∧ xs = ys) (by simp) (@instDecidableAnd _ _ (decEq x y) (decEqItems xs ys))
  | [], _ :: _ | _ :: _, [] => .isFalse nofun
def decEqMembers : (xs ys : List (String × Json)) → Decidable (xs = ys)
  | [], [] => .isTrue rfl
  | (k, x) :: xs, (l, y) :: ys =>
    @decidable_of_iff _ (k = l ∧ x = y ∧ xs = ys) (by simp [and_assoc])
      (@instDecidableAnd _ _ _ (@instDecidableAnd _ _ (decEq x y) (decEqMembers xs ys)))
  | [], _ :: _ | _ :: _, [] => .isFalse nofun
end
instance : DecidableEq Json := decEq

def asObject : Json → Option (List (String × Json))
  | .obj members => some members
  | _ => none

def get (name : String) (members : List (String × Json)) : Option Json := members.lookup name

def asStr : Json → Option String
  | .str s => some s
  | _ => none

def asU32 : Json → Option Nat
  | .num n => if 0 ≤ n ∧ n < 0x100000000 then some n.toNat else none
  | _ => none

def asU64 : Json → Option Nat
  | .num n => if 0 ≤ n ∧ n < 0x10000000000000000 then some n.toNat else none
  | _ => none

end Json
end FlannelNg
