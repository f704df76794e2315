import ShaderWeave.Values

/-!
# Variables and the uniforms they consist of

A declaration of a struct type declares a tree: its leaves are scalars and vectors, its inner nodes the structs.
The program that is linked sees the leaves only, each under a dotted name such as `light.color`.
`Variable.leaves` lists them from left to right.
-/

namespace ShaderWeave

/-- A declared variable: a uniform, or a field of a struct. -/
inductive Variable where
  /-- A scalar or a vector. -/
  | value (name : String) (values : Values)
  /-- A struct with its fields, in order. -/
  | group (name : String) (fields : List Variable)

/-- A leaf: a scalar or a vector that is set from outside, under its full name. -/
structure Uniform where
  /-- The names from the root to the leaf, with dots between. -/
  name : String
  /-- Its values. -/
  values : Values
  deriving DecidableEq

namespace Variable

/-- The name a variable is declared under. -/
def name : Variable → String
  | .value name _ => name
  | .group name _ => name

/-- The full name of a variable below a path. Below the empty path it is the name itself. -/
def fullName (path name : String) : String :=
  if path = "" then name else path ++ "." ++ name

mutual

/-- The leaves of a variable below a path, from left to right. -/
def leaves (path : String) : Variable → List Uniform
  | .value name values => [⟨fullName path name, values⟩]
  | .group name fields => leavesOfAll (fullName path name) fields

/-- The leaves of several variables below one path. -/
def leavesOfAll (path : String) : List Variable → List Uniform
  | [] => []
  | field :: fields => leaves path field ++ leavesOfAll path fields

end

theorem leavesOfAll_eq_flatMap (path : String) (fields : List Variable) :
    leavesOfAll path fields = fields.flatMap (leaves path) := by
  induction fields with
  | nil => rfl
  | cons field fields ih => rw [leavesOfAll, ih, List.flatMap_cons]

mutual

/-- Two variables are equal if they have one name and equal values or fields. -/
def decEq : (a b : Variable) → Decidable (a = b)
  | .value m v, .value n w => decidable_of_iff (m = n ∧ v = w) (by simp)
  | .group m f, .group n g =>
    match decEqAll f g with
    | .isTrue h => decidable_of_iff (m = n) (by simp [h])
    | .isFalse h => .isFalse (by simp [h])
  | .value .., .group .. => .isFalse (by simp)
  | .group .., .value .. => .isFalse (by simp)

/-- Two lists of variables are equal if they have one length and equal members. -/
def decEqAll : (f g : List Variable) → Decidable (f = g)
  | [], [] => .isTrue rfl
  | [], _ :: _ => .isFalse (by simp)
  | _ :: _, [] => .isFalse (by simp)
  | a :: f, b :: g =>
    match decEq a b, decEqAll f g with
    | .isTrue h, .isTrue k => .isTrue (by rw [h, k])
    | .isFalse h, _ => .isFalse (by simp [h])
    | _, .isFalse k => .isFalse (by simp [k])

end

instance : DecidableEq Variable := decEq

end Variable

end ShaderWeave
