import ShaderWeave.Uniform
import Std.Data.ExtTreeMap

/-!
# Scopes

A scope holds what the declarations of a program have introduced so far: the uniforms and the struct types, each under
its name. A uniform that is declared again replaces the one before, while the first definition of a struct type is
kept.

A nested file starts from the scope of the file that opens it, and `merge` takes the scope it hands back in. The leaves
of the uniforms are listed by `leaves`, and `collisions` names those that share a name with another.
-/

namespace ShaderWeave

/-- The fields of the struct types, under the names of the types. -/
abbrev Structs := Std.ExtTreeMap String (List Variable) compare

/-- What has been declared. -/
structure Scope where
  /-- The uniforms. -/
  uniforms : Std.ExtTreeMap String Variable compare
  /-- The struct types. -/
  structs : Structs

namespace Scope

/-- The scope before any declaration. -/
def empty : Scope :=
  ⟨∅, ∅⟩

/-- Adds a uniform under its name. -/
def declare (t : Scope) (v : Variable) : Scope :=
  { t with uniforms := t.uniforms.insert v.name v }

/-- Adds a struct type unless there is one of this name. -/
def define (t : Scope) (name : String) (fields : List Variable) : Scope :=
  { t with structs := t.structs.insertIfNew name fields }

/-- Takes in the scope of a nested file. Its uniforms replace those of the same name, its struct types do not. -/
def merge (t nested : Scope) : Scope :=
  ⟨t.uniforms ∪ nested.uniforms, nested.structs ∪ t.structs⟩

/-- The leaves of all uniforms with the key of the uniform, in the order of the keys. -/
def keyedLeaves (t : Scope) : List (String × Uniform) :=
  t.uniforms.toList.flatMap fun entry => (entry.2.leaves "").map fun leaf => (entry.1, leaf)

/-- The leaves of all uniforms. -/
def leaves (t : Scope) : List Uniform :=
  t.keyedLeaves.map Prod.snd

/-- The names of the leaves that repeat a leaf before them or that are the key of another uniform, where `seen` holds
the names of the leaves before. -/
def collisionsFrom (t : Scope) (seen : List String) : List (String × Uniform) → List String
  | [] => []
  | (key, leaf) :: rest =>
    let later := t.collisionsFrom (leaf.name :: seen) rest
    if (leaf.name ≠ key ∧ leaf.name ∈ t.uniforms) ∨ leaf.name ∈ seen then leaf.name :: later else later

/-- The names of the leaves that collide with another. -/
def collisions (t : Scope) : List String :=
  t.collisionsFrom [] t.keyedLeaves

end Scope

end ShaderWeave
