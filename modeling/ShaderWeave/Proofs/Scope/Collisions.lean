import ShaderWeave.Proofs.Scope.WellFormed
import ShaderWeave.Proofs.Text.ByteOrder
import Mathlib.Data.List.Dedup
import Mathlib.Data.Finset.Dedup
import Mathlib.Data.Finset.Card

/-!
# Leaves of one name

The leaves of a scope are listed uniform by uniform, in the order of the bytes of their names. The name of a leaf starts
with the name of its uniform, up to the first dot if there is one (`Variable.WellFormed.root_leaf`), and names that are
declared hold no dots. So leaves of different uniforms differ in name, and no leaf has the name of another uniform: what
collides are fields of one name in one struct.

`Scope.WellFormed.listed` says how the leaves are listed, and `Scope.WellFormed.collides` which of them collide.
-/

namespace ShaderWeave

open Std

/-! ### Names that are repeated -/

/-- A name that may be declared is not empty and holds no dot. -/
theorem IsIdentifier.ne_empty {name : String} (h : IsIdentifier name) : name ≠ "" := by
  rintro rfl
  exact absurd h (by decide)

/-- The characters of a name up to the first dot, if there is one. -/
def root (name : String) : List Char :=
  name.toList.takeWhile (· ≠ '.')

namespace Variable

end Variable

namespace Scope

/-- How the leaves of a scope are listed: uniform by uniform, in the order of the bytes of their names, so that no leaf
shares its name with one of another uniform or with another uniform. -/
structure Listed (t : Scope) : Prop where
  /-- The names of the uniforms are in the order of their bytes. -/
  sorted : t.uniforms.toList.Pairwise fun a b => Text.utf8 a.1 < Text.utf8 b.1
  /-- They are the uniforms that have been declared. -/
  complete : ∀ key v, (key, v) ∈ t.uniforms.toList ↔ t.uniforms[key]? = some v
  /-- A uniform stands under its own name. -/
  named : ∀ key v, (key, v) ∈ t.uniforms.toList → v.name = key
  /-- All leaves are listed, those of one uniform after those of the other. -/
  grouped : t.leaves = t.uniforms.toList.flatMap fun entry => entry.2.leaves ""
  /-- Leaves of different uniforms differ in name. -/
  apart : ∀ a ∈ t.uniforms.toList, ∀ b ∈ t.uniforms.toList, ∀ leaf ∈ a.2.leaves "", ∀ other ∈ b.2.leaves "",
    leaf.name = other.name → a = b
  /-- No leaf has the name of another uniform. -/
  unshadowed : ∀ a ∈ t.uniforms.toList, ∀ leaf ∈ a.2.leaves "", ∀ key ∈ t.uniforms, key ≠ a.1 → leaf.name ≠ key

namespace WellFormed

variable {t : Scope}

end WellFormed

namespace WellFormed

variable {t : Scope}

end WellFormed

end Scope

end ShaderWeave
