import ShaderWeave.Proofs.Lexing.Kinds
import ShaderWeave.Proofs.Scope.Growth

/-!
# Well-formed scopes

What a scope looks like that only declarations have filled: its keys and the names of all variables are identifiers, a
scalar or a vector has one to nine components, and the fields of a variable of a struct type are those of a struct type
in the scope. The components of one variable are of one type by the definition of `Values`.

A variable is well-formed for some struct types, and stays so where these grow (`Variable.WellFormed.mono`). Since a
definition never replaces another one, variables that were declared with its fields are well-formed for good.
-/

namespace ShaderWeave

open Std

/-- The names of a variable and its fields are identifiers, its leaves have one to nine components, and its fields, at
any depth, are those of a struct type. -/
inductive Variable.WellFormed (types : Structs) : Variable → Prop
  /-- A scalar or a vector. -/
  | value {name : String} {vs : Values} (named : IsIdentifier name) (pos : 1 ≤ vs.size) (le : vs.size ≤ 9) :
    WellFormed types (.value name vs)
  /-- A variable of a struct type. -/
  | group {name type : String} {fields : List Variable} (named : IsIdentifier name)
    (defined : types[type]? = some fields) (each : ∀ field ∈ fields, WellFormed types field) :
    WellFormed types (.group name fields)

namespace Variable.WellFormed

variable {types types' : Structs} {v : Variable}

theorem named (h : v.WellFormed types) : IsIdentifier v.name := by
  cases h with
  | value named => exact named
  | group named => exact named

/-- More struct types do no harm. -/
theorem mono (h : v.WellFormed types)
    (grown : ∀ (name : String) (fields : List Variable), types[name]? = some fields → types'[name]? = some fields) :
    v.WellFormed types' := by
  induction h with
  | value named pos le => exact .value named pos le
  | group named defined _ ih => exact .group named (grown _ _ defined) ih

/-- The leaves of a well-formed variable have one to nine components. -/
theorem leaves (h : v.WellFormed types) (path : String) :
    ∀ u ∈ v.leaves path, 1 ≤ u.values.size ∧ u.values.size ≤ 9 := by
  induction h generalizing path with
  | value _ pos le =>
    rw [Variable.leaves]
    exact List.forall_mem_singleton.2 ⟨pos, le⟩
  | group _ _ _ ih =>
    rw [Variable.leaves, leavesOfAll_eq_flatMap]
    intro u hu
    obtain ⟨field, hf, hu⟩ := List.mem_flatMap.1 hu
    exact ih field hf _ u hu

end Variable.WellFormed

/-- The names of all struct types are identifiers, and their fields are well-formed. -/
def Structs.WellFormed (types : Structs) : Prop :=
  ∀ (name : String) (fields : List Variable), types[name]? = some fields →
    IsIdentifier name ∧ ∀ field ∈ fields, field.WellFormed types

namespace Scope

/-- What holds of a scope that only declarations have filled. -/
structure WellFormed (t : Scope) : Prop where
  /-- A uniform stands under its own name. -/
  keyed : ∀ (key : String) (v : Variable), t.uniforms[key]? = some v → v.name = key
  /-- The uniforms are well-formed. -/
  uniforms : ∀ (key : String) (v : Variable), t.uniforms[key]? = some v → v.WellFormed t.structs
  /-- The struct types are well-formed. -/
  structs : t.structs.WellFormed

theorem wellFormed_empty : empty.WellFormed := by
  constructor
  · simp [empty]
  · simp [empty]
  · simp [Structs.WellFormed, empty]

namespace WellFormed

variable {t u : Scope}

/-- A uniform may be declared again. -/
theorem declare (h : t.WellFormed) {v : Variable} (hv : v.WellFormed t.structs) : (t.declare v).WellFormed := by
  have cases {key : String} {w : Variable} (hw : (t.declare v).uniforms[key]? = some w) :
      v.name = key ∧ w = v ∨ t.uniforms[key]? = some w := by
    rw [show t.declare v = t.enter (.uniform v) from rfl, uniforms_enter, Option.or_eq_some_iff] at hw
    rcases hw with hw | ⟨-, hw⟩
    · rw [Declared.uniformNamed?, Option.ite_none_right_eq_some, Option.some.injEq] at hw
      exact .inl ⟨hw.1, hw.2.symm⟩
    · exact .inr hw
  refine ⟨fun key w hw => ?_, fun key w hw => ?_, h.structs⟩
  · rcases cases hw with ⟨hk, rfl⟩ | hw
    · exact hk
    · exact h.keyed key w hw
  · rcases cases hw with ⟨-, rfl⟩ | hw
    · exact hv
    · exact h.uniforms key w hw

/-- A struct type may be defined again, which changes nothing. -/
theorem define (h : t.WellFormed) {name : String} {fields : List Variable} (named : IsIdentifier name)
    (each : ∀ field ∈ fields, field.WellFormed t.structs) : (t.define name fields).WellFormed := by
  have grown := (growsTo_define t name fields).structs
  refine ⟨h.keyed, fun key v hv => (h.uniforms key v hv).mono grown, fun other old ho => ?_⟩
  rw [show t.define name fields = t.enter (.struct name fields) from rfl, structs_enter, Option.or_eq_some_iff] at ho
  rcases ho with ho | ⟨-, ho⟩
  · obtain ⟨known, all⟩ := h.structs other old ho
    exact ⟨known, fun field hf => (all field hf).mono grown⟩
  · rw [Declared.structNamed?, Option.ite_none_right_eq_some, Option.some.injEq] at ho
    obtain ⟨rfl, rfl⟩ := ho
    exact ⟨named, fun field hf => (each field hf).mono grown⟩

/-- A nested scope that has grown from this one may be taken in. -/
theorem merge (h : u.WellFormed) (grown : t.GrowsTo u) : (t.merge u).WellFormed := by
  rwa [grown.merge_eq]

/-- The leaves of a well-formed scope have one to nine components. -/
theorem leaves (h : t.WellFormed) : ∀ leaf ∈ t.leaves, 1 ≤ leaf.values.size ∧ leaf.values.size ≤ 9 := by
  intro leaf hl
  simp only [Scope.leaves, keyedLeaves, List.mem_map, List.mem_flatMap] at hl
  obtain ⟨_, ⟨⟨key, v⟩, entry, u, hu, rfl⟩, rfl⟩ := hl
  exact (h.uniforms key v (ExtTreeMap.mem_toList_iff_getElem?_eq_some.1 entry)).leaves "" u hu

end WellFormed

end Scope

end ShaderWeave
