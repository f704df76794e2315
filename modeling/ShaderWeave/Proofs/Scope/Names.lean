import ShaderWeave.Proofs.Reader.Pairs

/-!
# Scopes with the same struct types

Two scopes have the same types if they have struct types of the same names, whatever the fields of these and the
uniforms are. All that scopes go through keeps this: a declaration, a definition, and the merge with a nested scope.
Variables of one name are then all that reading needs to know (`SameTypes.like`).
-/

namespace ShaderWeave

open Std

/-- Two variables are declared under one name. -/
def Variable.SameName (v v' : Variable) : Prop :=
  v.name = v'.name

namespace Scope

/-- Two scopes have struct types of the same names. -/
def SameTypes (t t' : Scope) : Prop :=
  ∀ name : String, name ∈ t'.structs ↔ name ∈ t.structs

namespace SameTypes

variable {t t' u u' : Scope}

theorem refl (t : Scope) : t.SameTypes t :=
  fun _ => Iff.rfl

/-- The keys are the names. -/
theorem of_keys (h : t'.structs.keys = t.structs.keys) : t.SameTypes t' := by
  intro name
  rw [← ExtTreeMap.mem_keys, ← ExtTreeMap.mem_keys, h]

theorem declare (h : t.SameTypes t') (v v' : Variable) : (t.declare v).SameTypes (t'.declare v') :=
  h

theorem define (h : t.SameTypes t') (name : String) (fields fields' : List Variable) :
    (t.define name fields).SameTypes (t'.define name fields') := by
  intro other
  simp only [Scope.define]
  rw [ExtTreeMap.mem_insertIfNew, ExtTreeMap.mem_insertIfNew, h other]

theorem merge (h : t.SameTypes t') (k : u.SameTypes u') : (t.merge u).SameTypes (t'.merge u') := by
  intro other
  simp only [Scope.merge]
  rw [ExtTreeMap.mem_union_iff, ExtTreeMap.mem_union_iff, h other, k other]

/-- A word is looked up with the same success. -/
theorem like (h : t.SameTypes t') : t.structs.Like Variable.SameName t'.structs := by
  intro word
  have known := h word
  rw [ExtTreeMap.mem_iff_isSome_getElem?, ExtTreeMap.mem_iff_isSome_getElem?] at known
  cases hf : t.structs[word]? with
  | none =>
    cases hf' : t'.structs[word]? with
    | none => exact .none
    | some fields' => simp [hf, hf'] at known
  | some fields =>
    cases hf' : t'.structs[word]? with
    | none => simp [hf, hf'] at known
    | some fields' => exact .some fun _ => rfl

end SameTypes

end Scope

end ShaderWeave
