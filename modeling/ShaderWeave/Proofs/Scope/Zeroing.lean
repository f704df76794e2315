import ShaderWeave.Scope

/-!
# Scopes without values

What the declarations of a scope look like without the values that variables start with: `Scope.zeroed` has the same
uniforms and the same struct types, each with the same fields in the same order, of the same types and sizes, and every
value in it is zero. Zeroing goes along with adding declarations (`zeroed_declare`, `zeroed_define`), and zeroing twice
does no more than zeroing once (`Scope.zeroed_zeroed`).
-/

namespace ShaderWeave

open Std

/-! ### Values and variables -/

/-- As many zeros of the same type. -/
def Values.zeroed (vs : Values) : Values :=
  vs.element.zeros vs.size

@[simp] theorem Values.zeroed_zeroed (vs : Values) : vs.zeroed.zeroed = vs.zeroed := by
  simp [zeroed]

namespace Variable

mutual

/-- The variable with zeros for all its values. -/
def zeroed : Variable → Variable
  | .value name values => .value name values.zeroed
  | .group name fields => .group name (zeroedAll fields)

/-- The variables with zeros for all their values. -/
def zeroedAll : List Variable → List Variable
  | [] => []
  | field :: fields => zeroed field :: zeroedAll fields

end

@[simp] theorem name_zeroed (v : Variable) : v.zeroed.name = v.name := by
  cases v <;> rfl

mutual

@[simp] theorem zeroed_zeroed : (v : Variable) → v.zeroed.zeroed = v.zeroed
  | .value name values => by simp [zeroed]
  | .group name fields => by rw [zeroed, zeroed, zeroedAll_zeroedAll fields]

@[simp] theorem zeroedAll_zeroedAll : (fields : List Variable) → zeroedAll (zeroedAll fields) = zeroedAll fields
  | [] => rfl
  | field :: fields => by rw [zeroedAll, zeroedAll, zeroed_zeroed field, zeroedAll_zeroedAll fields]

end

end Variable

/-! ### Scopes -/

/-- The struct types with zeros for all values of their fields. -/
def Structs.zeroed (types : Structs) : Structs :=
  types.map fun _ fields => Variable.zeroedAll fields

theorem Structs.getElem?_zeroed (types : Structs) (name : String) :
    types.zeroed[name]? = types[name]?.map Variable.zeroedAll :=
  ExtTreeMap.getElem?_map

namespace Scope

/-- The scope with zeros for all its values. -/
def zeroed (t : Scope) : Scope :=
  ⟨t.uniforms.map fun _ v => v.zeroed, t.structs.zeroed⟩

@[simp] theorem structs_zeroed (t : Scope) : t.zeroed.structs = t.structs.zeroed := rfl

@[simp] theorem zeroed_empty : empty.zeroed = empty := by
  rw [zeroed, Structs.zeroed, empty, ExtTreeMap.map_eq_empty_iff.2 rfl, ExtTreeMap.map_eq_empty_iff.2 rfl]

/-- What is declared is zeroed alike. -/
theorem zeroed_declare (t : Scope) (v : Variable) : (t.declare v).zeroed = t.zeroed.declare v.zeroed := by
  simp only [zeroed, declare, Variable.name_zeroed, mk.injEq, and_true]
  refine ExtTreeMap.ext_getElem? fun name => ?_
  rw [ExtTreeMap.getElem?_map, ExtTreeMap.getElem?_insert, ExtTreeMap.getElem?_insert, ExtTreeMap.getElem?_map]
  split <;> rfl

/-- A struct type is defined if it would be with zeros. -/
theorem zeroed_define (t : Scope) (name : String) (fields : List Variable) :
    (t.define name fields).zeroed = t.zeroed.define name (Variable.zeroedAll fields) := by
  simp only [zeroed, define, Structs.zeroed, mk.injEq, true_and]
  refine ExtTreeMap.ext_getElem? fun other => ?_
  rw [ExtTreeMap.getElem?_map, ExtTreeMap.getElem?_insertIfNew, ExtTreeMap.getElem?_insertIfNew,
    ExtTreeMap.getElem?_map]
  simp only [ExtTreeMap.mem_map]
  split <;> rfl

/-- Zeros are zeroed already. -/
@[simp] theorem zeroed_zeroed (t : Scope) : t.zeroed.zeroed = t.zeroed := by
  simp [zeroed, Structs.zeroed, ExtTreeMap.map_map]

end Scope

end ShaderWeave
