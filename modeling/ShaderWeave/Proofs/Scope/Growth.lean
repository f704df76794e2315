import ShaderWeave.Scope

/-!
# How scopes grow

A scope never forgets a name. `Scope.GrowsTo` says so: a uniform stays a uniform, though perhaps with other values, and
a struct type keeps the fields it has. A scope that has grown from another absorbs it: merging it back gives just the
grown scope (`Scope.GrowsTo.merge_eq`), which is why handing a scope down and taking it in again loses nothing.

`Scope.enterAll` adds declarations one after another. Of the uniforms of one name the last one counts, of the struct
types the first one.
-/

namespace ShaderWeave

open Std

namespace Scope

/-- The first scope has grown to the second. -/
structure GrowsTo (t u : Scope) : Prop where
  /-- The uniforms have kept their names. -/
  uniforms : ∀ name : String, name ∈ t.uniforms → name ∈ u.uniforms
  /-- The struct types have kept their fields. -/
  structs : ∀ (name : String) (fields : List Variable), t.structs[name]? = some fields → u.structs[name]? = some fields

theorem GrowsTo.refl (t : Scope) : t.GrowsTo t :=
  ⟨fun _ h => h, fun _ _ h => h⟩

theorem GrowsTo.trans {t u v : Scope} (h : t.GrowsTo u) (k : u.GrowsTo v) : t.GrowsTo v :=
  ⟨fun name ht => k.uniforms name (h.uniforms name ht),
    fun name fields ht => k.structs name fields (h.structs name fields ht)⟩

theorem growsTo_declare (t : Scope) (v : Variable) : t.GrowsTo (t.declare v) where
  uniforms _ h := ExtTreeMap.mem_insert.2 (.inr h)
  structs _ _ h := h

theorem growsTo_define (t : Scope) (name : String) (fields : List Variable) : t.GrowsTo (t.define name fields) where
  uniforms _ h := h
  structs other old h := by
    have hm : other ∈ t.structs := by
      rw [ExtTreeMap.mem_iff_isSome_getElem?, h]
      rfl
    simp only [define]
    rw [ExtTreeMap.getElem?_insertIfNew, if_neg, h]
    rintro ⟨heq, hn⟩
    rw [LawfulEqCmp.eq_of_compare heq] at hn
    exact hn hm

/-- **A scope that is handed down, grows and is merged back is the grown scope.** -/
theorem GrowsTo.merge_eq {t u : Scope} (h : t.GrowsTo u) : t.merge u = u := by
  have hu : t.uniforms ∪ u.uniforms = u.uniforms := by
    refine ExtTreeMap.ext_getElem? fun name => ?_
    rw [ExtTreeMap.getElem?_union]
    cases hn : u.uniforms[name]? with
    | some v => rfl
    | none =>
      have : name ∉ t.uniforms := fun ht => by
        have := ExtTreeMap.mem_iff_isSome_getElem?.1 (h.uniforms name ht)
        rw [hn] at this
        exact absurd this (by decide)
      rw [ExtTreeMap.getElem?_eq_none this]
      rfl
  have hs : u.structs ∪ t.structs = u.structs := by
    refine ExtTreeMap.ext_getElem? fun name => ?_
    rw [ExtTreeMap.getElem?_union]
    cases hn : t.structs[name]? with
    | some fields => exact (h.structs name fields hn).symm
    | none => rfl
  rw [merge, hu, hs]

end Scope

/-! ### Declarations one after another -/

/-- A declaration that takes effect. -/
inductive Declared where
  /-- A uniform. -/
  | uniform (v : Variable)
  /-- A struct type. -/
  | struct (name : String) (fields : List Variable)

namespace Declared

/-- The uniform of a name, if it is the one that is declared. -/
def uniformNamed? (name : String) : Declared → Option Variable
  | .uniform v => if v.name = name then some v else none
  | .struct .. => none

/-- The fields of the struct type of a name, if it is the one that is declared. -/
def structNamed? (name : String) : Declared → Option (List Variable)
  | .uniform _ => none
  | .struct other fields => if other = name then some fields else none

end Declared

/-- The last uniform of a name among some declarations. -/
def lastUniform? (name : String) (ds : List Declared) : Option Variable :=
  (ds.filterMap (Declared.uniformNamed? name)).getLast?

/-- The fields of the first struct type of a name among some declarations. -/
def firstStruct? (name : String) (ds : List Declared) : Option (List Variable) :=
  (ds.filterMap (Declared.structNamed? name)).head?

namespace Scope

/-- Adds what is declared. -/
def enter (t : Scope) : Declared → Scope
  | .uniform v => t.declare v
  | .struct name fields => t.define name fields

/-- Adds what is declared, one after another. -/
def enterAll (t : Scope) (ds : List Declared) : Scope :=
  ds.foldl enter t

theorem enterAll_append (t : Scope) (ds es : List Declared) : t.enterAll (ds ++ es) = (t.enterAll ds).enterAll es :=
  List.foldl_append

theorem uniforms_enter (t : Scope) (d : Declared) (name : String) :
    (t.enter d).uniforms[name]? = (d.uniformNamed? name).or t.uniforms[name]? := by
  cases d with
  | struct other fields => rfl
  | uniform v =>
    simp only [enter, declare, Declared.uniformNamed?]
    rw [ExtTreeMap.getElem?_insert]
    simp only [LawfulEqCmp.compare_eq_iff_eq]
    split
    · rfl
    · rfl

theorem structs_enter (t : Scope) (d : Declared) (name : String) :
    (t.enter d).structs[name]? = (t.structs[name]?).or (d.structNamed? name) := by
  cases d with
  | uniform v => exact (Option.or_none).symm
  | struct other fields =>
    simp only [enter, define, Declared.structNamed?]
    rw [ExtTreeMap.getElem?_insertIfNew]
    simp only [LawfulEqCmp.compare_eq_iff_eq]
    cases h : t.structs[name]? with
    | some old =>
      rw [if_neg]
      · rfl
      · rintro ⟨rfl, hn⟩
        rw [ExtTreeMap.mem_iff_isSome_getElem?, h] at hn
        exact hn rfl
    | none =>
      have hn : name ∉ t.structs := by
        rw [ExtTreeMap.mem_iff_isSome_getElem?, h]
        exact Bool.false_ne_true
      by_cases ho : other = name
      · subst ho
        simp [hn]
      · simp [ho]

/-- Of the uniforms of one name the last one counts. -/
theorem uniforms_enterAll (t : Scope) (ds : List Declared) (name : String) :
    (t.enterAll ds).uniforms[name]? = (lastUniform? name ds).or t.uniforms[name]? := by
  induction ds generalizing t with
  | nil => rfl
  | cons d ds ih =>
    have step : (t.enterAll (d :: ds)).uniforms[name]? = (lastUniform? name ds).or (t.enter d).uniforms[name]? :=
      ih (t.enter d)
    rw [step, uniforms_enter, ← Option.or_assoc]
    congr 1
    simp only [lastUniform?, List.filterMap_cons]
    cases d.uniformNamed? name with
    | none => exact Option.or_none
    | some v => cases h : (ds.filterMap (Declared.uniformNamed? name)).getLast? <;> simp [List.getLast?_cons, h]

/-- Of the struct types of one name the first one counts. -/
theorem structs_enterAll (t : Scope) (ds : List Declared) (name : String) :
    (t.enterAll ds).structs[name]? = (t.structs[name]?).or (firstStruct? name ds) := by
  induction ds generalizing t with
  | nil => exact (Option.or_none).symm
  | cons d ds ih =>
    have step : (t.enterAll (d :: ds)).structs[name]? = ((t.enter d).structs[name]?).or (firstStruct? name ds) :=
      ih (t.enter d)
    rw [step, structs_enter, Option.or_assoc]
    congr 1
    simp only [firstStruct?, List.filterMap_cons]
    cases d.structNamed? name <;> rfl

end Scope

end ShaderWeave
