import ShaderWeave.Proofs.Reader.Care

/-!
# Laws of readers

A law that needs no care (`Reader.Law`) is kept by each look at a token and by each expectation. In particular, it is a
law of careful readers (`Reader.Law.careful`), and from that it is known to hold of everything a file is made of, up to
the newline after the definition of a struct type.
-/

namespace ShaderWeave

namespace Reader

variable {P : (α : Type) → Reader α → Prop}

/-- What is to be shown of a property so that it holds of the readers of values. -/
structure Law (P : (α : Type) → Reader α → Prop) : Prop where
  /-- A value is given. -/
  pure : ∀ {α : Type} (a : α), P α (pure a)
  /-- One reader follows another. -/
  bind : ∀ {α β : Type} {r : Reader α} {f : α → Reader β}, P α r → (∀ a, P β (f a)) → P β (r >>= f)
  /-- The cursor is looked at. -/
  here : P Cursor here
  /-- The token under the cursor is looked at. -/
  current : P Token current
  /-- A problem is reported. -/
  report : ∀ p : Problem, p.foundInReading → P Unit (report p)
  /-- A problem is reported, and reading is abandoned. -/
  refuse : ∀ {α : Type} (p : Problem), p.foundInReading → P α (Reader.report p >>= fun _ => abandon)
  /-- A token is expected. -/
  expect : ∀ (kinds : List Token.Kind) (expected : String), P Bool (expect kinds expected)
  /-- A token is demanded. -/
  demandOneOf : ∀ (kinds : List Token.Kind) (expected : String), P Unit (demandOneOf kinds expected)

/-- What is to be shown of a property so that it holds of the readers that copy tokens. -/
structure WritingLaw (P : (α : Type) → Reader α → Prop) : Prop extends Law P where
  /-- A token is copied. -/
  copy : P Unit copy
  /-- A reader is repeated. -/
  collect : ∀ {α : Type} (stop : Token.Kind) {r : Reader α} (progress : ∀ c, 0 < (r c).steps), P α r →
    P (List α) (collectUntil stop r progress)

namespace Law

variable (h : Law P)
include h

/-- What is made of a value that has been read. -/
theorem map {α β : Type} {r : Reader α} (hr : P α r) (g : α → β) : P β (r >>= fun a => Pure.pure (g a)) :=
  h.bind hr fun a => h.pure (g a)

theorem truthValue : P Bool truthValue := by
  rw [Reader.truthValue]
  refine h.bind (h.demandOneOf _ _) fun _ => h.bind h.current fun t => ?_
  split
  · exact h.pure true
  · split
    · exact h.pure false
    · exact h.map (h.report _ rfl) fun _ => false

/-- **A law is one of careful readers.** -/
theorem careful : CarefulLaw P where
  pure := h.pure
  bind := h.bind
  here := h.here
  report := fun found _ => h.report _ found
  refuse := fun found _ => h.refuse _ found
  demandOneOf := fun kinds _ _ => h.demandOneOf kinds _
  look := fun kinds _ _ _ hf => h.bind (h.demandOneOf kinds _) fun _ => h.bind h.current hf
  foresee := fun kind _ _ _ hq hr => h.bind h.here fun c => by
    split
    · exact h.bind (h.demandOneOf [kind] _) fun _ => hq
    · exact hr
  truthValue := h.truthValue

theorem variableType (types : Structs) : P VariableType (variableType types) := by
  rw [Reader.variableType]
  refine h.bind h.current fun t => ?_
  split
  · exact h.pure _
  · exact h.refuse _ (foundInReading_typeProblem _)

theorem variableOf (name : String) (type : VariableType) : P Variable (variableOf name type) :=
  h.careful.variableOf name type

theorem templateMark (standsAlone : Bool) : P Action (templateMark standsAlone) :=
  h.careful.templateMark standsAlone

end Law

namespace WritingLaw

variable (h : WritingLaw P)
include h

theorem careful : CarefulWritingLaw P where
  toCarefulLaw := h.toLaw.careful
  copy := h.copy
  lookIf := fun kinds _ _ _ _ hf hr => h.bind (h.expect kinds _) fun met => by
    cases met with
    | true => exact h.bind h.current hf
    | false => exact hr
  collect := h.collect

theorem declaration (types : Structs) : P Variable (declaration types) :=
  h.careful.declaration types

theorem request (manner : Manner) (expected : String) : P Action (request manner expected) := by
  rw [Reader.request]
  refine h.bind (h.expect _ _) fun found => ?_
  cases found with
  | true => exact h.map h.current fun t => Action.request manner t.text t.line
  | false => exact h.map h.copy fun _ => Action.nothing

theorem structBody (types : Structs) : P (String × List Variable) (structBody types) :=
  h.careful.structBody types

theorem structDefinition (hn : P Unit newline) (types : Structs) : P Action (structDefinition types) :=
  h.careful.structDefinition hn types

theorem uniform (types : Structs) : P Action (uniform types) :=
  h.careful.uniform types

/-- **A law that the newline keeps as well holds of every construct.** -/
theorem construct (hn : P Unit newline) (path : Path) (standsAlone : Bool) (types : Structs) :
    P Action (construct path standsAlone types) := by
  obtain ⟨f, started, hf⟩ := h.careful.construct hn path standsAlone types
  rw [started]
  exact h.bind h.current hf

end WritingLaw

end Reader

end ShaderWeave
