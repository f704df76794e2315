import ShaderWeave.Construct
import ShaderWeave.Proofs.Declaration.Reading

/-!
# Laws of careful readers

A property that the primitive readers have and that reading one thing after another keeps is a property of all readers
that are made of them. `Reader.CarefulLaw` lists what there is to show for the readers of values, which write nothing
but blanks; `Reader.CarefulWritingLaw` adds the copying of tokens and the reading of fields, and then holds of whatever
starts with a token (`Reader.CarefulWritingLaw.construct`).

Readers take care in two ways. They look at a token only after they have found one, and they expect an equals sign, or
the minus sign of a number, only where they have seen that it comes next. So the laws do not ask for a look by itself,
nor for such an expectation by itself, but for the steps in which they occur.

To be abandoned is no primitive here: a reader is abandoned after a report, or where a demand is not met. Readers report
problems of a few kinds only (`Problem.foundInReading`); the others come from the files that are asked for. And of those
kinds, some problems are ruled out (`Problem.isRuledOut`): those that readers take care not to have, and a truth value
that is neither of the two words, since these words are tokens of their own kind.
-/

namespace ShaderWeave

/-- A problem that a construct has before it asks for anything. -/
def Problem.foundInReading : Problem → Bool
  | .unexpected .. | .unexpectedEnd _ | .unknownType _ | .badVectorType _ | .badTruthValue _ | .badNumber _
  | .lateTemplateMark | .unfilledTemplate | .linkOutsideFragment => true
  | _ => false

theorem foundInReading_typeProblem (word : String) : (typeProblem word).foundInReading = true := by
  rw [typeProblem]
  split <;> rfl

/-- What is expected only where it has been seen to come next. -/
def foreseen : List String :=
  ["an equals sign", "a minus sign"]

/-- A problem that no file has: a truth value is one of the two words, and what has been seen to come next is there. -/
def Problem.isRuledOut : Problem → Bool
  | .badTruthValue _ => true
  | .unexpected expected _ | .unexpectedEnd expected => decide (expected ∈ foreseen)
  | _ => false

theorem isRuledOut_typeProblem (word : String) : (typeProblem word).isRuledOut = false := by
  rw [typeProblem]
  split <;> rfl

/-- A number is expected without a look at what comes next. -/
theorem NumberForm.expected_notMem_foreseen {α : Type} (form : NumberForm α) : form.expected ∉ foreseen := by
  rw [expected]
  split <;> decide

namespace Reader

variable {P : (α : Type) → Reader α → Prop} {α : Type}

/-- What is to be shown of a property so that it holds of the readers of values. -/
structure CarefulLaw (P : (α : Type) → Reader α → Prop) : Prop where
  /-- A value is given. -/
  pure : ∀ {α : Type} (a : α), P α (pure a)
  /-- One reader follows another. -/
  bind : ∀ {α β : Type} {r : Reader α} {f : α → Reader β}, P α r → (∀ a, P β (f a)) → P β (r >>= f)
  /-- The cursor is looked at. -/
  here : P Cursor here
  /-- A problem is reported. -/
  report : ∀ {p : Problem}, p.foundInReading → p.isRuledOut = false → P Unit (report p)
  /-- A problem is reported, and reading is abandoned. -/
  refuse : ∀ {α : Type} {p : Problem}, p.foundInReading → p.isRuledOut = false →
    P α (Reader.report p >>= fun _ => abandon)
  /-- A token is demanded. -/
  demandOneOf : ∀ (kinds : List Token.Kind) {expected : String}, expected ∉ foreseen →
    P Unit (demandOneOf kinds expected)
  /-- The token that has been demanded is looked at. -/
  look : ∀ {α : Type} (kinds : List Token.Kind) {expected : String} {f : Token → Reader α}, expected ∉ foreseen →
    (∀ t, P α (f t)) → P α (Reader.demandOneOf kinds expected >>= fun _ => current >>= f)
  /-- A token is demanded if it has been seen to come next. -/
  foresee : ∀ {α : Type} (kind : Token.Kind) (expected : String) {q r : Reader α}, P α q → P α r →
    P α (Reader.here >>= fun c => if c.nextKind = some kind then demand kind expected >>= fun _ => q else r)
  /-- A truth value is read. -/
  truthValue : P Bool truthValue

/-- What is to be shown of a property so that it holds of the readers that copy tokens. -/
structure CarefulWritingLaw (P : (α : Type) → Reader α → Prop) : Prop extends CarefulLaw P where
  /-- A token is copied. -/
  copy : P Unit copy
  /-- A token is looked at if it is what was expected. -/
  lookIf : ∀ {α : Type} (kinds : List Token.Kind) {expected : String} {f : Token → Reader α} {r : Reader α},
    expected ∉ foreseen → (∀ t, P α (f t)) → P α r →
      P α (expect kinds expected >>= fun met => if met then current >>= f else r)
  /-- A reader is repeated. -/
  collect : ∀ {α : Type} (stop : Token.Kind) {r : Reader α} (progress : ∀ c, 0 < (r c).steps), P α r →
    P (List α) (collectUntil stop r progress)

namespace CarefulLaw

variable (h : CarefulLaw P)
include h

/-- What is made of a value that has been read. -/
theorem map {α β : Type} {r : Reader α} (hr : P α r) (g : α → β) : P β (r >>= fun a => Pure.pure (g a)) :=
  h.bind hr fun a => h.pure (g a)

theorem demand (kind : Token.Kind) {expected : String} (he : expected ∉ foreseen) : P Unit (demand kind expected) :=
  h.demandOneOf [kind] he

theorem digits (form : NumberForm α) (negative : Bool) : P α (digits form negative) := by
  refine h.look _ form.expected_notMem_foreseen fun t => ?_
  dsimp only
  split
  · exact h.pure _
  · exact h.map (h.report rfl rfl) fun _ => form.fallback

/-- The minus sign of a number is expected only where it has been seen. -/
theorem number (form : NumberForm α) : P α (number form) := by
  cases signed : form.signed with
  | false =>
    rw [number_eq_of_unsigned signed]
    exact h.digits form false
  | true =>
    rw [number_eq_of_signed signed]
    exact h.foresee _ _ (h.digits form true) (h.digits form false)

theorem list {one : Reader α} (hr : P α one) (n : Nat) : P (List α) (list one n) := by
  induction n using Reader.list.induct with
  | case1 => exact h.pure []
  | case2 => exact h.map hr fun a => [a]
  | case3 n ih => exact h.bind hr fun a => h.bind (h.demand _ (by decide)) fun _ => h.map ih fun as => a :: as

theorem values (size : Nat) (element : Element) : P Values (values size element) := by
  cases element with
  | boolean => exact h.map (h.list h.truthValue size) Values.boolean
  | integer => exact h.map (h.list (h.number .integer) size) Values.integer
  | unsigned => exact h.map (h.list (h.number .unsigned) size) Values.unsigned
  | single => exact h.map (h.list (h.number .single) size) Values.single
  | double => exact h.map (h.list (h.number .double) size) Values.double

/-- The equals sign before the values of a variable is demanded only where it has been seen. -/
theorem initialValues (element : Element) (size : Nat) : P Values (initialValues element size) := by
  rw [← bind_pure_value (Reader.initialValues element size), initialValues_bind]
  simp only [bind_pure_value, assignment]
  refine h.foresee _ _ ?_ (h.pure _)
  split
  · exact h.values size element
  · exact h.bind (h.demand _ (by decide)) fun _ => h.bind (h.values size element) fun vs =>
      h.map (h.demand _ (by decide)) fun _ => vs

theorem variableOf (name : String) (type : VariableType) : P Variable (variableOf name type) := by
  cases type with
  | values element size => exact h.map (h.initialValues element size) (Variable.value name)
  | group fields => exact h.pure _

theorem templateMark (standsAlone : Bool) : P Action (templateMark standsAlone) := by
  rw [Reader.templateMark]
  refine h.bind h.here fun c => ?_
  have second : P Action (if standsAlone then Reader.report .unfilledTemplate >>= fun _ => Pure.pure .nothing
      else Pure.pure .nothing) := by
    split
    · exact h.map (h.report rfl rfl) fun _ => Action.nothing
    · exact h.pure _
  dsimp only
  split
  · exact h.bind (h.report rfl rfl) fun _ => second
  · exact second

end CarefulLaw

/-- Reads the fields of a struct type. -/
def structFields (types : Structs) : Reader (List Variable) :=
  collectUntil .closeCurly (declaration types) (steps_declaration_pos types)

/-- Reads the definition of a struct type up to the newline that is added after it. -/
def structBody (types : Structs) : Reader (String × List Variable) := do
  copy
  demand .keyword "a struct name"
  let name := (← current).text
  copy
  demand .openCurly "an opening curly brace"
  copy
  let fields ← structFields types
  demand .closeCurly "a closing curly brace"
  copy
  demand .semicolon "a semicolon"
  copy
  return (name, fields)

theorem structDefinition_eq (types : Structs) :
    structDefinition types =
      structBody types >>= fun body => newline >>= fun _ => pure (.define body.1 body.2) := by
  simp only [structBody, Reader.bind_assoc, Reader.pure_value_bind]
  rfl

namespace CarefulWritingLaw

variable (h : CarefulWritingLaw P)
include h

theorem declaration (types : Structs) : P Variable (declaration types) := by
  have named (type : VariableType) (t : Token) : P Variable (Reader.copy >>= fun _ => Reader.variableOf t.text type >>=
      fun v => Reader.demand .semicolon "a semicolon" >>= fun _ => Reader.copy >>= fun _ => Pure.pure v) :=
    h.bind h.copy fun _ => h.bind (h.variableOf t.text type) fun v => h.bind (h.demand _ (by decide)) fun _ =>
      h.map h.copy fun _ => v
  rw [Reader.declaration]
  simp only [variableType, bind_assoc]
  refine h.look _ (by decide) fun t => h.bind ?_ fun type => h.bind h.copy fun _ => h.look _ (by decide) (named type)
  split
  · exact h.pure _
  · exact h.refuse (foundInReading_typeProblem _) (isRuledOut_typeProblem _)

theorem request (manner : Manner) {expected : String} (he : expected ∉ foreseen) :
    P Action (request manner expected) :=
  h.lookIf _ he (fun t => h.pure (Action.request manner t.text t.line)) (h.map h.copy fun _ => Action.nothing)

theorem structBody (types : Structs) : P (String × List Variable) (structBody types) :=
  h.bind h.copy fun _ => h.look _ (by decide) fun t => h.bind h.copy fun _ =>
    h.bind (h.demand _ (by decide)) fun _ => h.bind h.copy fun _ =>
    h.bind (h.collect _ (steps_declaration_pos types) (h.declaration types)) fun fields =>
    h.bind (h.demand _ (by decide)) fun _ => h.bind h.copy fun _ => h.bind (h.demand _ (by decide)) fun _ =>
    h.map h.copy fun _ => (t.text, fields)

theorem structDefinition (hn : P Unit newline) (types : Structs) : P Action (structDefinition types) := by
  rw [structDefinition_eq]
  exact h.bind (h.structBody types) fun body => h.map hn fun _ => Action.define body.1 body.2

theorem uniform (types : Structs) : P Action (uniform types) :=
  h.bind h.copy fun _ => h.map (h.declaration types) Action.declare

/-- **A law that the newline keeps as well holds of whatever a token starts.** -/
theorem construct (hn : P Unit newline) (path : Path) (standsAlone : Bool) (types : Structs) :
    ∃ f : Token → Reader Action, construct path standsAlone types = current >>= f ∧ ∀ t, P Action (f t) := by
  refine ⟨_, rfl, fun t => ?_⟩
  cases t.role with
  | inclusion => exact h.request _ (by decide)
  | templateMark => exact h.templateMark standsAlone
  | vertexLink =>
    dsimp only
    split
    · exact h.bind (h.report rfl rfl) fun _ => h.request _ (by decide)
    · exact h.request _ (by decide)
  | structDefinition => exact h.structDefinition hn types
  | uniform => exact h.uniform types
  | plain => exact h.map h.copy fun _ => Action.nothing

end CarefulWritingLaw

end Reader

end ShaderWeave
