import ShaderWeave.Construct
import ShaderWeave.Proofs.Declaration.Reading
import Mathlib.Data.List.Forall2

/-!
# Two readings side by side

Two readings of the same kind, of other tokens or with other struct types, are compared step by step. A `Likeness` says
which cursors, tokens, lines and outputs of the two belong together, and what the primitive readers do to them.
`Likeness.Kept` then says of two readers that they keep the likeness: from cursors that belong together they are both
abandoned or give values that belong together, put out what belongs together, and end where the cursors belong together.

Only the type of a variable depends on the struct types, and only on whether a name is one. So `kept_construct` asks
nothing else of them: a relation between variables in which two structs of one name stand wherever the types are looked
up (`Structs.Like`).
-/

namespace ShaderWeave

/-! ### What belongs together -/

/-- Two struct types of one name make variables that belong together, and what is no type in one is none in the
other. -/
def Structs.Like (V : Variable → Variable → Prop) (types types' : Structs) : Prop :=
  ∀ word : String, Option.Rel (fun fields fields' => ∀ name, V (.group name fields) (.group name fields'))
    types[word]? types'[word]?

theorem Structs.Like.refl {V : Variable → Variable → Prop} (hV : ∀ v, V v v) (types : Structs) :
    types.Like V types := by
  intro word
  cases types[word]? with
  | none => exact .none
  | some fields => exact .some fun _ => hV _

/-- Two actions ask for the same, up to lines and variables that belong together. -/
inductive Action.Like (lines : Nat → Nat → Prop) (V : Variable → Variable → Prop) : Action → Action → Prop where
  /-- Nothing is asked for. -/
  | nothing : Like lines V .nothing .nothing
  /-- The same path is asked for in the same manner. -/
  | request {line line' : Nat} (m : Manner) (written : String) : lines line line' →
    Like lines V (.request m written line) (.request m written line')
  /-- A uniform is declared. -/
  | declare {v v' : Variable} : V v v' → Like lines V (.declare v) (.declare v')
  /-- A struct type of the same name is defined. -/
  | define {fields fields' : List Variable} (name : String) : List.Forall₂ V fields fields' →
    Like lines V (.define name fields) (.define name fields')

/-- Two types belong together if variables of one name do that they are the types of. -/
inductive VariableType.Like (V : Variable → Variable → Prop) : VariableType → VariableType → Prop where
  /-- The same scalar or vector. -/
  | values (element : Element) (size : Nat) : Like V (.values element size) (.values element size)
  /-- Two structs. -/
  | group {fields fields' : List Variable} : (∀ name, V (.group name fields) (.group name fields')) →
    Like V (.group fields) (.group fields')

namespace Reader

/-- Reports the mark of a template file unless it is the first token. -/
def lateMark : Reader Unit :=
  fun c => ⟨some (), 0, if c.index ≠ 0 then [.problem .lateTemplateMark c.line] else []⟩

theorem templateMark_eq (standsAlone : Bool) :
    templateMark standsAlone = lateMark >>= fun _ =>
      if standsAlone then report .unfilledTemplate >>= fun _ => pure .nothing else pure .nothing := by
  funext c
  rw [templateMark, here_bind_apply, bind_apply_of_some (r := lateMark) (a := ()) rfl]
  by_cases h : c.index = 0
  · simp only [h, lateMark, ne_eq, not_true_eq_false, if_false, Cursor.skip_zero, Nat.zero_add, List.nil_append]
  · simp only [lateMark, if_pos h, Cursor.skip_zero]
    rw [bind_apply_of_some (a := ()) rfl]
    rfl

/-- Which cursors, tokens, lines and outputs of two readings belong together. -/
structure Likeness where
  /-- The tokens. -/
  tokens : Token → Token → Prop
  /-- The cursors. -/
  cursors : Cursor → Cursor → Prop
  /-- The lines. -/
  lines : Nat → Nat → Prop
  /-- What is put out. -/
  outputs : List Output → List Output → Prop
  /-- Tokens that belong together are of one kind. -/
  kind : ∀ {t t'}, tokens t t' → t'.kind = t.kind
  /-- They have one text. -/
  text : ∀ {t t'}, tokens t t' → t'.text = t.text
  /-- Their lines belong together. -/
  lineOf : ∀ {t t'}, tokens t t' → lines t.line t'.line
  /-- The tokens under two cursors belong together, if there are any. -/
  under : ∀ {c c'}, cursors c c' → Option.Rel tokens c.ahead.head? c'.ahead.head?
  /-- The lines of two cursors belong together. -/
  line : ∀ {c c'}, cursors c c' → lines c.line c'.line
  /-- The same kind of token comes next. -/
  nextKind : ∀ {c c'}, cursors c c' → c'.nextKind = c.nextKind
  /-- Moving on brings the cursors to a place that belongs together. -/
  cursors_advance : ∀ {c c'}, cursors c c' →
    cursors (c.skip (Reader.advance c).steps) (c'.skip (Reader.advance c').steps)
  /-- What moving on copies belongs together. -/
  outputs_advance : ∀ {c c'}, cursors c c' → outputs (Reader.advance c).output (Reader.advance c').output
  /-- The next semicolons belong together. -/
  cursors_abandon : ∀ {c c'}, cursors c c' →
    cursors (c.skip (c.ahead.takeWhile (·.kind ≠ .semicolon)).length)
      (c'.skip (c'.ahead.takeWhile (·.kind ≠ .semicolon)).length)
  /-- Nothing belongs to nothing. -/
  output_nil : outputs [] []
  /-- Outputs that belong together may follow one another. -/
  output_append : ∀ {os os' ps ps'}, outputs os os' → outputs ps ps' → outputs (os ++ ps) (os' ++ ps')
  /-- Tokens may be copied. -/
  output_copy : ∀ {t t'}, tokens t t' → outputs [.copy t] [.copy t']
  /-- Newlines may be written. -/
  output_newline : ∀ {l l'}, lines l l' → outputs [.newline l] [.newline l']
  /-- The same problem may be reported. -/
  output_problem : ∀ (p : Problem) {l l'}, lines l l' → outputs [.problem p l] [.problem p l']
  /-- A token may be read where there is none. -/
  output_misread : ∀ {c c'}, cursors c c' → outputs [.misread c.index] [.misread c'.index]
  /-- Whether the mark of a template file is late may be reported. -/
  output_lateMark : ∀ {c c'}, cursors c c' →
    outputs (if c.index ≠ 0 then [.problem .lateTemplateMark c.line] else [])
      (if c'.index ≠ 0 then [.problem .lateTemplateMark c'.line] else [])

namespace Likeness

/-- Cursors, tokens, lines and outputs that are equal. -/
def same : Likeness where
  tokens := Eq
  cursors := Eq
  lines := Eq
  outputs := Eq
  kind := by rintro _ _ rfl; rfl
  text := by rintro _ _ rfl; rfl
  lineOf := by rintro _ _ rfl; rfl
  under := by rintro c _ rfl; cases c.ahead.head? <;> constructor; rfl
  line := by rintro _ _ rfl; rfl
  nextKind := by rintro _ _ rfl; rfl
  cursors_advance := by rintro _ _ rfl; rfl
  outputs_advance := by rintro _ _ rfl; rfl
  cursors_abandon := by rintro _ _ rfl; rfl
  output_nil := rfl
  output_append := by rintro _ _ _ _ rfl rfl; rfl
  output_copy := by rintro _ _ rfl; rfl
  output_newline := by rintro _ _ rfl; rfl
  output_problem := by rintro _ _ _ rfl; rfl
  output_misread := by rintro _ _ rfl; rfl
  output_lateMark := by rintro _ _ rfl; rfl

variable {α β γ δ : Type} (L : Likeness)

/-- Two outcomes that belong together: what was read, what was put out, and where reading ended. -/
structure Outcomes (R : α → β → Prop) (c c' : Cursor) (o : Outcome α) (o' : Outcome β) : Prop where
  /-- Both readers are abandoned, or the values belong together. -/
  value : Option.Rel R o.value o'.value
  /-- The outputs belong together. -/
  output : L.outputs o.output o'.output
  /-- So do the cursors. -/
  ended : L.cursors (c.skip o.steps) (c'.skip o'.steps)

/-- From cursors that belong together, two readers come to outcomes that belong together. -/
def Kept (R : α → β → Prop) (r : Reader α) (r' : Reader β) : Prop :=
  ∀ c c', L.cursors c c' → L.Outcomes R c c' (r c) (r' c')

variable {L} {R : α → β → Prop} {S : γ → δ → Prop}

/-! ### Primitive readers -/

theorem Kept.pure {a : α} {b : β} (h : R a b) : L.Kept R (pure a) (pure b) := by
  intro c c' hc
  exact ⟨.some h, L.output_nil, hc⟩

/-- One reader after another keeps what both keep. -/
theorem Kept.bind {r : Reader α} {r' : Reader β} {f : α → Reader γ} {f' : β → Reader δ} (hr : L.Kept R r r')
    (hf : ∀ a b, R a b → L.Kept S (f a) (f' b)) : L.Kept S (r >>= f) (r' >>= f') := by
  intro c c' hc
  obtain ⟨value, output, ended⟩ := hr c c' hc
  cases hv : (r c).value with
  | none =>
    cases hv' : (r' c').value with
    | some b => simp [hv, hv'] at value
    | none =>
      rw [bind_apply_of_none hv, bind_apply_of_none hv']
      exact ⟨.none, output, ended⟩
  | some a =>
    cases hv' : (r' c').value with
    | none => simp [hv, hv'] at value
    | some b =>
      rw [hv, hv', Option.rel_some_some] at value
      obtain ⟨value', output', ended'⟩ := hf a b value _ _ ended
      rw [bind_apply_of_some hv, bind_apply_of_some hv']
      refine ⟨value', L.output_append output output', ?_⟩
      rw [Cursor.skip_skip, Cursor.skip_skip] at ended'
      exact ended'

/-- What is made of values that belong together. -/
theorem Kept.map {r : Reader α} {r' : Reader β} {g : α → γ} {g' : β → δ} (hr : L.Kept R r r')
    (hg : ∀ a b, R a b → S (g a) (g' b)) :
    L.Kept S (r >>= fun a => Pure.pure (g a)) (r' >>= fun b => Pure.pure (g' b)) :=
  hr.bind fun a b h => .pure (hg a b h)

/-- A look at the cursors tells what can be seen from both. -/
theorem kept_here {f : Cursor → Reader γ} {f' : Cursor → Reader δ}
    (h : ∀ c c', L.cursors c c' → L.Kept S (f c) (f' c')) : L.Kept S (here >>= f) (here >>= f') := by
  intro c c' hc
  rw [here_bind_apply, here_bind_apply]
  exact h c c' hc c c' hc

variable (L)

theorem kept_current : L.Kept L.tokens current current := by
  intro c c' hc
  have under := L.under hc
  simp only [current]
  cases ha : c.ahead with
  | nil =>
    cases ha' : c'.ahead with
    | cons t' ts' => simp [ha, ha'] at under
    | nil => exact ⟨.none, L.output_misread hc, hc⟩
  | cons t ts =>
    cases ha' : c'.ahead with
    | nil => simp [ha, ha'] at under
    | cons t' ts' =>
      refine ⟨?_, L.output_nil, hc⟩
      simpa [ha, ha'] using under

theorem kept_copy : L.Kept Eq copy copy := by
  intro c c' hc
  refine ⟨.some rfl, ?_, hc⟩
  have under := L.under hc
  simp only [copy]
  generalize c.ahead.head? = u at under
  generalize c'.ahead.head? = u' at under
  cases under with
  | none => exact L.output_nil
  | some h => exact L.output_copy h

theorem kept_newline : L.Kept Eq newline newline :=
  fun _ _ hc => ⟨.some rfl, L.output_newline (L.line hc), hc⟩

theorem kept_report (p : Problem) : L.Kept Eq (report p) (report p) :=
  fun _ _ hc => ⟨.some rfl, L.output_problem p (L.line hc), hc⟩

theorem kept_advance : L.Kept Eq advance advance :=
  fun _ _ hc => ⟨.some rfl, L.outputs_advance hc, L.cursors_advance hc⟩

theorem kept_abandon : L.Kept R (abandon : Reader α) (abandon : Reader β) :=
  fun _ _ hc => ⟨.none, L.output_nil, L.cursors_abandon hc⟩

/-- Two lists of one value at most belong together if the values do. -/
theorem forall₂_toList {a : Option α} {b : Option β} (h : Option.Rel R a b) :
    List.Forall₂ R a.toList b.toList := by
  cases h with
  | none => exact .nil
  | some h => exact .cons h .nil

/-- Where there is no list, the empty one stands in its place. -/
theorem forall₂_getD {as : Option (List α)} {bs : Option (List β)} (h : Option.Rel (List.Forall₂ R) as bs) :
    List.Forall₂ R (as.getD []) (bs.getD []) := by
  cases h with
  | none => exact .nil
  | some h => exact h

/-! ### Expectations -/

theorem kept_expect (kinds : List Token.Kind) (expected : String) :
    L.Kept Eq (expect kinds expected) (expect kinds expected) := by
  refine L.kept_advance.bind fun _ _ _ => kept_here fun c c' hc => ?_
  have under := L.under hc
  cases ha : c.ahead with
  | nil =>
    cases ha' : c'.ahead with
    | cons t' ts' => simp [ha, ha'] at under
    | nil => exact (L.kept_report _).map fun _ _ _ => rfl
  | cons t ts =>
    cases ha' : c'.ahead with
    | nil => simp [ha, ha'] at under
    | cons t' ts' =>
      have ht : L.tokens t t' := by simpa [ha, ha'] using under
      simp only [L.kind ht, L.text ht]
      split
      · exact .pure rfl
      · exact (L.kept_report _).map fun _ _ _ => rfl

theorem kept_demandOneOf (kinds : List Token.Kind) (expected : String) :
    L.Kept Eq (demandOneOf kinds expected) (demandOneOf kinds expected) := by
  refine (L.kept_expect kinds expected).bind ?_
  rintro met _ rfl
  cases met with
  | true => exact .pure rfl
  | false => exact L.kept_abandon

theorem kept_demand (kind : Token.Kind) (expected : String) :
    L.Kept Eq (demand kind expected) (demand kind expected) :=
  L.kept_demandOneOf [kind] expected

variable {L} in
/-- A reader that is repeated keeps what it keeps once. -/
theorem Kept.collectUntil (stop : Token.Kind) {r : Reader α} {r' : Reader β} {progress : ∀ c, 0 < (r c).steps}
    {progress' : ∀ c, 0 < (r' c).steps} (h : L.Kept R r r') :
    L.Kept (List.Forall₂ R) (collectUntil stop r progress) (collectUntil stop r' progress') := by
  intro c
  induction c using collectUntil.induct stop r progress with
  | case1 c hs =>
    intro c' hc
    rw [Reader.collectUntil, Reader.collectUntil, dif_pos hs, dif_pos (by rwa [L.nextKind hc])]
    exact ⟨.some .nil, L.output_nil, hc⟩
  | case2 c hs _ ih =>
    intro c' hc
    obtain ⟨value, output, ended⟩ := h c c' hc
    obtain ⟨values, outputs, ended'⟩ := ih _ ended
    rw [Reader.collectUntil, Reader.collectUntil, dif_neg hs, dif_neg (by rwa [L.nextKind hc])]
    refine ⟨.some ?_, L.output_append output outputs, ?_⟩
    · exact List.rel_append (forall₂_toList value) (forall₂_getD values)
    · rw [Cursor.skip_skip, Cursor.skip_skip] at ended'
      exact ended'

/-! ### Values -/

theorem kept_truthValue : L.Kept Eq truthValue truthValue := by
  refine (L.kept_demand _ _).bind fun _ _ _ => L.kept_current.bind fun t t' ht => ?_
  rw [L.text ht]
  split
  · exact .pure rfl
  · split
    · exact .pure rfl
    · exact (L.kept_report _).map fun _ _ _ => rfl

theorem kept_digits (form : NumberForm α) (negative : Bool) :
    L.Kept Eq (digits form negative) (digits form negative) := by
  refine (L.kept_demandOneOf _ _).bind fun _ _ _ => L.kept_current.bind fun t t' ht => ?_
  dsimp only
  rw [L.text ht]
  split
  · exact .pure rfl
  · exact (L.kept_report _).map fun _ _ _ => rfl

theorem kept_number (form : NumberForm α) : L.Kept Eq (number form) (number form) := by
  refine kept_here fun c c' hc => ?_
  dsimp only
  rw [L.nextKind hc]
  generalize (form.signed && decide (c.nextKind = some .minus)) = negative
  cases negative with
  | true => exact (L.kept_expect _ _).bind fun _ _ _ => L.kept_digits form true
  | false => exact L.kept_digits form false

variable {L} in
theorem Kept.list {one : Reader α} (h : L.Kept Eq one one) (n : Nat) : L.Kept Eq (list one n) (list one n) := by
  induction n using Reader.list.induct with
  | case1 => exact .pure rfl
  | case2 => exact h.map fun _ _ => congrArg fun a => [a]
  | case3 n ih =>
    refine h.bind ?_
    rintro a _ rfl
    exact (L.kept_demand _ _).bind fun _ _ _ => ih.map fun _ _ => congrArg (a :: ·)

theorem kept_values (size : Nat) (element : Element) : L.Kept Eq (values size element) (values size element) := by
  cases element with
  | boolean => exact (L.kept_truthValue.list size).map fun _ _ => congrArg Values.boolean
  | integer => exact ((L.kept_number .integer).list size).map fun _ _ => congrArg Values.integer
  | unsigned => exact ((L.kept_number .unsigned).list size).map fun _ _ => congrArg Values.unsigned
  | single => exact ((L.kept_number .single).list size).map fun _ _ => congrArg Values.single
  | double => exact ((L.kept_number .double).list size).map fun _ _ => congrArg Values.double

theorem kept_initialValues (element : Element) (size : Nat) :
    L.Kept Eq (initialValues element size) (initialValues element size) := by
  refine kept_here fun c c' hc => ?_
  rw [L.nextKind hc]
  split
  · exact .pure rfl
  · refine (L.kept_demand _ _).bind fun _ _ _ => ?_
    split
    · exact L.kept_values size element
    · refine (L.kept_demand _ _).bind fun _ _ _ => (L.kept_values size element).bind ?_
      rintro vs _ rfl
      exact (L.kept_demand _ _).map fun _ _ _ => rfl

/-! ### Declarations -/

section Types

variable {V : Variable → Variable → Prop} (hV : ∀ v, V v v) {types types' : Structs} (ht : types.Like V types')

include ht in
/-- A word names a type with two sets of struct types or with neither. -/
theorem variableType?_like (word : String) :
    Option.Rel (VariableType.Like V) (variableType? types word) (variableType? types' word) := by
  rw [variableType?, variableType?]
  split
  · exact .some (.values _ 1)
  · split
    · exact .some (.values _ _)
    · have found := ht word
      generalize types[word]? = fields at found
      generalize types'[word]? = fields' at found
      cases found with
      | none => exact .none
      | some h => exact .some (.group h)

include ht in
theorem kept_variableType : L.Kept (VariableType.Like V) (variableType types) (variableType types') := by
  refine L.kept_current.bind fun t t' hu => ?_
  rw [L.text hu]
  have found := variableType?_like ht t.text
  generalize variableType? types t.text = type at found
  generalize variableType? types' t.text = type' at found
  cases found with
  | none => exact (L.kept_report _).bind fun _ _ _ => L.kept_abandon
  | some h => exact .pure h

include hV in
theorem kept_variableOf (name : String) {type type' : VariableType} (h : type.Like V type') :
    L.Kept V (variableOf name type) (variableOf name type') := by
  cases h with
  | values element size =>
    refine (L.kept_initialValues element size).map ?_
    rintro vs _ rfl
    exact hV _
  | group h => exact .pure (h name)

include hV ht

theorem kept_declaration : L.Kept V (declaration types) (declaration types') := by
  refine (L.kept_demand _ _).bind fun _ _ _ => (L.kept_variableType ht).bind fun type type' h => ?_
  refine L.kept_copy.bind fun _ _ _ => (L.kept_demand _ _).bind fun _ _ _ => L.kept_current.bind fun t t' hu => ?_
  dsimp only
  rw [L.text hu]
  refine L.kept_copy.bind fun _ _ _ => (L.kept_variableOf hV t.text h).bind fun v v' hv => ?_
  exact (L.kept_demand _ _).bind fun _ _ _ => L.kept_copy.map fun _ _ _ => hv

/-! ### Constructs -/

theorem kept_structDefinition :
    L.Kept (Action.Like L.lines V) (structDefinition types) (structDefinition types') := by
  refine L.kept_copy.bind fun _ _ _ => (L.kept_demand _ _).bind fun _ _ _ => L.kept_current.bind fun t t' hu => ?_
  dsimp only
  rw [L.text hu]
  refine L.kept_copy.bind fun _ _ _ => (L.kept_demand _ _).bind fun _ _ _ => L.kept_copy.bind fun _ _ _ => ?_
  refine ((L.kept_declaration hV ht).collectUntil .closeCurly).bind fun fields fields' hf => ?_
  refine (L.kept_demand _ _).bind fun _ _ _ => L.kept_copy.bind fun _ _ _ => (L.kept_demand _ _).bind fun _ _ _ => ?_
  exact L.kept_copy.bind fun _ _ _ => L.kept_newline.map fun _ _ _ => .define t.text hf

theorem kept_uniform : L.Kept (Action.Like L.lines V) (uniform types) (uniform types') :=
  L.kept_copy.bind fun _ _ _ => (L.kept_declaration hV ht).map fun _ _ hv => .declare hv

omit hV ht

theorem kept_request (m : Manner) (expected : String) :
    L.Kept (Action.Like L.lines V) (request m expected) (request m expected) := by
  refine (L.kept_expect _ _).bind ?_
  rintro met _ rfl
  cases met with
  | true =>
    refine L.kept_current.map fun t t' hu => ?_
    rw [L.text hu]
    exact .request m t.text (L.lineOf hu)
  | false => exact L.kept_copy.map fun _ _ _ => .nothing

theorem kept_lateMark : L.Kept Eq lateMark lateMark :=
  fun _ _ hc => ⟨.some rfl, L.output_lateMark hc, hc⟩

theorem kept_templateMark (standsAlone : Bool) :
    L.Kept (Action.Like L.lines V) (templateMark standsAlone) (templateMark standsAlone) := by
  rw [templateMark_eq]
  refine L.kept_lateMark.bind fun _ _ _ => ?_
  split
  · exact (L.kept_report _).map fun _ _ _ => .nothing
  · exact .pure .nothing

include hV ht

/-- **Cursors that belong together lead to actions that ask for the same.** -/
theorem kept_construct (path : Path) (standsAlone : Bool) :
    L.Kept (Action.Like L.lines V) (construct path standsAlone types) (construct path standsAlone types') := by
  refine L.kept_current.bind fun t t' hu => ?_
  have role : t'.role = t.role := by rw [Token.role, Token.role, L.kind hu, L.text hu]
  rw [role]
  cases t.role with
  | inclusion => exact L.kept_request _ _
  | templateMark => exact L.kept_templateMark standsAlone
  | vertexLink =>
    dsimp only
    split
    · exact (L.kept_report _).bind fun _ _ _ => L.kept_request _ _
    · exact L.kept_request _ _
  | structDefinition => exact L.kept_structDefinition hV ht
  | uniform => exact L.kept_uniform hV ht
  | plain => exact L.kept_copy.map fun _ _ _ => .nothing

end Types

end Likeness

end Reader

end ShaderWeave
