import ShaderWeave.Proofs.Declaration.Grammar
import ShaderWeave.Proofs.Lexing.Kinds

/-!
# Declarations are read exactly

`Reader.declaration` and the readers it is made of recognize the phrases of the grammar, each the phrase of its own:
truth values, numbers, lists, initializers, declarations. Since the lexer gives the kind of a truth value to the words
`true` and `false` alone, no truth value that is read can be a bad one.

The main result is `declaration_exact`. It says of every place in the tokens of every text which declaration is read
there and where reading stops, or else which token is at fault, what is reported, and where reading goes on.
-/

namespace ShaderWeave

namespace Reader

variable {α β : Type}

/-! ### Values -/

theorem recognizes_truthValue : truthValue.Recognizes Token.Truthful .Truth := by
  refine recognizes_word ?_ ?_ ?_
  · refine .word (by simp) ⟨⟨.boolean, "true", 0⟩, true, [], by simp, rfl, rfl⟩ ?_
    rintro _ _ _ ⟨-, rfl⟩
    simp
  · rintro t b _ - ⟨ht, rfl⟩ us
    refine (takes_current t us).bind ?_
    cases b with
    | true =>
      have word : t.text = "true" := ht
      rw [if_pos word]
      exact takes_pure true _
    | false =>
      have word : t.text = "false" := ht
      rw [if_neg (by rw [word]; decide), if_pos word]
      exact takes_pure false _
  · intro t hk ht
    obtain ⟨b, hb⟩ := ht (by simpa using hk)
    exact .inl ⟨b, [], hb, rfl⟩

/-- Reads the digits of a number, after its sign. -/
def digits (form : NumberForm α) (negative : Bool) : Reader α := do
  demandOneOf form.kinds form.expected
  let digits := form.digits (← current).text
  match form.value? negative digits with
  | some value => return value
  | none =>
    report (.badNumber (String.ofList (if negative then '-' :: digits else digits)))
    return form.fallback

theorem recognizes_digits (form : NumberForm α) (negative : Bool) {ok : Token → Prop} :
    (digits form negative).Recognizes ok (.Digits form form.kinds negative) := by
  refine recognizes_word ?_ ?_ ?_
  · refine .word ?_ ⟨⟨.integer, "", 0⟩, _, _, form.integer_mem_kinds, rfl, rfl⟩ ?_
    · intro h
      rcases NumberForm.eq_of_mem_kinds h with h | h
      · simp at h
      · simp at h
    · rintro t _ _ ⟨rfl, rfl⟩ f hf
      exact NumberForm.isBadNumber_of_mem_faultsOf hf
  · rintro t _ _ - ⟨rfl, rfl⟩ us
    refine (takes_current t us).bind ?_
    cases h : form.value? negative (form.digits t.text) with
    | some value =>
      simp only [NumberForm.valueOf, h]
      exact takes_pure value _
    | none =>
      simp only [NumberForm.valueOf, h]
      exact (takes_report _ t us).bind (takes_pure form.fallback _)
  · exact fun t _ _ => .inl ⟨_, _, rfl, rfl⟩

theorem number_apply_of_sign {form : NumberForm α} {c : Cursor} (hs : form.signed) (hk : c.nextKind = some .minus) :
    number form c = (expect [.minus] "a minus sign" >>= fun _ => digits form true) c := by
  rw [number, here_bind_apply]
  simp only [hs, hk, Bool.true_and, decide_true, if_true]
  rfl

theorem number_apply_of_noSign {form : NumberForm α} {c : Cursor}
    (h : ¬ (form.signed ∧ c.nextKind = some .minus)) : number form c = digits form false c := by
  have h' : (form.signed && decide (c.nextKind = some .minus)) = false := by simpa using h
  rw [number, here_bind_apply]
  simp only [h', Bool.false_eq_true, if_false]
  rfl

theorem number_eq_of_unsigned {form : NumberForm α} (hs : form.signed = false) : number form = digits form false := by
  funext c
  exact number_apply_of_noSign (by simp [hs])

/-- Where a minus sign comes next, expecting one cannot fail, so it may as well be demanded. -/
theorem number_eq_of_signed {form : NumberForm α} (hs : form.signed = true) :
    number form = here >>= fun c => if c.nextKind = some .minus then
      demand .minus "a minus sign" >>= fun _ => digits form true else digits form false := by
  funext c
  rw [here_bind_apply]
  by_cases hk : c.nextKind = some .minus
  · rw [if_pos hk, number_apply_of_sign hs hk, expect_bind_apply hk]
  · rw [if_neg hk, number_apply_of_noSign (by simp [hk])]

theorem recognizes_unsigned (form : NumberForm α) {ok : Token → Prop} (hs : form.signed = false) :
    (number form).Recognizes ok (.Digits form form.kinds false) := by
  rw [number_eq_of_unsigned hs]
  exact recognizes_digits form false

theorem recognizes_signed (form : NumberForm α) {ok : Token → Prop} (hs : form.signed = true) :
    (number form).Recognizes ok (.Signed form form.kinds) := by
  rw [number_eq_of_signed hs]
  have hk : ∀ {negative ts a fs}, Phrase.Digits form form.kinds negative ts a fs →
      ∃ t us, ts = t :: us ∧ t.kind ≠ .minus := by
    rintro negative _ _ _ ⟨hk, -⟩
    refine ⟨_, _, rfl, fun h => ?_⟩
    rcases NumberForm.eq_of_mem_kinds hk with hk | hk
    · simp [h] at hk
    · simp [h] at hk
  refine ((recognizes_digits form false).orAhead ((recognizes_demand (by simp)).bind fun _ =>
    recognizes_digits form true) hk ?_).of_iff ?_
  · intro _ _ _ h
    obtain ⟨t, us, rfl, hm, -⟩ := Phrase.ofKind_then_iff.1 h
    exact ⟨t, us, rfl, hm⟩
  · intro ts a fs
    constructor
    · rintro (h | h)
      · exact .bare h
      · obtain ⟨t, us, rfl, hm, h⟩ := Phrase.ofKind_then_iff.1 h
        exact .negated hm h
    · rintro (h | ⟨hm, h⟩)
      · exact .left h
      · exact .right (Phrase.ofKind_then_iff.2 ⟨_, _, rfl, hm, h⟩)

/-- **Lists are recognized if their elements are.** -/
theorem recognizes_list {one : Reader α} {ok : Token → Prop} {G : Phrase α} (h : one.Recognizes ok G) (n : Nat) :
    (list one n).Recognizes ok (G.Separated n) := by
  induction n using list.induct with
  | case1 =>
    refine (recognizes_pure []).of_iff fun ts as fs => ?_
    constructor
    · rintro ⟨⟩
      exact .none
    · rintro ⟨⟩
      exact Phrase.Nothing.intro
  | case2 =>
    refine (h.bind fun a => recognizes_pure [a]).of_iff fun ts as fs => ?_
    rw [Phrase.then_nothing_iff]
    constructor
    · rintro ⟨a, first, rfl⟩
      exact .one first
    · rintro (_ | first)
      exact ⟨_, first, rfl⟩
  | case3 n ih =>
    refine (h.bind fun a => (recognizes_demand (by simp)).bind fun _ => ih.bind fun as =>
      recognizes_pure (a :: as)).of_iff fun ts as fs => ?_
    constructor
    · rintro ⟨first, h⟩
      obtain ⟨comma, us, rfl, hc, h⟩ := Phrase.ofKind_then_iff.1 h
      obtain ⟨as, rest, rfl⟩ := Phrase.then_nothing_iff.1 h
      exact .more first hc rest
    · rintro (_ | _ | ⟨first, hc, rest⟩)
      exact .intro first (Phrase.ofKind_then_iff.2 ⟨_, _, rfl, hc, Phrase.then_nothing_iff.2 ⟨_, rest, rfl⟩⟩)

theorem recognizes_listed {one : Reader α} {ok : Token → Prop} {G : Phrase α} (h : one.Recognizes ok G) (n : Nat)
    (wrap : List α → β) : (list one n >>= fun as => pure (wrap as)).Recognizes ok (.Listed n wrap G) := by
  refine ((recognizes_list h n).bind fun as => recognizes_pure (wrap as)).of_iff fun ts b fs => ?_
  rw [Phrase.then_nothing_iff]
  constructor
  · rintro ⟨as, hs, rfl⟩
    exact .intro hs
  · rintro ⟨hs⟩
    exact ⟨_, hs, rfl⟩

theorem recognizes_values (n : Nat) (element : Element) :
    (values n element).Recognizes Token.Truthful (.Components n element) := by
  cases element with
  | boolean => exact recognizes_listed recognizes_truthValue n Values.boolean
  | integer => exact recognizes_listed (recognizes_signed .integer rfl) n Values.integer
  | unsigned => exact recognizes_listed (recognizes_unsigned .unsigned rfl) n Values.unsigned
  | single => exact recognizes_listed (recognizes_signed .single rfl) n Values.single
  | double => exact recognizes_listed (recognizes_signed .double rfl) n Values.double

/-! ### Initializers -/

/-- Reads an equals sign and the values after it. -/
def assignment (element : Element) (size : Nat) : Reader Values := do
  demand .equals "an equals sign"
  if size = 1 then values size element
  else
    demand .openParen "an opening parenthesis"
    let vs ← values size element
    demand .closeParen "a closing parenthesis"
    return vs

theorem recognizes_assignment (element : Element) (size : Nat) :
    (assignment element size).Recognizes Token.Truthful (.Assignment element size) := by
  by_cases hs : size = 1
  · have h : assignment element size = demand .equals "an equals sign" >>= fun _ => values size element := by
      simp only [assignment, if_pos hs]
    rw [h]
    refine ((recognizes_demand (by simp)).bind fun _ => recognizes_values size element).of_iff fun ts vs fs => ?_
    rw [Phrase.ofKind_then_iff]
    constructor
    · rintro ⟨equals, ts, rfl, he, h⟩
      exact .bare hs he h
    · rintro (⟨-, he, h⟩ | ⟨hs', -⟩)
      · exact ⟨_, _, rfl, he, h⟩
      · exact absurd hs hs'
  · have h : assignment element size = (do
        demand .equals "an equals sign"
        demand .openParen "an opening parenthesis"
        let vs ← values size element
        demand .closeParen "a closing parenthesis"
        return vs) := by
      simp only [assignment, if_neg hs]
    rw [h]
    refine ((recognizes_demand (by simp)).bind fun _ => (recognizes_demand (by simp)).bind fun _ =>
      (recognizes_values size element).bind fun vs => (recognizes_demand (by simp)).bind fun _ =>
      recognizes_pure vs).of_iff fun ts vs fs => ?_
    rw [Phrase.ofKind_then_iff]
    constructor
    · rintro ⟨equals, us, rfl, he, h⟩
      obtain ⟨opening, us, rfl, ho, h⟩ := Phrase.ofKind_then_iff.1 h
      obtain ⟨us, closing, vs, rfl, hvs, hc, rfl⟩ := Phrase.then_ofKind_iff.1 h
      exact .enclosed hs he ho hvs hc
    · rintro (⟨hs', -⟩ | ⟨-, he, ho, h, hc⟩)
      · exact absurd hs' hs
      · exact ⟨_, _, rfl, he, Phrase.ofKind_then_iff.2 ⟨_, _, rfl, ho,
          Phrase.then_ofKind_iff.2 ⟨_, _, _, rfl, h, hc, rfl⟩⟩⟩

theorem initialValues_bind (element : Element) (size : Nat) (f : Values → Reader β) :
    initialValues element size >>= f = here >>= fun c =>
      if c.nextKind = some .equals then assignment element size >>= f else f (element.zeros size) := by
  funext c
  rw [initialValues, bind_assoc, here_bind_apply, here_bind_apply]
  by_cases h : c.nextKind = some .equals
  · rw [if_neg (by simpa using h), if_pos h]
    rfl
  · rw [if_pos h, if_neg h, pure_bind]

/-! ### Declarations -/

/-- Reads the type of a declaration. -/
def typeWord (types : Structs) : Reader VariableType := do
  demand .keyword "a type"
  let type ← variableType types
  copy
  return type

/-- Reads the name of a declaration. -/
def nameWord : Reader String := do
  demand .keyword "a variable name"
  let t ← current
  copy
  return t.text

/-- Reads the end of a declaration. -/
def ending (v : Variable) : Reader Variable := do
  demand .semicolon "a semicolon"
  copy
  return v

theorem declaration_eq (types : Structs) :
    declaration types =
      typeWord types >>= fun type => nameWord >>= fun name => variableOf name type >>= ending := by
  simp only [declaration, typeWord, nameWord, bind_assoc, pure_bind]
  rfl

theorem takes_variableType {types : Structs} {t : Token} {type : VariableType} (h : Denotes types t.text type)
    (us : List Token) : (variableType types).Takes ⟨some t, us⟩ type [] ⟨some t, us⟩ := by
  refine (takes_current t us).bind ?_
  rw [variableType?_eq_some_iff.2 h]
  exact takes_pure type _

theorem refuses_variableType {types : Structs} {t : Token} (h : ∀ type, ¬ Denotes types t.text type)
    (us : List Token) : (variableType types).Refuses ⟨some t, us⟩ [] (typeProblem t.text) ⟨some t, us⟩ := by
  refine (takes_current t us).bind_refuses ?_
  have none : variableType? types t.text = none :=
    Option.eq_none_iff_forall_ne_some.2 fun type ht => h type (variableType?_eq_some_iff.1 ht)
  rw [none]
  exact refuses_report_abandon _ _

/-- A word that names no type is the one word that is abandoned though it is of the right kind. -/
theorem recognizes_typeWord (types : Structs) {ok : Token → Prop} :
    (typeWord types).Recognizes ok (.Word [.keyword] fun t type fs => Denotes types t.text type ∧ fs = []) := by
  refine recognizes_word ?_ ?_ ?_
  · have bool : Denotes types "bool" (.values .boolean 1) := .scalar (by simp [NamesScalar, scalarWords])
    refine .word (by simp) ⟨⟨.keyword, "bool", 0⟩, _, [], by simp, bool, rfl⟩ ?_
    rintro _ _ _ ⟨-, rfl⟩
    simp
  · rintro t type _ - ⟨h, rfl⟩ us
    exact (takes_variableType h us).bind ((takes_copy _).bind (takes_pure type _))
  · intro t _ _
    by_cases h : ∃ type, Denotes types t.text type
    · obtain ⟨type, h⟩ := h
      exact .inl ⟨type, [], h, rfl⟩
    · refine .inr ⟨typeProblem t.text, typeProblem_blames t, fun us => ?_⟩
      exact (refuses_variableType (fun type ht => h ⟨type, ht⟩) us).bind

theorem recognizes_nameWord {ok : Token → Prop} :
    nameWord.Recognizes ok (.Word [.keyword] fun t name fs => name = t.text ∧ fs = []) := by
  refine recognizes_word ?_ ?_ fun t _ _ => .inl ⟨_, _, rfl, rfl⟩
  · refine .word (by simp) ⟨⟨.keyword, "", 0⟩, _, _, by simp, rfl, rfl⟩ ?_
    rintro _ _ _ ⟨-, rfl⟩
    simp
  · rintro t _ _ - ⟨rfl, rfl⟩ us
    exact (takes_current t us).bind ((takes_copy _).bind (takes_pure _ _))

theorem recognizes_ending (v : Variable) {ok : Token → Prop} :
    (ending v).Recognizes ok ((Phrase.OfKind .semicolon).Then fun _ => .Nothing v) :=
  (recognizes_demand (by simp)).bind fun _ => recognizes_copy_pure v

theorem recognizes_group (name : String) (fields : List Variable) {ok : Token → Prop} :
    (variableOf name (.group fields) >>= ending).Recognizes ok (.Ending name (.group fields)) := by
  rw [variableOf, pure_bind]
  refine (recognizes_ending _).of_iff fun ts v fs => ?_
  rw [Phrase.ofKind_then_iff]
  constructor
  · rintro ⟨stop, _, rfl, hs, ⟨⟩⟩
    exact .group hs
  · rintro (_ | hs)
    exact ⟨_, _, rfl, hs, .intro⟩

theorem recognizes_initialized (name : String) (element : Element) (size : Nat) :
    (variableOf name (.values element size) >>= ending).Recognizes Token.Truthful
      (.Ending name (.values element size)) := by
  have h : variableOf name (.values element size) >>= ending =
      initialValues element size >>= fun vs => ending (.value name vs) := by
    simp only [variableOf, bind_assoc, pure_bind]
  rw [h, initialValues_bind]
  -- one token decides: what follows an absent initializer is a semicolon, and a present one begins with an equals sign
  refine ((recognizes_ending _).orAhead ((recognizes_assignment element size).bind fun vs =>
    recognizes_ending (.value name vs)) ?_ ?_).of_iff fun ts v fs => ?_
  · intro _ _ _ h
    obtain ⟨stop, us, rfl, hs, -⟩ := Phrase.ofKind_then_iff.1 h
    exact ⟨stop, us, rfl, by simp [hs]⟩
  · rintro _ _ _ ⟨(⟨-, he, -⟩ | ⟨-, he, -⟩), -⟩
    · exact ⟨_, _, rfl, he⟩
    · exact ⟨_, _, rfl, he⟩
  · constructor
    · rintro (h | h)
      · obtain ⟨stop, us, rfl, hs, ⟨⟩⟩ := Phrase.ofKind_then_iff.1 h
        exact .value .absent hs
      · obtain ⟨us, stop, vs, rfl, hvs, hs, rfl⟩ := Phrase.then_ofKind_iff.1 h
        exact .value (.present hvs) hs
    · rintro (⟨(_ | hvs), hs⟩ | _)
      · exact .left (Phrase.ofKind_then_iff.2 ⟨_, _, rfl, hs, .intro⟩)
      · exact .right (Phrase.then_ofKind_iff.2 ⟨_, _, _, rfl, hvs, hs, rfl⟩)

/-- **Declarations are recognized.** -/
theorem recognizes_declaration (types : Structs) :
    (declaration types).Recognizes Token.Truthful (.Declaration types) := by
  have ends (name : String) (type : VariableType) :
      (variableOf name type >>= ending).Recognizes Token.Truthful (.Ending name type) := by
    cases type with
    | values element size => exact recognizes_initialized name element size
    | group fields => exact recognizes_group name fields
  rw [declaration_eq]
  refine ((recognizes_typeWord types).bind fun type => recognizes_nameWord.bind fun name =>
    ends name type).of_iff fun ts v fs => ?_
  rw [Phrase.word_then_iff]
  constructor
  · rintro ⟨word, us, type, _, fs, rfl, rfl, hw, ⟨hd, rfl⟩, rest⟩
    obtain ⟨name, us, _, _, fs, rfl, rfl, hn, ⟨rfl, rfl⟩, he⟩ := Phrase.word_then_iff.1 rest
    exact .intro (by simpa using hw) hd (by simpa using hn) he
  · rintro ⟨hw, hd, hn, he⟩
    exact ⟨_, _, _, [], fs, rfl, rfl, by simp [hw], ⟨hd, rfl⟩,
      Phrase.word_then_iff.2 ⟨_, _, _, [], fs, rfl, rfl, by simp [hn], ⟨rfl, rfl⟩, he⟩⟩

/-- A declaration ends with a semicolon. -/
theorem ends_with_semicolon {types : Structs} {ts : List Token} {v : Variable} {fs : List Fault}
    (h : Phrase.Declaration types ts v fs) : ∃ us stop, ts = us ++ [stop] ∧ stop.kind = .semicolon := by
  rcases h with ⟨-, -, -, (⟨-, hs⟩ | hs)⟩
  · exact ⟨_ :: _ :: _, _, rfl, hs⟩
  · exact ⟨[_, _], _, rfl, hs⟩

/-- **Declarations are read exactly.** A declaration is read from a cursor if and only if the tokens after the cursor,
their blanks left out, begin with one. Then the cursor ends on its semicolon, and nothing but numbers out of range is
reported. Otherwise one problem is reported on the first token with which no declaration goes on, and the cursor
rests on the next semicolon from there. -/
theorem declaration_exact (types : Structs) (text : String) (n : Nat) :
    let c := (Cursor.start (lex text)).skip n
    let o := declaration types c
    (∀ v, o.value = some v ↔
      ∃ ts rest fs, significant (c.ahead.drop 1) = ts ++ rest ∧ Phrase.Declaration types ts v fs) ∧
    (∀ v, o.value = some v → ∃ raw stop rest, stop.kind = .semicolon ∧
      Accepted (.Declaration types) c o v raw stop rest) ∧
    (o.value = none → ∃ raw rest fs p, Rejected (.Declaration types) c o raw rest fs p) := by
  intro c o
  have hc : ∀ t ∈ c.ahead, t.Truthful := fun t ht => truthful_of_mem_lex (List.mem_of_mem_drop ht)
  have recognized := recognizes_declaration types
  refine ⟨fun v => recognized.value_eq_some_iff hc, ?_, recognized.rejected hc⟩
  intro v value
  obtain ⟨ts, us, fs, split, phrase⟩ := (recognized.value_eq_some_iff hc).1 value
  obtain ⟨ts, stop, rfl, hs⟩ := ends_with_semicolon phrase
  obtain ⟨raw, rest, accepted⟩ := recognized.accepted phrase (by simpa using split)
  exact ⟨raw, stop, rest, hs, accepted⟩

end Reader

end ShaderWeave
