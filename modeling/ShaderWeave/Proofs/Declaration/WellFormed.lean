import ShaderWeave.Proofs.Declaration.Trimming
import ShaderWeave.Proofs.Scope.WellFormed
import ShaderWeave.Proofs.Reader.Tracing

/-!
# What constructs declare is well-formed

`Reader.Yields` says of a reader what it gives wherever it is not abandoned, on tokens of which something is known. What
the readers of the tokens of a text give is well-formed: the variables that are declared, as the grammar of declarations
shows, the struct types that are defined, and so whatever a construct asks to add to a scope (`yields_construct`).
-/

namespace ShaderWeave

/-- What the lexer guarantees of the tokens of a text. -/
structure Token.Faithful (t : Token) : Prop where
  /-- Truth values read true or false. -/
  truthful : t.Truthful
  /-- Words are identifiers. -/
  named : t.Named

theorem faithful_of_mem_lex {text : String} {t : Token} (h : t ∈ lex text) : t.Faithful :=
  ⟨truthful_of_mem_lex h, named_of_mem_lex h⟩

/-! ### Phrases -/

/-- A digit from one to nine stands for a number from one to nine. -/
theorem NamesVector.size_bounds {word : String} {element : Element} {size : Nat} (h : NamesVector word element size) :
    1 ≤ size ∧ size ≤ 9 := by
  obtain ⟨_, digit, -, h1, h9, rfl, -⟩ := h
  have low : 49 ≤ digit.toNat := h1
  have high : digit.toNat ≤ 57 := h9
  have zero : '0'.toNat = 48 := rfl
  omega

namespace Phrase

variable {types : Structs} {ts : List Token} {v : Variable} {fs : List Fault}

/-- As many values are read as there are components. -/
theorem size_of_initializer {size : Nat} {element : Element} {vs : Values} (h : Initializer element size ts vs fs) :
    vs.size = size := by
  have same := congrArg Values.size (zeroed_of_initializer h)
  rwa [Values.zeroed, Values.size_zeros, Values.size_zeros] at same

/-- What follows the name of a variable makes it well-formed. -/
theorem Ending.wellFormed {name word : String} {type : VariableType} (hn : IsIdentifier name)
    (htypes : types.WellFormed) (hd : Denotes types word type) (h : Ending name type ts v fs) : v.WellFormed types := by
  cases h with
  | value hi =>
    have size := size_of_initializer hi
    cases hd with
    | scalar => exact .value hn (by omega) (by omega)
    | vector hv =>
      obtain ⟨pos, le⟩ := hv.size_bounds
      exact .value hn (by omega) (by omega)
  | group =>
    cases hd with
    | struct _ _ defined => exact .group hn defined (htypes word _ defined).2

/-- **A declaration declares a well-formed variable.** -/
theorem Declaration.wellFormed (htypes : types.WellFormed) (hts : ∀ t ∈ ts, t.Faithful)
    (h : Declaration types ts v fs) : v.WellFormed types := by
  obtain ⟨-, hd, hn, ending⟩ := h
  exact ending.wellFormed ((hts _ (by simp)).named hn) htypes hd

end Phrase

namespace Reader

/-! ### What readers give -/

/-- On tokens of a text, the reader gives only what `Q` says, unless it is abandoned. -/
def Yields {α : Type} (Q : α → Prop) (r : Reader α) : Prop :=
  ∀ (c : Cursor) (a : α), (∀ t ∈ c.ahead, t.Faithful) → (r c).value = some a → Q a

section Yields

variable {α β : Type} {P : α → Prop} {Q : β → Prop} {r : Reader α} {f : α → Reader β}

theorem yields_true (r : Reader α) : r.Yields fun _ => True :=
  fun _ _ _ _ => trivial

theorem yields_pure {a : α} (h : P a) : (pure a : Reader α).Yields P := by
  intro c b _ value
  obtain rfl : a = b := Option.some.inj value
  exact h

/-- What the second reader gives rests on what the first one gives. -/
theorem Yields.bind (hr : r.Yields P) (hf : ∀ a, P a → (f a).Yields Q) : (r >>= f).Yields Q := by
  intro c b hc value
  obtain ⟨a, first, second⟩ := value_bind_eq_some_iff.1 value
  exact hf a (hr c a hc first) _ b (fun t ht => hc t (List.mem_of_mem_drop ht)) second

/-- A reader whose value does not matter may come first. -/
theorem Yields.after (hf : ∀ a, (f a).Yields Q) : (r >>= f).Yields Q :=
  (yields_true r).bind fun a _ => hf a

/-- A word that is demanded is an identifier. -/
theorem yields_word {f : Token → Reader β} (expected : String)
    (hf : ∀ t : Token, IsIdentifier t.text → (f t).Yields Q) :
    (demand .keyword expected >>= fun _ => current >>= f).Yields Q := by
  intro c b hc value
  obtain ⟨_, first, second⟩ := value_bind_eq_some_iff.1 value
  obtain ⟨t, rest, ahead, hk⟩ := endsOn_demand .keyword expected c _ first
  rw [bind_apply_of_still (current_apply ahead)] at second
  have there : ∀ u ∈ (c.skip (demand .keyword expected c).steps).ahead, u.Faithful :=
    fun u hu => hc u (List.mem_of_mem_drop hu)
  have word : t.Faithful := there t (by rw [ahead]; exact List.mem_cons_self)
  exact hf t (word.named hk) _ b there second

/-- What is collected is what the reader gives each time. -/
theorem Yields.collectUntil (stop : Token.Kind) {progress : ∀ c, 0 < (r c).steps} (hr : r.Yields P) :
    Yields (fun as => ∀ a ∈ as, P a) (collectUntil stop r progress) := by
  intro c as hc value
  induction c using collectUntil.induct stop r progress generalizing as with
  | case1 c h =>
    rw [collectUntil_of_stop h] at value
    obtain rfl := Option.some.inj value
    simp
  | case2 c h _ ih =>
    rw [collectUntil_of_more h] at value
    obtain rfl := Option.some.inj value
    intro a ha
    rcases List.mem_append.1 ha with ha | ha
    · exact hr c a hc (by simpa using ha)
    · cases hm : (Reader.collectUntil stop r progress (c.skip (r c).steps)).value with
      | none => simp [hm] at ha
      | some more =>
        rw [hm] at ha
        exact ih more (fun t ht => hc t (List.mem_of_mem_drop ht)) hm a ha

end Yields

/-! ### Constructs -/

variable {types : Structs}

/-- The variable that is read is well-formed. -/
theorem yields_declaration (h : types.WellFormed) : (declaration types).Yields (Variable.WellFormed types) := by
  intro c v hc value
  obtain ⟨ts, rest, fs, split, phrase⟩ :=
    ((recognizes_declaration types).value_eq_some_iff fun t ht => (hc t ht).truthful).1 value
  refine phrase.wellFormed h fun t ht => ?_
  have mem : t ∈ significant (c.ahead.drop 1) := split ▸ List.mem_append_left rest ht
  exact hc t (List.mem_of_mem_drop (List.mem_filter.1 mem).1)

end Reader

/-- What a construct asks for may be added to a scope with these struct types. -/
inductive Action.WellFormed (types : Structs) : Action → Prop
  /-- Nothing is added. -/
  | nothing : WellFormed types .nothing
  /-- A file is opened. -/
  | request (manner : Manner) (written : String) (line : Nat) : WellFormed types (.request manner written line)
  /-- The uniform is well-formed. -/
  | declare {v : Variable} (h : v.WellFormed types) : WellFormed types (.declare v)
  /-- The name of the struct type is an identifier, and its fields are well-formed. -/
  | define {name : String} {fields : List Variable} (named : IsIdentifier name)
    (each : ∀ field ∈ fields, field.WellFormed types) : WellFormed types (.define name fields)

namespace Reader

variable {types : Structs}

theorem yields_request (manner : Manner) (expected : String) :
    (request manner expected).Yields (Action.WellFormed types) := by
  unfold request
  refine .after fun found => ?_
  cases found with
  | true => exact .after fun t => yields_pure (.request manner t.text t.line)
  | false => exact .after fun _ => yields_pure .nothing

theorem yields_templateMark (standsAlone : Bool) : (templateMark standsAlone).Yields (Action.WellFormed types) := by
  unfold templateMark
  have second : Yields (Action.WellFormed types)
      (if standsAlone then report .unfilledTemplate >>= fun _ => pure .nothing else pure .nothing) := by
    split
    · exact .after fun _ => yields_pure .nothing
    · exact yields_pure .nothing
  refine .after fun c => ?_
  dsimp only
  split
  · exact .after fun _ => second
  · exact second

theorem yields_structDefinition (h : types.WellFormed) :
    (structDefinition types).Yields (Action.WellFormed types) := by
  refine .after fun _ => yields_word "a struct name" fun name named => ?_
  refine .after fun _ => .after fun _ => .after fun _ => ?_
  refine ((yields_declaration h).collectUntil .closeCurly).bind fun fields each => ?_
  -- what is left are the two tokens at the end and the newline after them
  exact .after fun _ => .after fun _ => .after fun _ => .after fun _ => .after fun _ =>
    yields_pure (.define named each)

theorem yields_uniform (h : types.WellFormed) : (uniform types).Yields (Action.WellFormed types) :=
  .after fun _ => (yields_declaration h).bind fun _ hv => yields_pure (.declare hv)

/-- **What a construct adds to a scope is well-formed.** -/
theorem yields_construct (h : types.WellFormed) (path : Path) (standsAlone : Bool) :
    (construct path standsAlone types).Yields (Action.WellFormed types) := by
  unfold construct
  refine .after fun t => ?_
  cases t.role with
  | inclusion => exact yields_request _ _
  | templateMark => exact yields_templateMark standsAlone
  | vertexLink =>
    dsimp only
    split
    · exact .after fun _ => yields_request _ _
    · exact yields_request _ _
  | structDefinition => exact yields_structDefinition h
  | uniform => exact yields_uniform h
  | plain => exact .after fun _ => yields_pure .nothing

end Reader

end ShaderWeave
