import ShaderWeave.Proofs.Declaration.Structs
import ShaderWeave.Proofs.Expansion.Spacing
import ShaderWeave.Proofs.Scope.Growth
import ShaderWeave.Proofs.Weave.Flattening

/-!
# Declarations take effect as a whole

A uniform or a struct type that is read to its end adds one name to the scope. One that is abandoned on the way, in
whichever place, adds nothing: the scope, the files that were visited, the vertex shader and the store of the provider
are as before, and nothing is asked of the provider. Either way, the woven text and the diagnostics are gone on with.

`FileState.AfterUniform` and `FileState.AfterStruct` say what the tokens do to the state, in terms of the grammar alone,
and `FileContext.declarations_are_atomic` that they do so in every state and from every cursor.
-/

namespace ShaderWeave

variable {σ : Type}

namespace FileState

/-! ### What declarations do to a state -/

/-- The uniform is declared, and nothing else changes. -/
structure GainsUniform (s t : FileState σ) (v : Variable) : Prop where
  /-- All but the scope is as before. -/
  rest : t = { s with scope := t.scope }
  /-- One name has the uniform, and the others have what they had. -/
  uniforms : ∀ name, t.scope.uniforms[name]? = if name = v.name then some v else s.scope.uniforms[name]?
  /-- The struct types are as before. -/
  structs : t.scope.structs = s.scope.structs

/-- The struct type is defined unless there is one of its name, and nothing else changes. -/
structure GainsStruct (s t : FileState σ) (name : String) (fields : List Variable) : Prop where
  /-- All but the scope is as before. -/
  rest : t = { s with scope := t.scope }
  /-- The uniforms are as before. -/
  uniforms : t.scope.uniforms = s.scope.uniforms
  /-- A struct type that has been defined keeps its fields. The name is given to the new one if it was free. -/
  structs : ∀ other, t.scope.structs[other]? =
    (s.scope.structs[other]?).or (if other = name then some fields else none)

/-- What becomes of a uniform, given the tokens behind the word `uniform`: the outcome, and the state after it. -/
inductive AfterUniform (s : FileState σ) (ts : List Token) : Option Action → FileState σ → Prop
  /-- The tokens begin with a declaration. -/
  | declared {us rest : List Token} {v : Variable} {fs : List Fault} {t : FileState σ} (split : ts = us ++ rest)
    (h : Phrase.Declaration s.scope.structs us v fs) (gains : s.GainsUniform t v) :
    AfterUniform s ts (some (.declare v)) t
  /-- The tokens begin with none. -/
  | abandoned (h : Phrase.NoDeclaration s.scope.structs ts) : AfterUniform s ts none s

/-- What becomes of a struct type, given the tokens behind the word `struct`: the outcome, and the state after it. -/
inductive AfterStruct (s : FileState σ) (ts : List Token) : Option Action → FileState σ → Prop
  /-- The tokens define a struct type. -/
  | defined {name : String} {fields : List Variable} {t : FileState σ}
    (h : Phrase.StructType s.scope.structs ts name fields) (gains : s.GainsStruct t name fields) :
    AfterStruct s ts (some (.define name fields)) t
  /-- The tokens define none. -/
  | abandoned (h : ∀ name fields, ¬ Phrase.StructType s.scope.structs ts name fields) : AfterStruct s ts none s

theorem gainsUniform_declare (s : FileState σ) (v : Variable) :
    s.GainsUniform { s with scope := s.scope.declare v } v where
  rest := rfl
  uniforms name := by
    refine (s.scope.uniforms_enter (.uniform v) name).trans ?_
    rw [Declared.uniformNamed?]
    by_cases h : v.name = name
    · simp [h]
    · rw [if_neg h, if_neg (Ne.symm h), Option.none_or]
  structs := rfl

theorem gainsStruct_define (s : FileState σ) (name : String) (fields : List Variable) :
    s.GainsStruct { s with scope := s.scope.define name fields } name fields where
  rest := rfl
  uniforms := rfl
  structs other := by
    refine (s.scope.structs_enter (.struct name fields) other).trans ?_
    rw [Declared.structNamed?]
    simp only [eq_comm]

end FileState

namespace FileContext

variable (ctx : FileContext σ)

/-! ### What declarations do to the journal -/

/-- Entries of a construct that asks for no other file: nothing is asked of the provider, and the woven text and the
diagnostics are gone on with, by what has been written and reported while the construct was read. -/
structure GoesOn (o : Outcome Action) (j : Journal) : Prop where
  /-- Nothing is asked of the provider. -/
  calls : Journal.calls j = []
  /-- The tokens that were written are pushed, whatever has been woven before. -/
  weave : ∀ before, Journal.woven ctx.path (before ++ j) =
    (Journal.woven ctx.path before).pushAll (o.written.map (Token.placed ctx.path))
  /-- The text is extended. -/
  text : ∀ before, (Journal.woven ctx.path before).text.toList <+: (Journal.woven ctx.path (before ++ j)).text.toList
  /-- The lines keep their places. -/
  places : ∀ before,
    (Journal.woven ctx.path before).places.toList <+: (Journal.woven ctx.path (before ++ j)).places.toList
  /-- The diagnostics are extended. -/
  diagnostics : ∀ before, Journal.diagnostics ctx.path (before ++ j) =
    Journal.diagnostics ctx.path before ++ o.faults.map fun f => ⟨ctx.path.text, f.2, f.1⟩

/-- A construct that asks for no other file leaves no entry but those of its reading, and one if it is abandoned. -/
theorem exists_silent_finish (s : FileState σ) (c : Cursor) {o : Outcome Action}
    (h : ∀ m written line, o.value ≠ some (.request m written line)) :
    ∃ k, (ctx.finish s c o).2 = o.output.map .output ++ k ∧ (k = [] ∨ ∃ line, k = [.abandon line]) := by
  rw [finish]
  cases value : o.value with
  | none => exact ⟨_, rfl, .inr ⟨_, rfl⟩⟩
  | some action =>
    cases action with
    | request m written line => exact absurd value (h m written line)
    | _ => exact ⟨_, rfl, .inl rfl⟩

/-- A construct that does not ask for another file goes on with the text and with the diagnostics. -/
theorem goesOn_finish (s : FileState σ) (c : Cursor) {o : Outcome Action}
    (h : ∀ m written line, o.value ≠ some (.request m written line)) : ctx.GoesOn o (ctx.finish s c o).2 := by
  obtain ⟨k, entries, silent⟩ := ctx.exists_silent_finish s c h
  have pushes : Journal.pushes ctx.path (ctx.finish s c o).2 = o.written.map (Token.placed ctx.path) := by
    have none : Journal.pushes ctx.path k = [] := by rcases silent with rfl | ⟨line, rfl⟩ <;> rfl
    rw [entries, Journal.pushes_append, none, List.append_nil, Journal.pushes_map_output, Outcome.written]
  have weave (before : Journal) : Journal.woven ctx.path (before ++ (ctx.finish s c o).2) =
      (Journal.woven ctx.path before).pushAll (o.written.map (Token.placed ctx.path)) := by
    rw [Journal.woven_append, pushes]
  refine ⟨?calls, weave, fun before => ?text, fun before => ?places, fun before => ?diagnostics⟩
  case calls =>
    have none : Journal.calls k = [] := by rcases silent with rfl | ⟨line, rfl⟩ <;> rfl
    rw [entries, Journal.calls_append, Journal.calls_map_output, none, List.append_nil]
  case text =>
    rw [weave]
    exact Weave.text_pushAll _ _
  case places =>
    rw [weave]
    exact Weave.places_pushAll _ _
  case diagnostics =>
    have none : Journal.diagnostics ctx.path k = [] := by rcases silent with rfl | ⟨line, rfl⟩ <;> rfl
    rw [entries, Journal.diagnostics_append, Journal.diagnostics_append, none, List.append_nil,
      Journal.diagnostics_map_output, Outcome.faults]

/-! ### Declarations -/

section Declarations

variable {ctx} {s : FileState σ} {c : Cursor}

theorem finish_of_none {o : Outcome Action} (h : o.value = none) : (ctx.finish s c o).1 = s := by
  rw [finish, h]

/-- A uniform asks to be declared, and for nothing else. -/
theorem uniform_value_iff {types : Structs} {action : Action} :
    (Reader.uniform types c).value = some action ↔
      ∃ v, action = .declare v ∧ (Reader.declaration types c).value = some v := by
  rw [Reader.uniform, Reader.value_copy_bind, Reader.value_bind_eq_some_iff]
  simp only [Reader.pure_apply, Option.some.injEq, eq_comm, and_comm]

theorem afterUniform (hc : ∀ t ∈ c.ahead, t.Truthful) :
    let u := Reader.uniform s.scope.structs c
    s.AfterUniform c.view.upcoming u.value (ctx.finish s c u).1 := by
  intro u
  have recognized := Reader.recognizes_declaration s.scope.structs
  cases value : u.value with
  | none =>
    rw [finish_of_none value]
    refine .abandoned fun us rest v fs split phrase => ?_
    have read := (recognized.value_eq_some_iff hc).2 ⟨us, rest, fs, split, phrase⟩
    simp [u, uniform_value_iff.2 ⟨v, rfl, read⟩] at value
  | some action =>
    obtain ⟨v, rfl, read⟩ := uniform_value_iff.1 value
    obtain ⟨us, rest, fs, split, phrase⟩ := (recognized.value_eq_some_iff hc).1 read
    rw [finish, value]
    exact .declared split phrase (s.gainsUniform_declare v)

theorem afterStruct (hc : ∀ t ∈ c.ahead, t.Truthful) :
    let d := Reader.structDefinition s.scope.structs c
    s.AfterStruct c.view.upcoming d.value (ctx.finish s c d).1 := by
  intro d
  cases value : d.value with
  | none =>
    rw [finish_of_none value]
    refine .abandoned fun name fields defined => ?_
    have read := (Reader.structDefinition_value_iff hc).2 ⟨name, fields, rfl, defined⟩
    simp [d, read] at value
  | some action =>
    obtain ⟨name, fields, rfl, defined⟩ := (Reader.structDefinition_value_iff hc).1 value
    rw [finish, value]
    exact .defined defined (s.gainsStruct_define name fields)

end Declarations

/-- **Declarations take effect as a whole or not at all.** From every cursor of a file and in every state, a uniform is
declared and a struct type is defined just as the tokens say, and where they say nothing of the kind, all stays as it
was. In any case the woven text and the diagnostics are gone on with, and nothing is asked of the provider. -/
theorem declarations_are_atomic (s : FileState σ) (text : String) (n : Nat) :
    let c := (Cursor.start (lex text)).skip n
    let u := Reader.uniform s.scope.structs c
    let d := Reader.structDefinition s.scope.structs c
    (s.AfterUniform c.view.upcoming u.value (ctx.finish s c u).1 ∧ ctx.GoesOn u (ctx.finish s c u).2) ∧
    (s.AfterStruct c.view.upcoming d.value (ctx.finish s c d).1 ∧ ctx.GoesOn d (ctx.finish s c d).2) ∧
    ∀ t ∈ c.ahead.head?, (t.role = .uniform → ctx.read s c = u) ∧ (t.role = .structDefinition → ctx.read s c = d) := by
  intro c u d
  have hc : ∀ t ∈ c.ahead, t.Truthful := fun t ht => truthful_of_mem_lex (List.mem_of_mem_drop ht)
  refine ⟨⟨afterUniform hc, ctx.goesOn_finish s c fun m written line => ?uniform⟩,
    ⟨afterStruct hc, ctx.goesOn_finish s c fun m written line => ?struct⟩, fun t ht => ?read⟩
  case uniform =>
    intro value
    obtain ⟨v, asked, -⟩ := uniform_value_iff.1 value
    simp at asked
  case struct =>
    intro value
    obtain ⟨name, fields, asked, -⟩ := (Reader.structDefinition_value_iff hc).1 value
    simp at asked
  case read =>
    obtain ⟨rest, ahead⟩ := List.head?_eq_some_iff.1 (Option.mem_def.1 ht)
    exact ⟨Reader.construct_of_uniform ahead, Reader.construct_of_structDefinition ahead⟩

end FileContext

end ShaderWeave
