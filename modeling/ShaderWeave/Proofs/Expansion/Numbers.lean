import ShaderWeave.Proofs.Declaration.Numerals
import ShaderWeave.Proofs.Expansion.Declaring

/-!
# Numbers that do not fit

A number that is out of the range or the form of its type is reported and read as zero, and the declaration around it
goes on. So a declaration whose values are numbers declares its variable whichever of them fit, and each that does not
is reported once.

`Phrase.Numbered` spells out the declarations whose values are numbers. What becomes of a number in it is told by
`Numeral.ReadExactly`, and `FileContext.numbers_are_checked` puts the two together: the uniform is declared, with these
problems and no others.
-/

namespace ShaderWeave

variable {α : Type}

/-- The values of a type are numbers: how they are written, and what a list of them is. -/
inductive Element.Numeric : Element → {α : Type} → NumberForm α → (List α → Values) → Prop
  /-- Whole numbers with a sign. -/
  | integer : Numeric .integer .integer .integer
  /-- Whole numbers without a sign. -/
  | unsigned : Numeric .unsigned .unsigned .unsigned
  /-- Single-precision numbers. -/
  | single : Numeric .single .single .single
  /-- Double-precision numbers. -/
  | double : Numeric .double .double .double

namespace Phrase

/-- A number of a text, with what it is read as. -/
def Number (text : String) (form : NumberForm α) : Phrase α := fun ts x fs =>
  ∃ n : Numeral, n.OfText text ∧ ts = n.tokens ∧ (Reader.number form).Reads ts x fs

/-- A declaration with numbers for its values, from its type to its semicolon. -/
inductive Numbered (text : String) (types : Structs) : Phrase Variable
  /-- One number stands alone. -/
  | scalar {α : Type} {form : NumberForm α} {wrap : List α → Values} {element : Element}
    {word name equals stop : Token} {ts : List Token} {x : α} {fs : List Fault} (numeric : element.Numeric form wrap)
    (hw : word.kind = .keyword) (hd : Denotes types word.text (.values element 1)) (hn : name.kind = .keyword)
    (he : equals.kind = .equals) (number : Number text form ts x fs) (hs : stop.kind = .semicolon) :
    Numbered text types (word :: name :: equals :: (ts ++ [stop])) (.value name.text (wrap [x])) fs
  /-- Several numbers stand in parentheses. -/
  | vector {α : Type} {form : NumberForm α} {wrap : List α → Values} {element : Element} {size : Nat}
    {word name equals opening closing stop : Token} {ts : List Token} {xs : List α} {fs : List Fault}
    (numeric : element.Numeric form wrap) (hw : word.kind = .keyword) (several : size ≠ 1)
    (hd : Denotes types word.text (.values element size)) (hn : name.kind = .keyword) (he : equals.kind = .equals)
    (ho : opening.kind = .openParen) (numbers : Separated (Number text form) size ts xs fs)
    (hc : closing.kind = .closeParen) (hs : stop.kind = .semicolon) :
    Numbered text types (word :: name :: equals :: opening :: (ts ++ [closing, stop])) (.value name.text (wrap xs)) fs

theorem Separated.imp {G H : Phrase α} (h : ∀ {ts a fs}, G ts a fs → H ts a fs) {n : Nat} {ts : List Token}
    {as : List α} {fs : List Fault} (hs : Separated G n ts as fs) : Separated H n ts as fs := by
  induction hs with
  | none => exact .none
  | one first => exact .one (h first)
  | more first hc _ ih => exact .more (h first) hc ih

/-- Numbers are values of their type. -/
theorem components_of_numbers {text : String} {form : NumberForm α} {wrap : List α → Values} {element : Element}
    (numeric : element.Numeric form wrap) {size : Nat} {ts : List Token} {xs : List α} {fs : List Fault}
    (h : Separated (Number text form) size ts xs fs) : Components size element ts (wrap xs) fs := by
  have signed {β : Type} {form : NumberForm β} (hs : form.signed = true) {ts : List Token} {x : β} {fs : List Fault} :
      Number text form ts x fs → Signed form form.kinds ts x fs := by
    rintro ⟨n, ofText, rfl, reads⟩
    exact ((Reader.recognizes_signed form hs).reads_iff ofText.solid).1 reads
  cases numeric with
  | integer => exact .intro (h.imp (signed rfl))
  | unsigned =>
    refine .intro (h.imp ?_)
    rintro _ _ _ ⟨n, ofText, rfl, reads⟩
    exact ((Reader.recognizes_unsigned .unsigned rfl).reads_iff ofText.solid).1 reads
  | single => exact .intro (h.imp (signed rfl))
  | double => exact .intro (h.imp (signed rfl))

/-- A declaration with numbers is a declaration. -/
theorem Numbered.declaration {text : String} {types : Structs} {ts : List Token} {v : Variable} {fs : List Fault}
    (h : Numbered text types ts v fs) : Declaration types ts v fs := by
  cases h with
  | scalar numeric hw hd hn he number hs =>
    have values := components_of_numbers numeric (.one number)
    exact .intro hw hd hn (.value (.present (.bare rfl he values)) hs)
  | @vector _ _ _ _ _ _ _ _ _ _ _ ts _ _ numeric hw several hd hn he ho numbers hc hs =>
    have values := components_of_numbers numeric numbers
    have whole := Declaration.intro hw hd hn (.value (.present (.enclosed several he ho values hc)) hs)
    simpa using whole

end Phrase

namespace Reader

theorem reads_numbered {text : String} {types : Structs} {ts : List Token} {v : Variable} {fs : List Fault}
    (h : Phrase.Numbered text types ts v fs) : (declaration types).Reads ts v fs :=
  (recognizes_declaration types).reads h.declaration

/-- A uniform goes as far as its declaration. -/
theorem Reads.uniform {types : Structs} {ts : List Token} {v : Variable} {fs : List Fault}
    (h : (declaration types).Reads ts v fs) : (Reader.uniform types).Reads ts (.declare v) fs := by
  intro u rest
  have read : (Reader.uniform types).Takes ⟨u, ts ++ rest⟩ (.declare v) ([] ++ (fs ++ [])) ⟨ts.getLast?.or u, rest⟩ :=
    (takes_copy _).bind ((h u rest).bind (takes_pure _ _))
  rwa [List.nil_append, List.append_nil] at read

end Reader

/-! ### The main result -/

namespace FileContext

variable {σ : Type} (ctx : FileContext σ)

/-- **Numbers are checked against the range or the form of their type, and no declaration falters over one.** Each
number of a text is taken as it is or stands for zero, as its text says. A declaration whose values are numbers is read
to its semicolon, of a field and of a uniform alike, and nothing is reported but what is reported of its numbers. The
uniform is declared with these values, and the diagnostics are gone on with by these problems. -/
theorem numbers_are_checked (text : String) :
    (∀ n : Numeral, n.OfText text → n.ReadExactly) ∧
    (∀ types ts v fs, Phrase.Numbered text types ts v fs → (Reader.declaration types).Reads ts v fs) ∧
    ∀ (s : FileState σ) (c : Cursor) (t : Token) (ts rest : List Token) (v : Variable) (fs : List Fault),
      c.ahead.head? = some t → t.role = .uniform → c.view.upcoming = ts ++ rest →
      Phrase.Numbered text s.scope.structs ts v fs →
      let o := ctx.read s c
      let done := ctx.finish s c o
      o.value = some (.declare v) ∧ (c.skip o.steps).view = ⟨ts.getLast?, rest⟩ ∧ s.GainsUniform done.1 v ∧
        ∀ before, Journal.diagnostics ctx.path (before ++ done.2) =
          Journal.diagnostics ctx.path before ++ fs.map fun f => ⟨ctx.path.text, f.2, f.1⟩ := by
  refine ⟨fun n h => h.readExactly, fun _ _ _ _ => Reader.reads_numbered, ?_⟩
  intro s c t ts rest v fs head role split numbered o done
  obtain ⟨more, ahead⟩ := List.head?_eq_some_iff.1 head
  have uniform : o = Reader.uniform s.scope.structs c := Reader.construct_of_uniform ahead role
  obtain ⟨value, faults, sight⟩ := (Reader.reads_numbered numbered).uniform c.view.under rest c (by rw [← split])
  rw [← uniform] at value faults sight
  have solid : ts.getLast?.or c.view.under = ts.getLast? := by
    obtain ⟨us, stop, rfl, -⟩ := Reader.ends_with_semicolon numbered.declaration
    rw [List.getLast?_concat, Option.some_or]
  rw [solid] at sight
  have state : done.1 = { s with scope := s.scope.declare v } := by
    simp only [done, finish, value, perform]
  have goesOn := ctx.goesOn_finish s c (o := o) (by simp [value])
  refine ⟨value, sight, state ▸ s.gainsUniform_declare v, fun before => ?_⟩
  rw [← faults]
  exact goesOn.diagnostics before

/-- A value that is too small by one is reported with its sign, and the uniform is declared as zero. -/
theorem numbers_are_checked_below :
    let text := "uniform int n = - 2147483649;\n"
    let n : Numeral := ⟨some ⟨.minus, "-", 1⟩, ⟨.integer, "2147483649", 1⟩⟩
    let r : FileRequest := ⟨⟨"a.glsl"⟩, false, .empty, .empty⟩
    let ctx := r.context MemoryFiles.provider (expandFile MemoryFiles.provider 0)
    let c := Cursor.start (lex text)
    let o := ctx.read (r.initial .empty) c
    n.OfText text ∧ n.value = -2 ^ 31 - 1 ∧
      (Reader.number .integer).Reads n.tokens 0 [(.badNumber "-2147483649", 1)] ∧
      o.value = some (.declare (.value "n" (.integer [0]))) ∧
      Journal.diagnostics ctx.path (ctx.finish (r.initial .empty) c o).2 =
        [⟨"a.glsl", 1, .badNumber "-2147483649"⟩] := by
  intro text n r ctx c o
  have ofText : n.OfText text := ⟨by simp [n], by decide +kernel, .inl rfl⟩
  have value : n.value = -2 ^ 31 - 1 := by decide +kernel
  obtain ⟨exact, -, declared⟩ := ctx.numbers_are_checked text
  have outside : ¬ ∃ x, (Reader.number .integer).Reads n.tokens x [] := by
    rintro ⟨x, read⟩
    obtain ⟨-, low, -⟩ := ((exact n ofText).integer x).1 read
    rw [value] at low
    exact absurd low (by decide)
  have fault : n.fault n.token.text.toList = (.badNumber "-2147483649", 1) := by decide +kernel
  have read := ((exact n ofText).badInteger rfl).resolve_left outside
  rw [fault] at read
  let int : Token := ⟨.keyword, "int", 1⟩
  let name : Token := ⟨.keyword, "n", 1⟩
  let equals : Token := ⟨.equals, "=", 1⟩
  let stop : Token := ⟨.semicolon, ";", 1⟩
  have names : Denotes (r.initial MemoryFiles.empty).scope.structs int.text (.values .integer 1) :=
    .scalar (by simp [NamesScalar, scalarWords, int])
  have numbered : Phrase.Numbered text (r.initial MemoryFiles.empty).scope.structs
      (int :: name :: equals :: (n.tokens ++ [stop])) (.value "n" (.integer [0])) [(.badNumber "-2147483649", 1)] :=
    .scalar .integer rfl names rfl rfl ⟨n, ofText, rfl, read⟩ rfl
  obtain ⟨uniform, -, -, diagnostics⟩ := declared (r.initial .empty) c ⟨.keyword, "uniform", 1⟩ _ [] _ _
    (by decide +kernel) (by decide) (by decide +kernel) numbered
  exact ⟨ofText, value, read, uniform, diagnostics []⟩

end FileContext

end ShaderWeave
