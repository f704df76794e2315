import ShaderWeave.Declaration
import ShaderWeave.Proofs.Reader.Recognition
import Mathlib.Tactic.SplitIfs

/-!
# The grammar of declarations

A declaration is a type, a name, an initializer for some, and a semicolon. `Phrase.Declaration` says which tokens are
one, which variable they declare, and which of their numbers are reported. It is put together from phrases for the
parts: words that name types (`Denotes`), truth values and numbers, lists of values, and initializers.

The words are spelled out here, so that `variableType?_eq_some_iff` says what the search for `vec` in a word amounts to.
-/

namespace ShaderWeave

/-! ### Words that name types -/

/-- The words for scalars. -/
def scalarWords : List (String × Element) :=
  [("bool", .boolean), ("int", .integer), ("uint", .unsigned), ("float", .single), ("double", .double)]

/-- What stands before `vec` in the words for vectors. -/
def vectorLetters : List (String × Element) :=
  [("b", .boolean), ("i", .integer), ("u", .unsigned), ("", .single), ("d", .double)]

/-- The word names a scalar. -/
def NamesScalar (word : String) (element : Element) : Prop :=
  (word, element) ∈ scalarWords

/-- The word names a vector: a letter or none, `vec`, and a digit from one to nine. -/
def NamesVector (word : String) (element : Element) (size : Nat) : Prop :=
  ∃ letter digit, (letter, element) ∈ vectorLetters ∧ '1' ≤ digit ∧ digit ≤ '9' ∧
    size = digit.toNat - '0'.toNat ∧ word.toList = letter.toList ++ "vec".toList ++ [digit]

/-- What a word in the place of a type names. A struct type is named by a word that names neither a scalar nor a
vector. -/
inductive Denotes (types : Structs) (word : String) : VariableType → Prop
  /-- A scalar has one value. -/
  | scalar {element : Element} (h : NamesScalar word element) : Denotes types word (.values element 1)
  /-- A vector has as many values as its digit says. -/
  | vector {element : Element} {size : Nat} (h : NamesVector word element size) :
    Denotes types word (.values element size)
  /-- A struct has the fields it is defined with. -/
  | struct {fields : List Variable} (hs : ∀ element, ¬ NamesScalar word element)
    (hv : ∀ element size, ¬ NamesVector word element size) (h : types[word]? = some fields) :
    Denotes types word (.group fields)

theorem ofScalarKeyword?_eq_some_iff {word : String} {element : Element} :
    Element.ofScalarKeyword? word = some element ↔ NamesScalar word element := by
  simp only [Element.ofScalarKeyword?, NamesScalar, scalarWords, List.mem_cons, Prod.mk.injEq, List.not_mem_nil,
    or_false]
  constructor
  · intro h
    split_ifs at h <;> simp_all
  · rintro (⟨rfl, rfl⟩ | ⟨rfl, rfl⟩ | ⟨rfl, rfl⟩ | ⟨rfl, rfl⟩ | ⟨rfl, rfl⟩) <;> rfl

theorem ofVectorPrefix?_eq_some_iff {word : String} {element : Element} :
    Element.ofVectorPrefix? word = some element ↔ (word, element) ∈ vectorLetters := by
  simp only [Element.ofVectorPrefix?, vectorLetters, List.mem_cons, Prod.mk.injEq, List.not_mem_nil, or_false]
  constructor
  · intro h
    split_ifs at h <;> simp_all
  · rintro (⟨rfl, rfl⟩ | ⟨rfl, rfl⟩ | ⟨rfl, rfl⟩ | ⟨rfl, rfl⟩ | ⟨rfl, rfl⟩) <;> rfl

/-- The mark of a vector is found after the letter. -/
theorem splitFirst_of_letter {letter : String} {element : Element} (h : (letter, element) ∈ vectorLetters)
    (digit : Char) :
    Text.splitFirst vectorMark (letter.toList ++ "vec".toList ++ [digit]) = some (letter.toList, [digit]) := by
  simp only [vectorLetters, List.mem_cons, Prod.mk.injEq, List.not_mem_nil, or_false] at h
  rcases h with ⟨rfl, -⟩ | ⟨rfl, -⟩ | ⟨rfl, -⟩ | ⟨rfl, -⟩ | ⟨rfl, -⟩ <;>
    simp [vectorMark, Text.splitFirst]

/-- **A vector type is spelled by a letter or none, the mark of vectors and one digit.** -/
theorem vectorType?_eq_some_iff {word : String} {element : Element} {size : Nat} :
    vectorType? word = some (element, size) ↔ NamesVector word element size := by
  constructor
  · intro h
    simp only [vectorType?, Option.bind_eq_bind, Option.bind_eq_some_iff] at h
    obtain ⟨⟨before, after⟩, split, element', letter, rest⟩ := h
    have hw := Text.splitFirst_eq_some split
    match after, rest with
    | [digit], rest =>
      simp only [Option.ite_none_right_eq_some, Option.some.injEq, Prod.mk.injEq] at rest
      obtain ⟨⟨h1, h9⟩, rfl, rfl⟩ := rest
      refine ⟨String.ofList before, digit, ofVectorPrefix?_eq_some_iff.1 letter, h1, h9, rfl, ?_⟩
      rw [String.toList_ofList]
      exact hw
  · rintro ⟨letter, digit, hl, h1, h9, rfl, hw⟩
    have hp : Element.ofVectorPrefix? (String.ofList letter.toList) = some element := by
      rw [String.ofList_toList]
      exact ofVectorPrefix?_eq_some_iff.2 hl
    simp only [vectorType?, hw, splitFirst_of_letter hl, Option.bind_eq_bind, Option.bind_some, hp]
    rw [if_pos ⟨h1, h9⟩]

/-- A word for a scalar ends with a letter, a word for a vector with a digit. -/
theorem NamesVector.not_namesScalar {word : String} {element : Element} {size : Nat}
    (h : NamesVector word element size) (element' : Element) : ¬ NamesScalar word element' := by
  obtain ⟨letter, digit, -, -, h9, -, hw⟩ := h
  have last := congrArg List.getLast? hw
  rw [List.getLast?_append] at last
  intro hs
  simp only [NamesScalar, scalarWords, List.mem_cons, Prod.mk.injEq, List.not_mem_nil, or_false] at hs
  rcases hs with ⟨rfl, -⟩ | ⟨rfl, -⟩ | ⟨rfl, -⟩ | ⟨rfl, -⟩ | ⟨rfl, -⟩ <;>
  · simp at last
    subst last
    exact absurd h9 (by decide)

/-- **The type that is found for a word is the one it names.** -/
theorem variableType?_eq_some_iff {types : Structs} {word : String} {type : VariableType} :
    variableType? types word = some type ↔ Denotes types word type := by
  constructor
  · intro h
    simp only [variableType?] at h
    split at h
    · next element hs =>
      obtain rfl := Option.some.inj h
      exact .scalar (ofScalarKeyword?_eq_some_iff.1 hs)
    · next hs =>
      split at h
      · next element size hv =>
        obtain rfl := Option.some.inj h
        exact .vector (vectorType?_eq_some_iff.1 hv)
      · next hv =>
        obtain ⟨fields, hf, rfl⟩ := Option.map_eq_some_iff.1 h
        refine .struct (fun element hn => ?_) (fun element size hn => ?_) hf
        · simp [ofScalarKeyword?_eq_some_iff.2 hn] at hs
        · simp [vectorType?_eq_some_iff.2 hn] at hv
  · have noScalar (h : ∀ element, ¬ NamesScalar word element) : Element.ofScalarKeyword? word = none :=
      Option.eq_none_iff_forall_ne_some.2 fun element he => h element (ofScalarKeyword?_eq_some_iff.1 he)
    rintro (⟨h⟩ | ⟨h⟩ | ⟨hs, hv, h⟩)
    · simp [variableType?, ofScalarKeyword?_eq_some_iff.2 h]
    · simp [variableType?, noScalar h.not_namesScalar, vectorType?_eq_some_iff.2 h]
    · have noVector : vectorType? word = none :=
        Option.eq_none_iff_forall_ne_some.2 fun pair he => hv _ _ (vectorType?_eq_some_iff.1 he)
      simp [variableType?, noScalar hs, noVector, h]

/-- A problem with a word that names no type says whether the word looks like a vector. -/
theorem typeProblem_blames (t : Token) : (typeProblem t.text).Blames (some t) := by
  by_cases h : Text.contains vectorMark t.text.toList
  · rw [typeProblem, if_pos h]
    exact .badVectorType (Text.contains_iff.1 h)
  · rw [typeProblem, if_neg h]
    exact .unknownType fun hv => h (Text.contains_iff.2 hv)

/-! ### Values -/

theorem NumberForm.integer_mem_kinds {α : Type} (form : NumberForm α) : .integer ∈ form.kinds := by
  rw [NumberForm.kinds]
  split <;> simp

theorem NumberForm.eq_of_mem_kinds {α : Type} {form : NumberForm α} {kind : Token.Kind} (h : kind ∈ form.kinds) :
    kind = .float ∨ kind = .integer := by
  rw [NumberForm.kinds] at h
  split at h
  · simpa using h
  · exact .inr (List.mem_singleton.1 h)

/-- What a number token stands for. A number that is out of range stands for zero. -/
def NumberForm.valueOf {α : Type} (form : NumberForm α) (negative : Bool) (t : Token) : α :=
  (form.value? negative (form.digits t.text)).getD form.fallback

/-- What is reported about a number token: nothing, unless it is out of range. -/
def NumberForm.faultsOf {α : Type} (form : NumberForm α) (negative : Bool) (t : Token) : List Fault :=
  let digits := form.digits t.text
  match form.value? negative digits with
  | some _ => []
  | none => [(.badNumber (String.ofList (if negative then '-' :: digits else digits)), t.line)]

theorem NumberForm.isBadNumber_of_mem_faultsOf {α : Type} {form : NumberForm α} {negative : Bool} {t : Token}
    {f : Fault} (h : f ∈ form.faultsOf negative t) : f.1.IsBadNumber := by
  simp only [NumberForm.faultsOf] at h
  split at h
  · simp at h
  · rw [List.mem_singleton.1 h]
    exact ⟨_, rfl⟩

namespace Phrase

variable {α β : Type}

/-- A truth value is the word for it. -/
def Truth : Phrase Bool :=
  .Word [.boolean] fun t b fs => t.text = toString b ∧ fs = []

/-- A number without its sign. -/
def Digits (form : NumberForm α) (kinds : List Token.Kind) (negative : Bool) : Phrase α :=
  .Word kinds fun t a fs => a = form.valueOf negative t ∧ fs = form.faultsOf negative t

/-- A number, maybe after a minus sign. -/
inductive Signed (form : NumberForm α) (kinds : List Token.Kind) : Phrase α
  /-- There is no sign. -/
  | bare {ts : List Token} {a : α} {fs : List Fault} (h : Digits form kinds false ts a fs) : Signed form kinds ts a fs
  /-- There is a sign. -/
  | negated {sign : Token} {ts : List Token} {a : α} {fs : List Fault} (hs : sign.kind = .minus)
    (h : Digits form kinds true ts a fs) : Signed form kinds (sign :: ts) a fs

/-- As many phrases as asked for, with commas between. -/
inductive Separated (G : Phrase α) : Nat → Phrase (List α)
  /-- None. -/
  | none : Separated G 0 [] [] []
  /-- One alone. -/
  | one {ts : List Token} {a : α} {fs : List Fault} (h : G ts a fs) : Separated G 1 ts [a] fs
  /-- One more before a comma. -/
  | more {n : Nat} {ts us : List Token} {comma : Token} {a : α} {as : List α} {fs gs : List Fault}
    (h : G ts a fs) (hc : comma.kind = .comma) (rest : Separated G (n + 1) us as gs) :
    Separated G (n + 2) (ts ++ comma :: us) (a :: as) (fs ++ gs)

/-- A list of phrases with commas between, whose values are put together by `wrap`. -/
inductive Listed (n : Nat) (wrap : List α → β) (G : Phrase α) : Phrase β
  /-- The list is read. -/
  | intro {ts : List Token} {as : List α} {fs : List Fault} (h : Separated G n ts as fs) :
    Listed n wrap G ts (wrap as) fs

/-- The values of a type, with commas between. -/
def Components (n : Nat) : Element → Phrase Values
  | .boolean => .Listed n .boolean Truth
  | .integer => .Listed n .integer (Signed .integer [.integer])
  | .unsigned => .Listed n .unsigned (Digits .unsigned [.integer] false)
  | .single => .Listed n .single (Signed .single [.float, .integer])
  | .double => .Listed n .double (Signed .double [.float, .integer])

/-! ### Declarations -/

/-- An equals sign with the values that follow it. -/
inductive Assignment (element : Element) (size : Nat) : Phrase Values
  /-- One value stands alone. -/
  | bare {equals : Token} {ts : List Token} {vs : Values} {fs : List Fault} (hs : size = 1)
    (he : equals.kind = .equals) (h : Components size element ts vs fs) : Assignment element size (equals :: ts) vs fs
  /-- Several values stand in parentheses. -/
  | enclosed {equals opening closing : Token} {ts : List Token} {vs : Values} {fs : List Fault} (hs : size ≠ 1)
    (he : equals.kind = .equals) (ho : opening.kind = .openParen) (h : Components size element ts vs fs)
    (hc : closing.kind = .closeParen) : Assignment element size (equals :: opening :: (ts ++ [closing])) vs fs

/-- What stands between the name of a scalar or a vector and the semicolon. -/
inductive Initializer (element : Element) (size : Nat) : Phrase Values
  /-- Without an equals sign, all values are zero. -/
  | absent : Initializer element size [] (element.zeros size) []
  /-- With an equals sign, the values are given. -/
  | present {ts : List Token} {vs : Values} {fs : List Fault} (h : Assignment element size ts vs fs) :
    Initializer element size ts vs fs

/-- What follows the name of a variable: an initializer if it is a scalar or a vector, and a semicolon. -/
inductive Ending (name : String) : VariableType → Phrase Variable
  /-- A scalar or a vector has the values it starts with. -/
  | value {stop : Token} {element : Element} {size : Nat} {ts : List Token} {vs : Values} {fs : List Fault}
    (hi : Initializer element size ts vs fs) (hs : stop.kind = .semicolon) :
    Ending name (.values element size) (ts ++ [stop]) (.value name vs) fs
  /-- A struct has the fields it is defined with. -/
  | group {stop : Token} {fields : List Variable} (hs : stop.kind = .semicolon) :
    Ending name (.group fields) [stop] (.group name fields) []

/-- The declaration of a variable: its type, its name, and the rest up to the semicolon. -/
inductive Declaration (types : Structs) : Phrase Variable
  /-- The declaration is read. -/
  | intro {word name : Token} {type : VariableType} {ts : List Token} {v : Variable} {fs : List Fault}
    (hw : word.kind = .keyword) (hd : Denotes types word.text type) (hn : name.kind = .keyword)
    (he : Ending name.text type ts v fs) : Declaration types (word :: name :: ts) v fs

end Phrase

end ShaderWeave
