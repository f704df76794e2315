import ShaderWeave.LexedFile

/-!
# What the kind of a token says about its text

The lexer gives a token its kind by the text it cuts out. A token with the kind of a truth value reads `true` or
`false`, and one with the kind of a word is an identifier, so a reader that checks the kind of a token need not check
its text again.
-/

namespace ShaderWeave

/-- A token with the kind of a truth value is the word for one. -/
def Token.Truthful (t : Token) : Prop :=
  t.kind = .boolean → ∃ b : Bool, t.text = toString b

namespace Token.Kind

/-- The kinds of characters that are lexemes of their own. -/
def marks : List Token.Kind :=
  [.openCurly, .closeCurly, .openParen, .closeParen, .semicolon, .comma, .equals, .minus, .other]

/-- A character that is a lexeme of its own has one of the kinds for those. -/
theorem ofChar_ne {kind : Token.Kind} (h : kind ∉ marks) (c : Char) : ofChar c ≠ kind := by
  have mem : ofChar c ∈ marks := by
    simp only [ofChar]
    repeat' split
    all_goals decide
  rintro rfl
  exact h mem

theorem ofNumber_eq (number : List Char) : ofNumber number = .float ∨ ofNumber number = .integer := by
  rw [ofNumber]
  split <;> simp

theorem word_of_ofWord_eq_boolean {word : List Char} (h : ofWord word = .boolean) :
    ∃ b : Bool, word = (toString b).toList := by
  simp only [ofWord] at h
  split at h
  · next hw =>
    rcases hw with rfl | rfl
    · exact ⟨true, rfl⟩
    · exact ⟨false, rfl⟩
  · simp at h

end Token.Kind

theorem Lexeme.text_of_first_boolean (c : Char) (cs : List Char) :
    (Lexeme.first c cs).1.kind = .boolean → ∃ b : Bool, (Lexeme.first c cs).1.text = (toString b).toList := by
  simp only [Lexeme.first, Lexeme.whole]
  repeat' split
  · simp
  · exact Token.Kind.word_of_ofWord_eq_boolean
  · intro h
    rcases Token.Kind.ofNumber_eq (c :: numberPart cs) with k | k <;> simp [k] at h
  · simp
  · simp
  · intro h
    exact absurd h (Token.Kind.ofChar_ne (by decide) c)

/-- **What holds of every first lexeme and of every newline holds of all tokens of a text.** -/
theorem forall_mem_lex {P : Token → Prop} (first : ∀ c cs number, P ((Lexeme.first c cs).1.token number))
    (newline : ∀ number, P (.newline number)) (text : String) : ∀ t ∈ lex text, P t := by
  have inLine (number : Nat) (cs : List Char) : ∀ l ∈ lexemes cs, P (l.token number) := by
    induction cs using lexemes.induct with
    | case1 => simp
    | case2 c cs ih =>
      rw [lexemes_cons]
      exact List.forall_mem_cons.2 ⟨first c cs number, ih⟩
  intro t h
  obtain ⟨⟨line, number⟩, -, ht⟩ := List.mem_flatMap.1 h
  rcases List.mem_append.1 ht with ht | ht
  · obtain ⟨l, hl, rfl⟩ := List.mem_map.1 ht
    exact inLine number line l hl
  · rw [List.mem_singleton.1 ht]
    exact newline number

/-- **Every token of a text with the kind of a truth value reads true or false.** -/
theorem truthful_of_mem_lex {text : String} {t : Token} (h : t ∈ lex text) : t.Truthful := by
  refine forall_mem_lex (fun c cs number hk => ?_) (fun number hk => by simp [Token.newline] at hk) text t h
  obtain ⟨b, hb⟩ := Lexeme.text_of_first_boolean c cs hk
  exact ⟨b, by simp [Lexeme.token, hb]⟩

/-! ### Identifiers -/

/-- The characters of a word: letters, underscores and digits, and no digit first. -/
def isWord : List Char → Bool
  | [] => false
  | c :: cs => isLetter c && cs.all fun d => isLetter d || d.isDigit

/-- A name that may be declared: a word, but not one of those for truth values. -/
def IsIdentifier (name : String) : Prop :=
  isWord name.toList ∧ name ≠ "true" ∧ name ≠ "false"

instance (name : String) : Decidable (IsIdentifier name) :=
  inferInstanceAs (Decidable (_ ∧ _))

/-- A token with the kind of a word is an identifier. -/
def Token.Named (t : Token) : Prop :=
  t.kind = .keyword → IsIdentifier t.text

theorem Token.Kind.isIdentifier_of_ofWord {word : List Char} (hw : isWord word)
    (h : Token.Kind.ofWord word = .keyword) : IsIdentifier (String.ofList word) := by
  have other (b : String) (hb : word ≠ b.toList) : String.ofList word ≠ b :=
    fun same => hb (by rw [← same, String.toList_ofList])
  simp only [Token.Kind.ofWord] at h
  split at h
  · simp at h
  · next hn =>
    obtain ⟨notTrue, notFalse⟩ := not_or.1 hn
    refine ⟨?_, other "true" notTrue, other "false" notFalse⟩
    rwa [String.toList_ofList]

theorem Lexeme.isIdentifier_of_first_keyword (c : Char) (cs : List Char) :
    (Lexeme.first c cs).1.kind = .keyword → IsIdentifier (String.ofList (Lexeme.first c cs).1.text) := by
  simp only [Lexeme.first, Lexeme.whole]
  repeat' split
  · simp
  · next hc =>
    refine Token.Kind.isIdentifier_of_ofWord ?_
    rw [isWord, hc, Bool.true_and]
    exact List.all_takeWhile
  · intro h
    rcases Token.Kind.ofNumber_eq (c :: numberPart cs) with k | k <;> simp [k] at h
  · simp
  · simp
  · intro h
    exact absurd h (Token.Kind.ofChar_ne (by decide) c)

/-- **Every token of a text with the kind of a word is an identifier.** -/
theorem named_of_mem_lex {text : String} {t : Token} (h : t ∈ lex text) : t.Named :=
  forall_mem_lex (fun c cs _ => Lexeme.isIdentifier_of_first_keyword c cs)
    (fun number hk => by simp [Token.newline] at hk) text t h

end ShaderWeave
