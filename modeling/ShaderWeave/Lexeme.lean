import ShaderWeave.Token

/-!
# Lexemes of a line

A line is cut from left to right. The first character of a lexeme says what it is, and the lexeme goes on as long as
the characters allow: a word over letters, digits and underscores, a number over digits and dots, blanks over blanks,
and a string up to the next quote. Any other character is a lexeme of its own.

Letters and digits are those of ASCII.

* `Lexeme.first_suffix`: what is left after a lexeme is a suffix of what was left before, so `lexemes` comes to an end.
-/

namespace ShaderWeave

/-- A letter or an underscore. -/
def isLetter (c : Char) : Bool :=
  c.isAlpha || c = '_'

/-- A blank that separates words. -/
def isBlank (c : Char) : Bool :=
  c = ' ' || c = '\t' || c = '\n'

/-- The kind of a character that is a lexeme of its own. -/
def Token.Kind.ofChar (c : Char) : Token.Kind :=
  if c = '{' then .openCurly
  else if c = '}' then .closeCurly
  else if c = '(' then .openParen
  else if c = ')' then .closeParen
  else if c = ';' then .semicolon
  else if c = ',' then .comma
  else if c = '=' then .equals
  else if c = '-' then .minus
  else .other

/-- The kind of a word. -/
def Token.Kind.ofWord (word : List Char) : Token.Kind :=
  if word = "true".toList ∨ word = "false".toList then .boolean else .keyword

/-- The kind of a number. -/
def Token.Kind.ofNumber (number : List Char) : Token.Kind :=
  if '.' ∈ number then .float else .integer

/-- A piece of a line, before it has a place. -/
structure Lexeme where
  /-- Its kind. -/
  kind : Token.Kind
  /-- Its text. The quotes of a string are left out. -/
  text : List Char
  /-- It is a string without its second quote. -/
  unclosed : Bool
  deriving DecidableEq

namespace Lexeme

/-- A lexeme that lacks nothing. -/
def whole (kind : Token.Kind) (text : List Char) : Lexeme :=
  ⟨kind, text, false⟩

/-- The digits and dots of a number, and one letter `f` if it follows. -/
def numberPart (cs : List Char) : List Char :=
  let body := cs.takeWhile fun c => c.isDigit || c = '.'
  let rest := cs.dropWhile fun c => c.isDigit || c = '.'
  if rest.head? = some 'f' then body ++ ['f'] else body

/-- The lexeme that starts with `c`, where `cs` follows, and what is left after it. -/
def first (c : Char) (cs : List Char) : Lexeme × List Char :=
  if c = '#' then
    (whole .directive (c :: cs.takeWhile isLetter), cs.dropWhile isLetter)
  else if isLetter c then
    let word := c :: cs.takeWhile fun d => isLetter d || d.isDigit
    (whole (.ofWord word) word, cs.dropWhile fun d => isLetter d || d.isDigit)
  else if c.isDigit then
    let number := c :: numberPart cs
    (whole (.ofNumber number) number, cs.drop (numberPart cs).length)
  else if isBlank c then
    (whole .whitespace (c :: cs.takeWhile isBlank), cs.dropWhile isBlank)
  else if c = '"' then
    (⟨.string, cs.takeWhile (· ≠ '"'), '"' ∉ cs⟩, (cs.dropWhile (· ≠ '"')).drop 1)
  else
    (whole (.ofChar c) [c], cs)

theorem first_suffix (c : Char) (cs : List Char) : (first c cs).2 <:+ cs := by
  simp only [first]
  repeat' split
  · exact List.dropWhile_suffix _
  · exact List.dropWhile_suffix _
  · exact List.drop_suffix _ _
  · exact List.dropWhile_suffix _
  · exact (List.drop_suffix _ _).trans (List.dropWhile_suffix _)
  · exact List.suffix_rfl

/-- The lexeme as a token of a line. -/
def token (line : Nat) (l : Lexeme) : Token :=
  ⟨l.kind, String.ofList l.text, line⟩

end Lexeme

/-- The lexemes of a line, its newline left out. -/
def lexemes : List Char → List Lexeme
  | [] => []
  | c :: cs => (Lexeme.first c cs).1 :: lexemes (Lexeme.first c cs).2
termination_by cs => cs.length
decreasing_by
  have := (Lexeme.first_suffix c cs).length_le
  simp only [List.length_cons]
  omega

@[simp] theorem lexemes_nil : lexemes [] = [] := by
  rw [lexemes]

theorem lexemes_cons (c : Char) (cs : List Char) :
    lexemes (c :: cs) = (Lexeme.first c cs).1 :: lexemes (Lexeme.first c cs).2 := by
  rw [lexemes]

end ShaderWeave
