/-!
# Tokens

A token is a piece of one line of a file with its kind and the number of that line. The blanks between tokens are
tokens too, and so is the newline at the end of each line, so that nothing of a file is lost.
-/

namespace ShaderWeave

/-- The kinds of tokens. -/
inductive Token.Kind where
  /-- A number sign and the word after it. -/
  | directive
  /-- A word. -/
  | keyword
  /-- The word `true` or `false`. -/
  | boolean
  /-- A number without a dot. -/
  | integer
  /-- A number with a dot. -/
  | float
  /-- A text between quotes. -/
  | string
  /-- An opening curly brace. -/
  | openCurly
  /-- A closing curly brace. -/
  | closeCurly
  /-- An opening parenthesis. -/
  | openParen
  /-- A closing parenthesis. -/
  | closeParen
  /-- A semicolon. -/
  | semicolon
  /-- A comma. -/
  | comma
  /-- An equals sign. -/
  | equals
  /-- A minus sign. -/
  | minus
  /-- Spaces and tabs, or the newline at the end of a line. -/
  | whitespace
  /-- Any other character. -/
  | other
  deriving DecidableEq

/-- A piece of a line. -/
structure Token where
  /-- Its kind. -/
  kind : Token.Kind
  /-- Its text. The quotes of a string are left out. -/
  text : String
  /-- The number of its line, counted from one. -/
  line : Nat
  deriving DecidableEq

namespace Token

/-- The token is made of blanks. -/
def isBlank (t : Token) : Bool :=
  t.kind = .whitespace

/-- The text of a token as it stands in a file, where a string has both its quotes. -/
def render (t : Token) : String :=
  if t.kind = .string then "\"" ++ t.text ++ "\"" else t.text

/-- The token that ends a line. -/
def newline (line : Nat) : Token :=
  ⟨.whitespace, "\n", line⟩

end Token

end ShaderWeave
