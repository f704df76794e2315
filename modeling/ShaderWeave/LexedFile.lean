import ShaderWeave.Lexeme
import ShaderWeave.Path
import ShaderWeave.Problem
import ShaderWeave.Text.Lines

/-!
# Files cut into tokens

A text is cut line by line. The lexemes of a line become its tokens, and a newline token ends them, also where the
last line of the text lacks its newline. So the content of a line has no say in the tokens of another.

A `LexedFile` holds the tokens of one file alone, without what they ask for. A file that cannot be loaded has no tokens.
-/

namespace ShaderWeave

/-! ### Tokens of a text -/

/-- The lines of a text without their newlines, each with its number. -/
def numberedLines (text : String) : List (List Char × Nat) :=
  ((Text.lines text.toList).map Text.content).zipIdx 1

/-- The tokens of one line. -/
def lineTokens (line : List Char) (number : Nat) : List Token :=
  (lexemes line).map (Lexeme.token number) ++ [Token.newline number]

/-- The tokens of a text. -/
def lex (text : String) : List Token :=
  (numberedLines text).flatMap fun line => lineTokens line.1 line.2

/-- The numbers of the lines on which a string is not closed. -/
def unclosedLines (text : String) : List Nat :=
  (numberedLines text).filterMap fun line =>
    if (lexemes line.1).any Lexeme.unclosed then some line.2 else none

/-! ### Files -/

/-- A file with its tokens. -/
structure LexedFile where
  /-- The file has been loaded. -/
  isLoaded : Bool
  /-- Its tokens. -/
  tokens : List Token
  /-- What is wrong with it. -/
  diagnostics : List Diagnostic

namespace LexedFile

/-- A file whose text is known. -/
def ofText (file : String) (text : String) : LexedFile :=
  ⟨true, lex text, (unclosedLines text).map fun line => ⟨file, line, .unclosedString⟩⟩

/-- A file that cannot be loaded. -/
def missing (file cause : String) : LexedFile :=
  ⟨false, [], [⟨file, 0, .notFound file cause⟩]⟩

end LexedFile

/-- Loads a file and cuts it into tokens. -/
def Provider.lex {σ : Type} (provider : Provider σ) (path : Path) (store : σ) : LexedFile × σ :=
  let loaded := provider.load store path
  match loaded.1 with
  | .ok text => (.ofText path.text text, loaded.2)
  | .error cause => (.missing path.text cause, loaded.2)

end ShaderWeave
