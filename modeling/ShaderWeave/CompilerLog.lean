import ShaderWeave.Weave
import ShaderWeave.Number.Literal
import ShaderWeave.Text.Character

/-!
# Logs of shader compilers

A compiler sees one woven text and names places in it by two numbers at the start of a line of its log: the source
string and the line. There are two forms, `ERROR: 0:12` and `0(12)`. `relocate` writes the place in a file that the
line comes from instead, for instance `common.glsl(4)`. A place outside the text is left as it is.

The two forms are looked for one after the other, each in one pass from left to right over the whole log. They are
the patterns `(?m)^ERROR:\s*(\d+):(\d+)` and `(?m)^(\d+)\((\d+)\)\s*`, and this is assumed of how a pattern is
matched and replaced:

* `^` matches at the start of the log and behind each newline, and nowhere else. A carriage return starts no line.
* `\d` matches a decimal digit of any script and `\s` white space of any script (`Text.isDecimalDigit`,
  `Text.isWhiteSpace`). Any other character matches itself.
* A repetition takes all it can. No character that could be repeated can be what comes next in the pattern, so none is
  ever given back.
* The leftmost match is replaced first, and the search goes on at its end, so matches do not overlap. A newline that
  was the last character of a match still starts a line. What has been put in place of a match is not searched again.
-/

namespace ShaderWeave.CompilerLog

/-- The forms in which a compiler names a place. -/
inductive Form where
  /-- The word `ERROR`, a colon, the source string, a colon and the line. -/
  | colon
  /-- The source string, the line in parentheses, and the white space after it. -/
  | paren
  deriving DecidableEq

/-- A place that a log names. -/
structure Location where
  /-- The digits of the line. -/
  line : List Char
  /-- The characters that the place takes up in the log. -/
  size : Nat

/-- The word that starts a place of the form `colon`. -/
def mark : List Char :=
  "ERROR:".toList

/-- The digits at the start of a text, of which there is at least one. -/
def digits? (cs : List Char) : Option (List Char) :=
  let digits := cs.takeWhile Text.isDecimalDigit
  if digits = [] then none else some digits

/-- The place of the form `colon` at the start of a text. -/
def colonLocation? (cs : List Char) : Option Location := do
  let afterMark ← if mark.isPrefixOf cs then some (cs.drop mark.length) else none
  let blanks := afterMark.takeWhile Text.isWhiteSpace
  let afterBlanks := afterMark.drop blanks.length
  let string ← digits? afterBlanks
  let afterString := afterBlanks.drop string.length
  let line ← if afterString.head? = some ':' then digits? (afterString.drop 1) else none
  some ⟨line, mark.length + blanks.length + string.length + 1 + line.length⟩

/-- The place of the form `paren` at the start of a text. -/
def parenLocation? (cs : List Char) : Option Location := do
  let string ← digits? cs
  let afterString := cs.drop string.length
  let line ← if afterString.head? = some '(' then digits? (afterString.drop 1) else none
  let afterLine := afterString.drop (1 + line.length)
  let blanks := (afterLine.drop 1).takeWhile Text.isWhiteSpace
  if afterLine.head? = some ')' then
    some ⟨line, string.length + 1 + line.length + 1 + blanks.length⟩
  else none

/-- The place at the start of a text. -/
def Form.location? : Form → List Char → Option Location
  | .colon => colonLocation?
  | .paren => parenLocation?

/-- The line that the digits spell, if it is a number of 64 bits in the digits `0` to `9`. -/
def lineNumber? (digits : List Char) : Option Nat :=
  (Literal.nat? digits).filter (· < UInt64.size)

/-- What is written in place of a location, if it is inside the woven text. -/
def replacement? (woven : Weave) (location : Location) : Option (List Char) :=
  ((lineNumber? location.line).bind woven.place?).map fun place => place.render.toList

/-- One pass over a log. The flag says that a line starts here. -/
def relocateForm (form : Form) (woven : Weave) : Bool → List Char → List Char
  | _, [] => []
  | freshLine, c :: cs =>
    match if freshLine then form.location? (c :: cs) else none with
    | some location =>
      let found := (c :: cs).take location.size
      (replacement? woven location).getD found ++
        relocateForm form woven (found.getLast? = some '\n') (cs.drop (location.size - 1))
    | none => c :: relocateForm form woven (c = '\n') cs
termination_by _ cs => cs.length
decreasing_by all_goals simp only [List.length_drop, List.length_cons]; omega

/-- A log with the places in the woven text turned into places in the files. -/
def relocate (woven : Weave) (log : String) : String :=
  String.ofList (relocateForm .paren woven true (relocateForm .colon woven true log.toList))

end ShaderWeave.CompilerLog
