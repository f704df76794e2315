import ShaderWeave.Text.Lines

/-!
# Woven texts

A weave is a text put together from pieces of many files, with the place in a file that each of its lines comes from.
A line belongs to the first piece that was written onto it.

* `Weave.push` writes a text that comes from one place.
* `Weave.append` writes another weave, whose lines keep their places.
-/

namespace ShaderWeave

/-- A line of a file. -/
structure Place where
  /-- The file. -/
  file : String
  /-- The line in the file, counted from one. -/
  line : Nat
  deriving DecidableEq

/-- A place as it is shown in messages. -/
def Place.render (p : Place) : String :=
  p.file ++ "(" ++ toString p.line ++ ")"

/-- A text and where its lines come from. -/
structure Weave where
  /-- The text. -/
  text : String
  /-- The places its lines come from, in order. -/
  places : Array Place
  /-- The next character starts a line. -/
  freshLine : Bool
  deriving DecidableEq

namespace Weave

/-- The weave that nothing has been written to. -/
def empty : Weave :=
  ⟨"", #[], true⟩

/-- The weave holds no text. -/
def isEmpty (s : Weave) : Bool :=
  s.text = ""

/-- Writes a piece of a line. If it starts the line, the line gets its place. -/
def writePiece (w : Weave) (piece : List Char) (place : Place) : Weave :=
  ⟨w.text ++ String.ofList piece, if w.freshLine then w.places.push place else w.places,
    piece.getLast? = some '\n'⟩

/-- Writes pieces of lines, each with its place, one after another. -/
def writeAll (w : Weave) (pieces : List (List Char × Place)) : Weave :=
  pieces.foldl (fun w piece => w.writePiece piece.1 piece.2) w

/-- Writes a text that comes from one place. -/
def push (w : Weave) (text : String) (place : Place) : Weave :=
  w.writeAll ((Text.lines text.toList).map fun piece => (piece, place))

/-- Writes another weave with the places of its lines. -/
def append (w other : Weave) : Weave :=
  w.writeAll ((Text.lines other.text.toList).zip other.places.toList)

/-- The place that a line of the text comes from, where lines are counted from one. -/
def place? (w : Weave) (line : Nat) : Option Place :=
  if line = 0 then none else w.places[line - 1]?

end Weave

end ShaderWeave
