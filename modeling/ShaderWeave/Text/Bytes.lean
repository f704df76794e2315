/-!
# Bytes as text

Bytes that come from a file system are text only as far as they are well-formed UTF-8. `pieces` reads them as
characters and lets a byte that belongs to no character stand for itself, so that nothing is lost and a message can
still show them.
-/

namespace ShaderWeave.Text

/-- What a run of bytes is read as. -/
inductive Piece where
  /-- A character, in its UTF-8 form. -/
  | char (c : Char)
  /-- A byte that belongs to no character. -/
  | stray (byte : UInt8)
  deriving DecidableEq

/-- The pieces of `bytes` from the position `i` on. A character is read where one is encoded. -/
def piecesFrom (bytes : ByteArray) (i : Nat) : List Piece :=
  if h : i < bytes.size then
    match bytes.utf8DecodeChar? i with
    | some c => .char c :: piecesFrom bytes (i + (c.utf8Size - 1) + 1)
    | none => .stray bytes[i] :: piecesFrom bytes (i + 1)
  else []
termination_by bytes.size - i

/-- The pieces of `bytes`. -/
def pieces (bytes : ByteArray) : List Piece :=
  piecesFrom bytes 0

/-- The text that the pieces spell, unless a byte is astray. -/
def text? (ps : List Piece) : Option (List Char) :=
  ps.mapM fun
    | .char c => some c
    | .stray _ => none

/-- The pieces of a text. -/
def ofText (text : List Char) : List Piece :=
  text.map .char

theorem text?_ofText (text : List Char) : text? (ofText text) = some text := by
  induction text with
  | nil => rfl
  | cons c cs ih =>
    rw [text?, ofText] at ih
    simp [text?, ofText, ih]

end ShaderWeave.Text
