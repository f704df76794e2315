import ShaderWeave.Token

/-!
# Cursors

A cursor is a place in the tokens of a file. It moves forward only, by a number of tokens, and may stand beyond the
last one, where it still knows the line on which the file ends.
-/

namespace ShaderWeave

/-- A place in the tokens of a file. -/
structure Cursor where
  /-- The number of tokens the cursor has moved over, or would have if the file were longer. -/
  index : Nat
  /-- The tokens from the cursor on. -/
  ahead : List Token
  /-- The line of the last token of the file, or zero if there is none. -/
  lastLine : Nat

namespace Cursor

/-- The cursor on the first token. -/
def start (ts : List Token) : Cursor :=
  ⟨0, ts, (ts.getLast?.map Token.line).getD 0⟩

/-- The cursor moved over `n` tokens. -/
def skip (c : Cursor) (n : Nat) : Cursor :=
  ⟨c.index + n, c.ahead.drop n, c.lastLine⟩

/-- The line of the token under the cursor. Beyond the end, this is the last line. -/
def line (c : Cursor) : Nat :=
  (c.ahead.head?.map Token.line).getD c.lastLine

/-- The kind of the next token after the one under the cursor that is no blank. -/
def nextKind (c : Cursor) : Option Token.Kind :=
  ((c.ahead.drop 1).find? fun t => !t.isBlank).map Token.kind

@[simp] theorem skip_zero (c : Cursor) : c.skip 0 = c := rfl

@[simp] theorem skip_skip (c : Cursor) (m n : Nat) : (c.skip m).skip n = c.skip (m + n) := by
  simp [skip, Nat.add_assoc]

@[simp] theorem ahead_skip (c : Cursor) (n : Nat) : (c.skip n).ahead = c.ahead.drop n := rfl

@[simp] theorem index_skip (c : Cursor) (n : Nat) : (c.skip n).index = c.index + n := rfl

@[simp] theorem lastLine_skip (c : Cursor) (n : Nat) : (c.skip n).lastLine = c.lastLine := rfl

theorem ahead_ne_nil_of_nextKind {c : Cursor} (h : c.nextKind ≠ none) : c.ahead ≠ [] := by
  intro hc
  simp [nextKind, hc] at h

end Cursor

end ShaderWeave
