import ShaderWeave.Cursor
import ShaderWeave.Problem

/-!
# Reading tokens

A `Reader` looks at the tokens from a cursor on. It says how many tokens it moved over, what it wrote and reported on
its way, and gives a value unless it was abandoned. Since it reports a number of tokens, a reader cannot move a
cursor back.

* `expect` moves to the next token that is no blank and copies the blanks it moves over.
* `demand` abandons what is being read where the token is not of the kind that is needed. The cursor then stands on the
  next semicolon, or beyond the end.
* `collectUntil` repeats a reader that always moves on.
-/

namespace ShaderWeave

/-- What reading leaves behind. -/
inductive Output where
  /-- A token that is copied to the woven text. -/
  | copy (token : Token)
  /-- A newline that is written to the woven text. -/
  | newline (line : Nat)
  /-- A problem on a line of the file. -/
  | problem (problem : Problem) (line : Nat)
  /-- A token is read where the file has none. -/
  | misread (index : Nat)
  deriving DecidableEq

/-- The outcome of reading from a cursor on. -/
structure Outcome (α : Type) where
  /-- What was read, or nothing if it was abandoned. -/
  value : Option α
  /-- The number of tokens the cursor moves over. -/
  steps : Nat
  /-- What was written and reported, in order. -/
  output : List Output

/-- A way to read from a cursor on. -/
def Reader (α : Type) : Type :=
  Cursor → Outcome α

namespace Reader

/-- Gives a value and stays. -/
protected def pure {α : Type} (a : α) : Reader α :=
  fun _ => ⟨some a, 0, []⟩

/-- Reads on from where the first reader ended, unless it was abandoned. -/
protected def bind {α β : Type} (r : Reader α) (f : α → Reader β) : Reader β := fun c =>
  match (r c).value with
  | none => ⟨none, (r c).steps, (r c).output⟩
  | some a =>
    let next := f a (c.skip (r c).steps)
    ⟨next.value, (r c).steps + next.steps, (r c).output ++ next.output⟩

instance : Monad Reader where
  pure := Reader.pure
  bind := Reader.bind

theorem pure_apply {α : Type} (a : α) (c : Cursor) : (pure a : Reader α) c = ⟨some a, 0, []⟩ := rfl

theorem bind_apply_of_some {α β : Type} {r : Reader α} {f : α → Reader β} {c : Cursor} {a : α}
    (h : (r c).value = some a) :
    (r >>= f) c = ⟨(f a (c.skip (r c).steps)).value, (r c).steps + (f a (c.skip (r c).steps)).steps,
      (r c).output ++ (f a (c.skip (r c).steps)).output⟩ := by
  change Reader.bind r f c = _
  rw [Reader.bind, h]

theorem bind_apply_of_none {α β : Type} {r : Reader α} {f : α → Reader β} {c : Cursor}
    (h : (r c).value = none) : (r >>= f) c = ⟨none, (r c).steps, (r c).output⟩ := by
  change Reader.bind r f c = _
  rw [Reader.bind, h]

/-- Reading one thing after another does not depend on how the steps are grouped. -/
theorem bind_assoc {α β γ : Type} (r : Reader α) (f : α → Reader β) (g : β → Reader γ) :
    (r >>= f) >>= g = r >>= fun a => f a >>= g := by
  funext c
  cases h : (r c).value with
  | none =>
    rw [bind_apply_of_none (c := c) (by rw [bind_apply_of_none h]), bind_apply_of_none h, bind_apply_of_none h]
  | some a =>
    cases k : (f a (c.skip (r c).steps)).value with
    | none =>
      rw [bind_apply_of_none (c := c) (by rw [bind_apply_of_some h]; exact k), bind_apply_of_some h,
        bind_apply_of_some h, bind_apply_of_none k]
    | some b =>
      rw [bind_apply_of_some (c := c) (a := b) (by rw [bind_apply_of_some h]; exact k), bind_apply_of_some h,
        bind_apply_of_some h, bind_apply_of_some k]
      simp [Nat.add_assoc]

/-- Reading on without doing anything changes nothing. -/
theorem bind_pure_value {α : Type} (r : Reader α) : (r >>= fun a => pure a) = r := by
  funext c
  cases h : (r c).value with
  | none => rw [bind_apply_of_none h, ← h]
  | some a =>
    rw [bind_apply_of_some h, pure_apply]
    simp [← h]

/-- What follows a value starts where the value was given. -/
theorem pure_value_bind {α β : Type} (a : α) (f : α → Reader β) : (pure a >>= f) = f a := by
  funext c
  rw [bind_apply_of_some (a := a) (by rw [pure_apply]), pure_apply]
  simp

instance : LawfulMonad Reader :=
  LawfulMonad.mk' Reader bind_pure_value pure_value_bind bind_assoc

/-! ### Primitive readers -/

/-- The cursor. -/
def here : Reader Cursor :=
  fun c => ⟨some c, 0, []⟩

/-- The token under the cursor. -/
def current : Reader Token := fun c =>
  match c.ahead with
  | t :: _ => ⟨some t, 0, []⟩
  | [] => ⟨none, 0, [.misread c.index]⟩

/-- Copies the token under the cursor, if there is one. -/
def copy : Reader Unit :=
  fun c => ⟨some (), 0, c.ahead.head?.toList.map .copy⟩

/-- Writes a newline that comes from the line of the cursor. -/
def newline : Reader Unit :=
  fun c => ⟨some (), 0, [.newline c.line]⟩

/-- Reports a problem on the line of the cursor. -/
def report (p : Problem) : Reader Unit :=
  fun c => ⟨some (), 0, [.problem p c.line]⟩

/-- Moves to the next token that is no blank and copies the blanks. -/
def advance : Reader Unit := fun c =>
  let blanks := (c.ahead.drop 1).takeWhile Token.isBlank
  ⟨some (), 1 + blanks.length, blanks.map .copy⟩

/-- Gives up what is being read and moves to the next semicolon. -/
def abandon {α : Type} : Reader α :=
  fun c => ⟨none, (c.ahead.takeWhile (·.kind ≠ .semicolon)).length, []⟩

/-! ### Expectations -/

/-- Moves to the next token that is no blank and says whether its kind is one of those given. If not, a problem names
what was expected. -/
def expect (kinds : List Token.Kind) (expected : String) : Reader Bool := do
  advance
  match (← here).ahead with
  | t :: _ =>
    if t.kind ∈ kinds then return true
    report (.unexpected expected t.text)
    return false
  | [] =>
    report (.unexpectedEnd expected)
    return false

/-- Moves to the next token that is no blank, which must be of one of the kinds. -/
def demandOneOf (kinds : List Token.Kind) (expected : String) : Reader Unit := do
  if ← expect kinds expected then return ()
  abandon

/-- Moves to the next token that is no blank, which must be of the kind. -/
def demand (kind : Token.Kind) (expected : String) : Reader Unit :=
  demandOneOf [kind] expected

/-- Reads until the next token that is no blank is of the kind `stop`, or until there is none. What is abandoned on the
way is left out. -/
def collectUntil {α : Type} (stop : Token.Kind) (r : Reader α) (progress : ∀ c, 0 < (r c).steps) (c : Cursor) :
    Outcome (List α) :=
  if _h : c.nextKind = none ∨ c.nextKind = some stop then ⟨some [], 0, []⟩
  else
    let one := r c
    let more := collectUntil stop r progress (c.skip one.steps)
    ⟨some (one.value.toList ++ more.value.getD []), one.steps + more.steps, one.output ++ more.output⟩
termination_by c.ahead.length
decreasing_by
  have hc := List.length_pos_iff.2 (Cursor.ahead_ne_nil_of_nextKind fun hp => _h (.inl hp))
  have hr := progress c
  simp only [Cursor.ahead_skip, List.length_drop]
  omega

/-! ### How far readers move -/

theorem steps_le_steps_bind {α β : Type} (r : Reader α) (f : α → Reader β) (c : Cursor) :
    (r c).steps ≤ ((r >>= f) c).steps := by
  change (r c).steps ≤ (Reader.bind r f c).steps
  rw [Reader.bind]
  split
  · exact Nat.le_refl _
  · exact Nat.le_add_right _ _

theorem steps_advance_pos (c : Cursor) : 0 < (advance c).steps := by
  simp only [advance]
  omega

theorem steps_expect_pos (kinds : List Token.Kind) (expected : String) (c : Cursor) :
    0 < (expect kinds expected c).steps :=
  Nat.lt_of_lt_of_le (steps_advance_pos c) (steps_le_steps_bind _ _ c)

theorem steps_demand_pos (kind : Token.Kind) (expected : String) (c : Cursor) :
    0 < (demand kind expected c).steps :=
  Nat.lt_of_lt_of_le (steps_expect_pos [kind] expected c) (steps_le_steps_bind _ _ c)

end Reader

end ShaderWeave
