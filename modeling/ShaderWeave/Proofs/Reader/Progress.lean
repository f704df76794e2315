import ShaderWeave.Proofs.Reader.Reach
import ShaderWeave.Proofs.Reader.Selecting

/-!
# Readers make progress

A declaration moves the cursor on, and it stops on a semicolon. If it is abandoned, it stops on a semicolon or beyond
the last token (`Resting`, a law that all readers keep). The same holds of the constructs that are made of declarations:
`Progresses` says it of a reader that starts at a position of some tokens, which may lie beyond the last one.

A loop is a relation between the states before and after a round. `EndsWithin` says that a loop comes to an end after a
number of rounds, and it is shown by what gets smaller in each round (`Rounds.add_le`). The loop over the fields of a
struct type is one of these (`endsWithin_structFields`): each round moves the cursor on, whatever becomes of the
declaration in it.
-/

namespace ShaderWeave

variable {α β : Type}

/-! ### Loops -/

section Loops

variable {S : Type}

/-- Rounds of a loop lead from one state to another. -/
inductive Rounds (round : S → S → Prop) : Nat → S → S → Prop
  /-- There are none. -/
  | none (a : S) : Rounds round 0 a a
  /-- One is followed by others. -/
  | further {n : Nat} {a b c : S} (first : round a b) (more : Rounds round n b c) : Rounds round (n + 1) a c

/-- A loop that starts in `a` ends in `b`, after at most so many rounds. -/
structure EndsWithin (round : S → S → Prop) (bound : Nat) (a b : S) : Prop where
  /-- Rounds of the loop lead there. -/
  reached : ∃ n, Rounds round n a b
  /-- No round goes on from there. -/
  ended : ∀ c, ¬ round b c
  /-- No way through the loop has more rounds. -/
  bounded : ∀ n c, Rounds round n a c → n ≤ bound

/-- There are no more rounds than what gets smaller in each of them allows. -/
theorem Rounds.add_le {round : S → S → Prop} {size : S → Nat} (smaller : ∀ a b, round a b → size b < size a) {n : Nat}
    {a b : S} (h : Rounds round n a b) : n + size b ≤ size a := by
  induction h with
  | none => exact Nat.le_of_eq (Nat.zero_add _)
  | further first _ ih =>
    have := smaller _ _ first
    omega

/-- **A loop in which something gets smaller comes to an end.** -/
theorem EndsWithin.of_smaller {round : S → S → Prop} (size : S → Nat) (smaller : ∀ a b, round a b → size b < size a)
    {a b : S} (reached : ∃ n, Rounds round n a b) (ended : ∀ c, ¬ round b c) : EndsWithin round (size a) a b where
  reached := reached
  ended := ended
  bounded _ _ h := Nat.le_trans (Nat.le_add_right _ _) (h.add_le smaller)

end Loops

/-- The cursor stands on a semicolon, or beyond the last token. -/
def Cursor.Rests (c : Cursor) : Prop :=
  ∀ t ∈ c.ahead.head?, t.kind = .semicolon

theorem Cursor.length_ahead_skip_lt {c : Cursor} {n : Nat} (hc : c.ahead ≠ []) (hn : 0 < n) :
    (c.skip n).ahead.length < c.ahead.length := by
  have := List.length_pos_iff.2 hc
  rw [Cursor.ahead_skip, List.length_drop]
  omega

namespace Reader

/-! ### Where readers are abandoned -/

/-- Where the reader is abandoned, the cursor rests. -/
def Resting (α : Type) (r : Reader α) : Prop :=
  ∀ c : Cursor, (r c).value = none → (c.skip (r c).steps).Rests

theorem resting_of_value {r : Reader α} (h : ∀ c, ∃ a, (r c).value = some a) : Resting α r := by
  intro c none
  obtain ⟨a, value⟩ := h c
  rw [none] at value
  cases value

theorem Resting.bind {r : Reader α} {f : α → Reader β} (hr : Resting α r) (hf : ∀ a, Resting β (f a)) :
    Resting β (r >>= f) := by
  intro c none
  cases value : (r c).value with
  | none =>
    rw [bind_apply_of_none value]
    exact hr c value
  | some a =>
    rw [bind_apply_of_some value] at none ⊢
    rw [← Cursor.skip_skip]
    exact hf a _ none

theorem resting_pure (a : α) : Resting α (pure a) :=
  resting_of_value fun _ => ⟨a, rfl⟩

theorem resting_report (p : Problem) : Resting Unit (report p) :=
  resting_of_value fun _ => ⟨(), rfl⟩

/-- To give up is to move to the next semicolon. -/
theorem resting_abandon : Resting α abandon := by
  intro c _ t ht
  have ahead : (c.skip (abandon c : Outcome α).steps).ahead = c.ahead.dropWhile (·.kind ≠ .semicolon) :=
    drop_length_takeWhile _ _
  rw [ahead] at ht
  have stop := List.head?_dropWhile_not (fun t : Token => decide (t.kind ≠ .semicolon)) c.ahead
  rw [Option.mem_def.1 ht] at stop
  simpa using stop

theorem resting_current : Resting Token current := by
  intro c none t ht
  cases ahead : c.ahead with
  | nil => simp [current, ahead] at ht
  | cons u us => simp [current, ahead] at none

theorem resting_expect (kinds : List Token.Kind) (expected : String) : Resting Bool (expect kinds expected) := by
  refine Resting.bind (resting_of_value fun _ => ⟨(), rfl⟩) fun _ =>
    Resting.bind (resting_of_value fun c => ⟨c, rfl⟩) fun c => ?_
  split
  · split
    · exact resting_pure true
    · exact (resting_report _).bind fun _ => resting_pure false
  · exact (resting_report _).bind fun _ => resting_pure false

/-- **Wherever reading is abandoned, the cursor stands on a semicolon or beyond the last token.** -/
theorem writingLaw_resting : WritingLaw Resting where
  pure := resting_pure
  bind := Resting.bind
  here := resting_of_value fun c => ⟨c, rfl⟩
  current := resting_current
  report := fun p _ => resting_report p
  refuse := fun p _ => (resting_report p).bind fun _ => resting_abandon
  expect := resting_expect
  demandOneOf := fun kinds expected => (resting_expect kinds expected).bind fun met => by
    cases met with
    | true => exact resting_pure ()
    | false => exact resting_abandon
  copy := resting_of_value fun _ => ⟨(), rfl⟩
  collect := fun stop r progress _ => resting_of_value (exists_collectUntil_value stop r progress)

/-! ### Where declarations end -/

/-- A declaration ends on its semicolon. -/
theorem endsOn_declaration (types : Structs) : EndsOn .semicolon (declaration types) :=
  .bind fun _ => .bind fun _ => .bind fun _ => .bind fun _ => .bind fun _ => .bind fun _ => .bind fun v =>
    (endsOn_demand .semicolon "a semicolon").copy_pure v

theorem endsOn_uniform (types : Structs) : EndsOn .semicolon (uniform types) :=
  .bind fun _ => (endsOn_declaration types).map Action.declare

/-- The newline after the definition of a struct type does not move the cursor. -/
theorem endsOn_structDefinition (types : Structs) : EndsOn .semicolon (structDefinition types) := by
  intro c action value
  rw [structDefinition_eq] at value ⊢
  obtain ⟨body, first, -⟩ := value_bind_eq_some_iff.1 value
  rw [bind_apply_of_some first]
  exact endsOn_structBody types c body first

theorem steps_uniform_pos (types : Structs) (c : Cursor) : 0 < (uniform types c).steps := by
  rw [uniform, bind_apply_of_some (a := ()) rfl]
  exact Nat.lt_of_lt_of_le (steps_declaration_pos types _)
    (Nat.le_trans (steps_le_steps_bind _ _ _) (Nat.le_add_left _ _))

theorem steps_structDefinition_pos (types : Structs) (c : Cursor) : 0 < (structDefinition types c).steps := by
  rw [structDefinition, bind_apply_of_some (a := ()) rfl]
  exact Nat.lt_of_lt_of_le (steps_demand_pos .keyword "a struct name" _)
    (Nat.le_trans (steps_le_steps_bind _ _ _) (Nat.le_add_left _ _))

/-- The position on which the reader stops if it starts at a position of the tokens. -/
def stop (r : Reader α) (ts : List Token) (start : Nat) : Nat :=
  let c := (Cursor.start ts).skip start
  (c.skip (r c).steps).index

/-- There is a semicolon at a position of the tokens. -/
def SemicolonAt (ts : List Token) (position : Nat) : Prop :=
  ∃ t, ts[position]? = some t ∧ t.kind = .semicolon

/-- If the reader starts at a position of the tokens, which may lie beyond the last one, it moves on and stops on a
semicolon, or beyond the last token if it is abandoned. -/
structure Progresses (r : Reader α) (ts : List Token) (start : Nat) : Prop where
  /-- It moves on. -/
  forward : start < r.stop ts start
  /-- If something is read, it stops on a semicolon. -/
  ended : ∀ a, (r ((Cursor.start ts).skip start)).value = some a → SemicolonAt ts (r.stop ts start)
  /-- If it is abandoned, it stops on a semicolon or beyond the last token. -/
  abandoned : (r ((Cursor.start ts).skip start)).value = none →
    SemicolonAt ts (r.stop ts start) ∨ ts.length ≤ r.stop ts start

/-- A reader that moves the cursor, ends on a semicolon and rests where it is abandoned makes progress. -/
theorem progresses {r : Reader α} (moves : ∀ c, 0 < (r c).steps) (ends : EndsOn .semicolon r) (rests : Resting α r)
    (ts : List Token) (start : Nat) : r.Progresses ts start := by
  let c := (Cursor.start ts).skip start
  have stop : r.stop ts start = start + (r c).steps := by simp [Reader.stop, c, Cursor.start]
  have under : (c.skip (r c).steps).ahead.head? = ts[r.stop ts start]? := by
    rw [stop, Cursor.ahead_skip, List.head?_drop, Cursor.ahead_skip, List.getElem?_drop]
    rfl
  refine ⟨?_, fun a value => ?_, fun none => ?_⟩
  · have := moves c
    omega
  · obtain ⟨t, rest, ahead, hk⟩ := ends c a value
    exact ⟨t, by rw [← under, ahead]; rfl, hk⟩
  · have rested := rests c none
    rw [Cursor.Rests, under] at rested
    cases token : ts[r.stop ts start]? with
    | none => exact .inr (List.getElem?_eq_none_iff.1 token)
    | some t => exact .inl ⟨t, token, rested t token⟩

/-! ### The fields of a struct type -/

/-- A round of the loop over the fields of a struct type: there is a token that is no blank and no closing brace, and
the declaration of a field is read. -/
structure FieldRound (types : Structs) (c d : Cursor) : Prop where
  /-- The loop goes on. -/
  more : ¬ (c.nextKind = none ∨ c.nextKind = some .closeCurly)
  /-- The cursor after the declaration. -/
  after : d = c.skip (declaration types c).steps

theorem FieldRound.length_lt {types : Structs} {c d : Cursor} (h : FieldRound types c d) :
    d.ahead.length < c.ahead.length := by
  rw [h.after]
  exact Cursor.length_ahead_skip_lt (Cursor.ahead_ne_nil_of_nextKind fun none => h.more (.inl none))
    (steps_declaration_pos types c)

/-- **The loop over the fields of a struct type comes to an end, with no more rounds than there are tokens.** -/
theorem endsWithin_structFields (types : Structs) (c : Cursor) :
    EndsWithin (FieldRound types) c.ahead.length c (c.skip (structFields types c).steps) := by
  have loop : (∃ n, Rounds (FieldRound types) n c (c.skip (structFields types c).steps)) ∧
      ∀ d, ¬ FieldRound types (c.skip (structFields types c).steps) d := by
    unfold structFields
    induction c using collectUntil.induct .closeCurly (declaration types) (steps_declaration_pos types) with
    | case1 c h =>
      rw [collectUntil_of_stop h]
      exact ⟨⟨0, .none c⟩, fun d round => round.more h⟩
    | case2 c h _ ih =>
      obtain ⟨⟨n, rounds⟩, ended⟩ := ih
      rw [collectUntil_of_more h, ← Cursor.skip_skip]
      exact ⟨⟨n + 1, .further ⟨h, rfl⟩ rounds⟩, ended⟩
  exact .of_smaller (fun d => d.ahead.length) (fun _ _ => FieldRound.length_lt) loop.1 loop.2

end Reader

end ShaderWeave
