import ShaderWeave.Proofs.Expansion.Transcript
import ShaderWeave.Proofs.Reader.Progress

/-!
# The loop over the constructs of a file

A construct ends on its last token, and the next one starts a token later, so in each round of the loop over the
constructs of a file the cursor moves on, even if nothing is read. `declarations_progress` says of all tokens, and of a
start at any position, that declarations move on and stop on a semicolon, and that both loops that depend on this come
to an end: the one over the fields of a struct type and the one over constructs.
-/

namespace ShaderWeave

variable {σ : Type}

namespace FileContext

/-- A round of the loop over the constructs of a file: there is a token, and the construct under the cursor is read and
finished. -/
structure ConstructRound (ctx : FileContext σ) (a b : FileState σ × Cursor) : Prop where
  /-- The loop goes on. -/
  more : a.2.ahead ≠ []
  /-- The state after the construct, and the cursor on the token after it. -/
  after : b = ((ctx.finish a.1 a.2 (ctx.read a.1 a.2)).1, a.2.skip ((ctx.read a.1 a.2).steps + 1))

variable {ctx : FileContext σ}

theorem ConstructRound.length_lt {a b : FileState σ × Cursor} (h : ctx.ConstructRound a b) :
    b.2.ahead.length < a.2.ahead.length := by
  rw [h.after]
  exact Cursor.length_ahead_skip_lt h.more (Nat.succ_pos _)

/-- Constructs one after another are read in rounds of the loop. -/
theorem Leads.exists_rounds {s t : FileState σ} {c d : Cursor} {j : Journal} (h : ctx.Leads s c j t d) :
    ∃ n, Rounds ctx.ConstructRound n (s, c) (t, d) := by
  induction h with
  | here s c => exact ⟨0, .none (s, c)⟩
  | further hc _ ih =>
    obtain ⟨n, rounds⟩ := ih
    exact ⟨n + 1, .further ⟨hc, rfl⟩ rounds⟩

/-- **The loop over the constructs of a file comes to an end, with no more rounds than there are tokens.** -/
theorem exists_endsWithin_walk (ctx : FileContext σ) (s : FileState σ) (c : Cursor) :
    ∃ d, EndsWithin ctx.ConstructRound c.ahead.length (s, c) ((ctx.walk s c).1, d) := by
  obtain ⟨d, leads, last⟩ := ctx.leads_walk s c
  exact ⟨d, .of_smaller (fun a => a.2.ahead.length) (fun _ _ => ConstructRound.length_lt) leads.exists_rounds
    fun _ round => round.more last⟩

end FileContext

/-- **Declarations make progress, so loops over them come to an end.** Whatever the tokens and wherever it starts, also
beyond the last token, a declaration moves on and stops on a semicolon, or beyond the last token if it is abandoned. So
do the definition of a struct type and the declaration of a uniform. The loop over the fields of a struct type and the
loop over the constructs of a file therefore end, and have no more rounds than there are tokens left. -/
theorem declarations_progress (types : Structs) (ts : List Token) (start : Nat) (ctx : FileContext σ)
    (s : FileState σ) :
    let c := (Cursor.start ts).skip start
    (Reader.declaration types).Progresses ts start ∧ (Reader.structDefinition types).Progresses ts start ∧
      (Reader.uniform types).Progresses ts start ∧
      EndsWithin (Reader.FieldRound types) (ts.length - start) c (c.skip (Reader.structFields types c).steps) ∧
      ∃ d, EndsWithin ctx.ConstructRound (ts.length - start) (s, c) ((ctx.walk s c).1, d) := by
  intro c
  have left : c.ahead.length = ts.length - start := List.length_drop
  have rests := Reader.writingLaw_resting
  have newline : Reader.Resting Unit Reader.newline := Reader.resting_of_value fun _ => ⟨(), rfl⟩
  rw [← left]
  exact ⟨Reader.progresses (Reader.steps_declaration_pos types) (Reader.endsOn_declaration types)
      (rests.declaration types) ts start,
    Reader.progresses (Reader.steps_structDefinition_pos types) (Reader.endsOn_structDefinition types)
      (rests.structDefinition newline types) ts start,
    Reader.progresses (Reader.steps_uniform_pos types) (Reader.endsOn_uniform types) (rests.uniform types) ts start,
    Reader.endsWithin_structFields types c, ctx.exists_endsWithin_walk s c⟩

end ShaderWeave
