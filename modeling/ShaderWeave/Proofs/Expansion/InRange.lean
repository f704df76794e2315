import ShaderWeave.Program
import ShaderWeave.Proofs.Expansion.Refusals
import ShaderWeave.Proofs.Lexing.Slicing
import ShaderWeave.Proofs.Reader.InRange

/-!
# Reads in range

All reads are in range: whatever a provider answers, no file is asked for a token that it does not have
(`misreads_expandFile`), and no piece of a text is cut out at positions that it does not have.
-/

namespace ShaderWeave

variable {σ : Type}

/-- The reads out of range in a journal are those of the file itself and those of the files it opened. -/
theorem Journal.misreads_eq_nil {j : Journal} (own : ∀ i, .misread i ∉ Journal.own j)
    (opened : ∀ m q result body, .expand m q result body ∈ j → Journal.misreads body = []) :
    Journal.misreads j = [] := by
  refine isView_misreads.eq_nil_iff.2 fun e he => ?_
  cases e with
  | output o =>
    cases o with
    | misread i => exact absurd (Journal.mem_own_iff.2 he) (own i)
    | _ => rfl
  | expand m q result body => exact opened m q result body he
  | _ => rfl

namespace FileContext

variable (ctx : FileContext σ)

/-- Constructs are read from tokens of the file. -/
theorem misread_notMem_walk (s : FileState σ) (c : Cursor) (i : Nat) :
    .misread i ∉ Journal.own (ctx.walk s c).2 := by
  induction s, c using ctx.walk_induction with
  | done s c h =>
    rw [ctx.walk_of_end h]
    exact List.not_mem_nil
  | more s c h ih =>
    rw [ctx.walk_of_ahead h]
    dsimp only
    rw [Journal.own_append]
    intro hi
    rcases List.mem_append.1 hi with hi | hi
    · obtain ⟨ps, own, problems⟩ := ctx.own_finish s c (ctx.read s c)
      rw [own] at hi
      rcases List.mem_append.1 hi with hi | hi
      · exact Reader.misread_notMem_construct _ _ _ h i hi
      · obtain ⟨_, _, _, _, -, hp, -⟩ := problems _ hi
        cases hp
    · exact ih hi

end FileContext

/-- A file itself reads no token that it does not have. -/
theorem misread_notMem_openFile (provider : Provider σ) (nested : FileRequest → σ → Expansion σ) (r : FileRequest)
    (store : σ) (i : Nat) : .misread i ∉ Journal.own (openFile provider nested r store).journal := by
  cases hn : r.path.namesFile with
  | false =>
    rw [openFile_of_nameless provider nested store hn]
    simp [Journal.own, Entry.problem, Entry.own?]
  | true =>
    cases hl : (provider.load store r.path).1 with
    | error cause =>
      rw [openFile_of_unloaded provider nested hn hl]
      simp [Journal.own, Entry.problem, Entry.own?]
    | ok content =>
      rw [openFile_of_loaded provider nested hn hl]
      simp only [FileRequest.conclude, Journal.own_append, own_opening, List.mem_append, List.mem_map, not_or]
      exact ⟨by simp, (r.context provider nested).misread_notMem_walk _ _ i⟩

/-- **No token is read that its file does not have.** -/
theorem misreads_expandFile (provider : Provider σ) (depth : Nat) (r : FileRequest) (store : σ) :
    Journal.misreads (expandFile provider depth r store).journal = [] := by
  induction depth generalizing r store with
  | zero => rfl
  | succ depth ih =>
    refine Journal.misreads_eq_nil (misread_notMem_openFile provider (expandFile provider depth) r store) ?_
    intro m q result body h
    obtain ⟨-, -, u, -, rfl⟩ := (openFile_opened provider (expandFile provider depth) r store).order_of_mem h
    exact ih q u

/-- **All reads are in range.** Whatever the provider, no file is asked for a token that it does not have, be it
expanded by itself or for a program; and whatever the characters of a text or a word, each slice of it exists, and the
slices are the tokens of the text and the parts of the word. -/
theorem reads_in_range (provider : Provider σ) :
    (∀ depth r store, Journal.misreads (expandFile provider depth r store).journal = []) ∧
      (∀ entry store, Journal.misreads (provider.program entry store).1.journal = []) ∧
      (∀ text, slicedLex? text = some (lex text)) ∧ ∀ word, slicedVectorType? word = some (vectorType? word) :=
  ⟨misreads_expandFile provider, fun entry store => misreads_expandFile provider _ (.entry entry) store, slicedLex?_eq,
    slicedVectorType?_eq⟩

end ShaderWeave
