import ShaderWeave.Proofs.Expansion.Stages

/-!
# Expansions within an expansion

The journal of an expansion holds the journals of the files that it opens, and these hold further ones. `Nests` lists
all of them, each with the files that are being expanded at that moment, from the first one down.

Every diagnostic of an expansion is a problem that one of the files puts out itself, and names that file
(`exists_nests_of_mem_diagnostics`).
-/

namespace ShaderWeave

variable {σ : Type}

/-- The expansion of the file of `r`, which hands back `result` and has the journal `j`, nests the expansion of the file
of `q`, which hands back `result'` and has the journal `body`, while the files of `stack` are being expanded. -/
inductive Nests (r : FileRequest) (result : FileResult) (j : Journal) :
    List Path → FileRequest → FileResult → Journal → Prop
  /-- It is the expansion itself. -/
  | itself : Nests r result j [] r result j
  /-- It is that of a file that a nested one opens. -/
  | opened {stack : List Path} {q q' : FileRequest} {result' result'' : FileResult} {body body' : Journal} {m : Manner}
    (outer : Nests r result j stack q result' body) (h : .expand m q' result'' body' ∈ body) :
    Nests r result j (stack ++ [q.path]) q' result'' body'

namespace Nests

variable {r r' q : FileRequest} {result outcome result' : FileResult} {j k body : Journal} {m : Manner}
  {stack : List Path}

/-- What a file nests that is opened is nested in the file that opens it. -/
theorem within (he : .expand m r' outcome k ∈ j) (h : Nests r' outcome k stack q result' body) :
    Nests r result j (r.path :: stack) q result' body := by
  induction h with
  | itself => exact .opened .itself he
  | opened _ h ih => exact .opened ih h

/-- A nested expansion is one in its own right, and knows which files are being expanded. -/
theorem of_expandFile {provider : Provider σ} {depth : Nat} {store : σ} (h : Nests r result j stack q result' body)
    (hr : result = (expandFile provider depth r store).result)
    (hj : j = (expandFile provider depth r store).journal) :
    q.chain.active = r.chain.active ++ stack ∧ ∃ d u, result' = (expandFile provider d q u).result ∧
      body = (expandFile provider d q u).journal := by
  induction h with
  | itself => exact ⟨(List.append_nil _).symm, depth, store, hr, hj⟩
  | opened _ he ih =>
    obtain ⟨active, d, u, -, rfl⟩ := ih
    obtain ⟨active', -, d', u', same⟩ := order_of_mem_expandFile he
    exact ⟨by rw [active', active, List.append_assoc], d', u', same⟩

end Nests

mutual

theorem Entry.exists_nests_of_mem_diagnostics (r : FileRequest) (result : FileResult) {j : Journal} {d : Diagnostic} :
    ∀ e : Entry, e ∈ j → d ∈ Entry.diagnostics r.path e → ∃ stack q result' body,
      Nests r result j stack q result' body ∧ .problem d.problem d.line ∈ body ∧ d.file = q.path.text
  | .output (.problem p line), he, hd => by
    obtain rfl : d = ⟨r.path.text, line, p⟩ := List.mem_singleton.1 hd
    exact ⟨[], r, result, j, .itself, he, rfl⟩
  | .expand m q result' body, he, hd => by
    obtain ⟨stack, q', result'', body', nests, own⟩ :=
      Journal.exists_nests_of_mem_diagnostics q result' body (List.Subset.refl _) hd
    exact ⟨_, q', result'', body', nests.within he, own⟩
  | .output (.copy _), _, hd | .output (.newline _), _, hd | .output (.misread _), _, hd | .request _ _, _, hd
  | .resolve _ _, _, hd | .load _ _, _, hd | .lexed _, _, hd | .abandon _, _, hd | .skip _, _, hd
  | .tooDeep _, _, hd => absurd hd List.not_mem_nil

/-- **Every diagnostic of an expansion is a problem of a file whose expansion it nests.** -/
theorem Journal.exists_nests_of_mem_diagnostics (r : FileRequest) (result : FileResult) {j : Journal} {d : Diagnostic} :
    ∀ k : List Entry, k ⊆ j → d ∈ Journal.diagnostics r.path k → ∃ stack q result' body,
      Nests r result j stack q result' body ∧ .problem d.problem d.line ∈ body ∧ d.file = q.path.text
  | [], _, hd => absurd hd List.not_mem_nil
  | e :: k, hk, hd => by
    obtain ⟨he, hk⟩ := List.cons_subset.1 hk
    rcases List.mem_append.1 hd with hd | hd
    · exact Entry.exists_nests_of_mem_diagnostics r result e he hd
    · exact Journal.exists_nests_of_mem_diagnostics r result k hk hd

end

end ShaderWeave
