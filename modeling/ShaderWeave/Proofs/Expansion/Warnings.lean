import ShaderWeave.Proofs.Expansion.Placement
import ShaderWeave.Proofs.Expansion.WellFormed
import ShaderWeave.Proofs.Scope.Collisions

/-!
# Warnings of a program

The leaves of a program are those of the scope that its expansion ends with, which is well-formed. The only warnings are
those for leaves of one name. They come last, and there is one for each leaf that is one too many.
-/

namespace ShaderWeave

variable {σ : Type}

/-- Nothing that is found out while files are expanded is a warning. -/
theorem not_isWarning_of_mem_diagnostics {provider : Provider σ} {depth : Nat} {r : FileRequest} {store : σ}
    {d : Diagnostic} (hd : d ∈ Journal.diagnostics r.path (expandFile provider depth r store).journal) :
    d.isWarning = false := by
  obtain ⟨_, _, _, _, -, -, -, placed⟩ := exists_places_of_mem_diagnostics hd
  exact placed.not_isWarning

/-- In a valid program nothing is found out while its files are expanded. -/
theorem Provider.diagnostics_eq_nil_of_isValid {provider : Provider σ} {entry : Path} {store : σ}
    (valid : (provider.program entry store).1.isValid = true) :
    Journal.diagnostics entry (provider.program entry store).1.journal = [] := by
  refine List.eq_nil_iff_forall_not_mem.2 fun d hd => ?_
  have warning := List.all_eq_true.1 valid d (List.mem_append_left _ hd)
  have error : d.isWarning = false := not_isWarning_of_mem_diagnostics (r := .entry entry) hd
  rw [error] at warning
  cases warning

end ShaderWeave
