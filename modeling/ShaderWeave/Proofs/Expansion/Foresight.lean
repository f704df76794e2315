import ShaderWeave.Program
import ShaderWeave.Provider.Memory
import ShaderWeave.Proofs.Expansion.Nesting
import ShaderWeave.Proofs.Expansion.Refusals
import ShaderWeave.Proofs.Expansion.Stages
import ShaderWeave.Proofs.Reader.Foresight

/-!
# Problems that no run has

A file is read from the tokens of the text that was loaded for it, in which each token with the kind of a truth value
reads `true` or `false` (`Occurs.truthful`). So whatever a provider answers, no file of a run reports a problem that is
ruled out, be it expanded by itself or for a program.
-/

namespace ShaderWeave

variable {σ : Type}

namespace FileContext

variable {ctx : FileContext σ} {s t : FileState σ} {c d : Cursor} {j : Journal} {m : Manner} {p : Problem}

/-- What lies ahead was ahead before. -/
theorem Leads.ahead_suffix (h : ctx.Leads s c j t d) : d.ahead <:+ c.ahead := by
  induction h with
  | here => exact List.suffix_refl _
  | further _ _ ih => exact ih.trans (List.drop_suffix _ _)

/-- What is wrong with a file that is asked for is not ruled out. -/
theorem Refusal.isRuledOut (h : ctx.Refusal s m p) : p.isRuledOut = false := by
  cases h <;> rfl

theorem isRuledOut_of_mem_finish (hc : ∀ t ∈ c.ahead, t.Truthful) {line : Nat}
    (h : .problem p line ∈ (ctx.finish s c (ctx.read s c)).2) : p.isRuledOut = false := by
  obtain ⟨ps, own, refused⟩ := ctx.own_finish s c (ctx.read s c)
  rw [Entry.problem, ← Journal.mem_own_iff, own] at h
  rcases List.mem_append.1 h with h | h
  · have reported : (p, line) ∈ (ctx.read s c).faults := List.mem_filterMap.2 ⟨_, h, rfl⟩
    exact Reader.sound_construct ctx.path ctx.standsAlone s.scope.structs c hc _ reported
  · obtain ⟨_, _, _, p', -, same, refusal⟩ := refused _ h
    obtain ⟨rfl, -⟩ := Output.problem.inj same
    exact refusal.isRuledOut

end FileContext

section Files

variable {provider : Provider σ} {nested : FileRequest → σ → Expansion σ} {depth : Nat} {r q : FileRequest} {store : σ}
  {s : FileState σ} {c : Cursor}

theorem FileRequest.Reaches.truthful (h : r.Reaches provider nested store s c) : ∀ t ∈ c.ahead, t.Truthful := by
  obtain ⟨-, content, j, -, leads⟩ := h
  intro t ht
  have token : t ∈ lex content := leads.ahead_suffix.subset ht
  exact truthful_of_mem_lex token

/-- **Wherever a file is read, the tokens ahead with the kind of a truth value read true or false.** -/
theorem Occurs.truthful (h : Occurs provider depth r store q s c) : ∀ t ∈ c.ahead, t.Truthful := by
  induction h with
  | here reached => exact reached.truthful
  | within _ _ _ ih => exact ih

theorem isRuledOut_of_mem_openFile {p : Problem} {line : Nat}
    (h : .problem p line ∈ (openFile provider nested r store).journal) : p.isRuledOut = false := by
  rcases exists_reaches_of_mem h with preliminary | ⟨s, c, reached, he, -⟩
  · cases preliminary <;> rfl
  · exact FileContext.isRuledOut_of_mem_finish reached.truthful he

/-- **No diagnostic of an expansion is ruled out.** -/
theorem isRuledOut_of_mem_diagnostics {d : Diagnostic}
    (hd : d ∈ Journal.diagnostics r.path (expandFile provider depth r store).journal) :
    d.problem.isRuledOut = false := by
  obtain ⟨_, q, _, body, nests, recorded, -⟩ :=
    Journal.exists_nests_of_mem_diagnostics r (expandFile provider depth r store).result _ (List.Subset.refl _) hd
  obtain ⟨-, depth', u, -, rfl⟩ := nests.of_expandFile rfl rfl
  cases depth' with
  | zero => simp [expandFile, Entry.problem] at recorded
  | succ _ => exact isRuledOut_of_mem_openFile recorded

end Files

/-- **What has been seen to come next is found.** To look ahead and to expect a token agree wherever the cursor stands,
and at every stage of a run the tokens ahead with the kind of a truth value read true or false. So no diagnostic of a
run, of a file or of a program, says that a truth value is neither of the two words, or that an equals sign or a minus
sign is missing. -/
theorem foreseen_is_found (provider : Provider σ) :
    (∀ depth r store, ∀ d ∈ Journal.diagnostics r.path (expandFile provider depth r store).journal,
      d.problem.isRuledOut = false) ∧
    (∀ entry store, ∀ d ∈ (provider.program entry store).1.diagnostics, d.problem.isRuledOut = false) ∧
    (∀ depth r store q s c, Occurs provider depth r store q s c →
      ∀ t ∈ c.ahead, t.kind = .boolean → t.text = "true" ∨ t.text = "false") ∧
    ∀ kinds expected c, Reader.Agrees kinds expected c := by
  refine ⟨fun _ _ _ _ => isRuledOut_of_mem_diagnostics, fun entry store d hd => ?_,
    fun _ _ _ _ _ _ occurs t ht kind => ?_, Reader.agrees_expect⟩
  · rcases List.mem_append.1 hd with hd | hd
    · have found : d ∈ Journal.diagnostics (FileRequest.entry entry).path
          (expandFile provider (provider.reach store) (.entry entry) store).journal := hd
      exact isRuledOut_of_mem_diagnostics found
    · obtain ⟨name, -, rfl⟩ := List.mem_map.1 hd
      rfl
  · obtain ⟨b, text⟩ := occurs.truthful t ht kind
    cases b with
    | true => exact .inl text
    | false => exact .inr text

/-- Two uniforms whose values fail right behind what has been seen to come, and one with a truth value. -/
def faultyText : String :=
  "uniform bool lit = 1;\nuniform int n = - ;\nuniform bool on = false;\n"

/-- The file, which never changes. -/
def faultyFiles : MemoryFiles :=
  MemoryFiles.empty.put "a.frag" [some faultyText]

/-- The equals signs and the minus sign are found, and what is reported is what comes after them. -/
theorem foreseen_is_found_faulty :
    let r : FileRequest := .entry ⟨"a.frag"⟩
    let p := (MemoryFiles.provider.program ⟨"a.frag"⟩ faultyFiles).1
    p.diagnostics = [⟨"a.frag", 1, .unexpected "a boolean value" "1"⟩,
        ⟨"a.frag", 2, .unexpected "an integer value" ";"⟩] ∧
      (∀ d ∈ p.diagnostics, d.problem.isRuledOut = false) ∧
      ∃ s c, Occurs MemoryFiles.provider 1 r faultyFiles r s c ∧
        ∃ t ∈ c.ahead, t.kind = .boolean ∧ (t.text = "true" ∨ t.text = "false") := by
  intro r p
  have named : r.path.namesFile = true := by decide +kernel
  have loaded : (MemoryFiles.provider.load faultyFiles r.path).1 = .ok faultyText := by decide +kernel
  obtain ⟨-, program, truthful, -⟩ := foreseen_is_found MemoryFiles.provider
  have occurs : Occurs MemoryFiles.provider 1 r faultyFiles r
      (r.initial (MemoryFiles.provider.load faultyFiles r.path).2) (.start (lex faultyText)) :=
    .here ⟨named, faultyText, [], loaded, .here _ _⟩
  have token : (⟨.boolean, "false", 3⟩ : Token) ∈ lex faultyText := by decide +kernel
  exact ⟨by decide +kernel, program ⟨"a.frag"⟩ faultyFiles, _, _, occurs, _, token, rfl,
    truthful 1 r faultyFiles r _ _ occurs _ token rfl⟩

end ShaderWeave
