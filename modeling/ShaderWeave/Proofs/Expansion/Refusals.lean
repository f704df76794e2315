import ShaderWeave.Proofs.Expansion.Run
import ShaderWeave.Proofs.Reader.Sight

/-!
# What a file puts out itself

The journal of a file holds what is put out while its own tokens are read, and the journals of the files that it opens.
`Journal.own` is the former. By `FileContext.own_finish` it consists, for each construct, of what was put out while the
construct was read and of what is wrong with the file it asks for. `FileContext.Refusal` lists what that can be, and in
which state: in particular, only a file that is being expanded is refused as a cycle.
-/

namespace ShaderWeave

variable {σ : Type}

/-- What is put out while a file is read, if the entry is that. -/
def Entry.own? : Entry → Option Output
  | .output o => some o
  | _ => none

/-- What is put out while a file is read, in order. What other files put out is left out. -/
def Journal.own (j : Journal) : List Output :=
  j.filterMap Entry.own?

namespace Journal

theorem own_append (j k : Journal) : own (j ++ k) = own j ++ own k :=
  List.filterMap_append

theorem own_map_output (os : List Output) : own (os.map .output) = os := by
  simp [own, List.filterMap_map, Function.comp_def, Entry.own?]

theorem mem_own_iff {j : Journal} {o : Output} : o ∈ own j ↔ .output o ∈ j := by
  rw [own, List.mem_filterMap]
  constructor
  · rintro ⟨e, he, ho⟩
    cases e with
    | output o' =>
      obtain rfl : o' = o := by simpa [Entry.own?] using ho
      exact he
    | _ => simp [Entry.own?] at ho
  · exact fun h => ⟨_, h, rfl⟩

end Journal

/-- Before the first construct, a file reports the strings that are left open. -/
theorem own_opening (path : Path) (content : String) :
    Journal.own (opening path content) = (unclosedLines content).map (Output.problem .unclosedString) := by
  simp [opening, Journal.own, List.filterMap_cons, List.filterMap_map, Function.comp_def, Entry.own?, Entry.problem]

namespace FileContext

/-- What is wrong with a file that is asked for in a state. -/
inductive Refusal (ctx : FileContext σ) (s : FileState σ) : Manner → Problem → Prop
  /-- The written path stands for no file. -/
  | notFound (m : Manner) {written cause : String} (h : ctx.provider.resolve s.store written = .error cause) :
    Refusal ctx s m (.notFound written cause)
  /-- The file is being expanded. A file that has been included is not asked for again. -/
  | cycle {m : Manner} {path : Path} (active : path ∈ ctx.active) (unvisited : m = .included → path ∉ s.visited) :
    Refusal ctx s m (.cycle path.text ctx.path.text)
  /-- The file to be linked is no vertex shader. -/
  | linkToOther {path : Path} (h : path.isVertex = false) : Refusal ctx s .linked (.linkToOther path.text)
  /-- A vertex shader has been found before. -/
  | secondVertexShader (m : Manner) (found : s.vertex.isSome) : Refusal ctx s m .secondVertexShader

/-- All that a file puts out itself, with some entries, is what is wrong with the file it asks for on a line. -/
def Refuses (ctx : FileContext σ) (s : FileState σ) (m : Manner) (line : Nat) (j : Journal) : Prop :=
  ∀ o ∈ Journal.own j, ∃ p, o = .problem p line ∧ ctx.Refusal s m p

section Refuses

variable {ctx : FileContext σ} {s : FileState σ} {m : Manner} {line : Nat} {j k : Journal}

theorem refuses_of_own_eq_nil (h : Journal.own j = []) : ctx.Refuses s m line j := by
  simp [Refuses, h]

theorem refuses_problem {p : Problem} (h : ctx.Refusal s m p) : ctx.Refuses s m line [.problem p line] := by
  intro o ho
  exact ⟨p, by simpa [Journal.own, Entry.problem, Entry.own?] using ho, h⟩

theorem Refuses.append (hj : ctx.Refuses s m line j) (hk : ctx.Refuses s m line k) :
    ctx.Refuses s m line (j ++ k) := by
  intro o ho
  rw [Journal.own_append] at ho
  exact (List.mem_append.1 ho).elim (hj o) (hk o)

/-- An entry that puts out nothing of the file itself may come first. -/
theorem Refuses.cons {e : Entry} (he : e.own? = none) (hj : ctx.Refuses s m line j) :
    ctx.Refuses s m line (e :: j) := by
  intro o ho
  rw [Journal.own, List.filterMap_cons_none he] at ho
  exact hj o ho

end Refuses

variable (ctx : FileContext σ)

theorem refuses_includePath (path : Path) (line : Nat) (s : FileState σ) :
    ctx.Refuses s .included line (ctx.includePath path line s).2 := by
  by_cases hv : path ∈ s.visited
  · rw [includePath, if_pos hv]
    exact refuses_of_own_eq_nil rfl
  by_cases ha : path ∈ ctx.active
  · rw [includePath, if_neg hv, if_pos ha]
    exact refuses_problem (.cycle ha fun _ => hv)
  · rw [ctx.includePath_of_fresh hv ha]
    refine .cons rfl ?_
    split_ifs with both
    · exact refuses_problem (.secondVertexShader _ (Bool.and_eq_true_iff.1 both).1)
    · exact refuses_of_own_eq_nil rfl

theorem refuses_linkPath (path : Path) (line : Nat) (s : FileState σ) :
    ctx.Refuses s .linked line (ctx.linkPath path line s).2 := by
  have check : ctx.Refuses s .linked line (linkCheck path line) := by
    rw [linkCheck]
    split_ifs with h
    · exact refuses_of_own_eq_nil rfl
    · exact refuses_problem (.linkToOther (by simpa using h))
  by_cases ha : path ∈ ctx.active
  · rw [ctx.linkPath_of_active ha]
    exact check.append (refuses_problem (.cycle ha (by simp)))
  · rw [ctx.linkPath_of_inactive ha]
    exact check.append (refuses_of_own_eq_nil rfl)

theorem refuses_openRequest (m : Manner) (written : String) (line : Nat) (s : FileState σ) :
    ctx.Refuses s m line (ctx.openRequest m written line s).2 := by
  rw [openRequest]
  split_ifs with h
  · exact refuses_problem (.secondVertexShader m h.2)
  · refine .cons rfl ?_
    cases answer : ctx.provider.resolve s.store written with
    | error cause => exact refuses_problem (.notFound m answer)
    | ok path =>
      cases m with
      | included => exact ctx.refuses_includePath path line s
      | linked => exact ctx.refuses_linkPath path line s

/-- **For a construct, a file puts out what it did while the construct was read, and then what is wrong with the file
that the construct asks for.** -/
theorem own_finish (s : FileState σ) (c : Cursor) (o : Outcome Action) :
    ∃ ps, Journal.own (ctx.finish s c o).2 = o.output ++ ps ∧ ∀ p ∈ ps, ∃ m written line problem,
      o.value = some (.request m written line) ∧ p = .problem problem line ∧ ctx.Refusal s m problem := by
  rw [finish]
  cases value : o.value with
  | none =>
    refine ⟨[], ?_, by simp⟩
    rw [Journal.own_append, Journal.own_map_output]
    rfl
  | some a =>
    refine ⟨Journal.own (ctx.perform s a).2, by rw [Journal.own_append, Journal.own_map_output], fun p hp => ?_⟩
    cases a with
    | request m written line =>
      have refuses : ctx.Refuses s m line (ctx.perform s (.request m written line)).2 :=
        .cons rfl (ctx.refuses_openRequest m written line s)
      obtain ⟨problem, rfl, refusal⟩ := refuses p hp
      exact ⟨m, written, line, problem, rfl, rfl, refusal⟩
    | _ => simp [perform, Journal.own] at hp

end FileContext

end ShaderWeave
