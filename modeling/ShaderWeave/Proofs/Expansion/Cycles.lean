import ShaderWeave.Proofs.Expansion.Nesting
import ShaderWeave.Proofs.Expansion.Origins
import ShaderWeave.Proofs.Reader.Reporting
import Mathlib.Data.List.Nodup

/-!
# No file within itself

While a file is expanded, the files on the stack are those that are being expanded, the file itself last. A file on the
stack is not opened, so the stack never holds a file twice, and a request for such a file is either skipped, since the
file has been included before, or reported as a cycle.

Which of the two it is depends on the chain: a file that is included is visited before it is expanded, and what is
visited stays so until a linked vertex shader starts a chain of its own. Where no vertex shader is linked, every file on
the stack but the first one has been visited (`visited_of_mem`), so cycles are reported for the first file alone
(`Nests.skips`). The main result is `expandFile_guarded`.
-/

namespace ShaderWeave

variable {σ : Type}

/-- The files that are being expanded while the constructs of a file are, the file itself last. -/
def FileRequest.stack (q : FileRequest) : List Path :=
  q.chain.active ++ [q.path]

/-- The expansion of the file of `q`, nested in that of the file of `r`, keeps the stack, and reports as cycles only
requests for files on it. -/
structure FileRequest.Guarded (r : FileRequest) (stack : List Path) (q : FileRequest) (result : FileResult)
    (body : Journal) : Prop where
  /-- The files of the stack were there before, or have been opened one within the other. -/
  active : q.chain.active = r.chain.active ++ stack
  /-- No file is on the stack twice. -/
  distinct : q.stack.Nodup
  /-- The files that were being expanded before are being expanded afterwards. -/
  returned : result.chain.active = q.chain.active
  /-- A cycle leads from the file itself to one on the stack. -/
  cycles : ∀ file source line, .problem (.cycle file source) line ∈ body →
    source = q.path.text ∧ ∃ path ∈ q.stack, file = path.text

/-- A request of the file of `q` for a file on the stack is skipped, unless it is a request for the file `first`, which
alone can be reported as a cycle. All other files on the stack have been visited. -/
structure FileRequest.Skips (first : Path) (q : FileRequest) (body : Journal) : Prop where
  /-- Every file but the first one has been visited. -/
  visited : ∀ path ∈ q.stack, path = first ∨ path ∈ q.chain.visited
  /-- Only the first one is reported. -/
  cycles : ∀ file source line, .problem (.cycle file source) line ∈ body → file = first.text
  /-- Every other one is skipped. -/
  skipped : ∀ written path, .resolve written (.ok path) ∈ body → path ∈ q.stack → path ≠ first → .skip path ∈ body

/-! ### Links that are asked for -/

mutual

/-- The paths of the vertex shaders that an entry asks for. -/
def Entry.linkRequests : Entry → List String
  | .request .linked written => [written]
  | .expand _ _ _ body => Journal.linkRequests body
  | _ => []

/-- The paths of the vertex shaders that are asked for, at any depth. -/
def Journal.linkRequests : List Entry → List String
  | [] => []
  | e :: j => Entry.linkRequests e ++ Journal.linkRequests j

end

namespace Journal

variable {j body : Journal}

theorem isView_linkRequests : IsView linkRequests Entry.linkRequests :=
  ⟨rfl, fun _ _ => rfl⟩

/-- Where no vertex shader is asked for, files are asked for to be included. -/
theorem included_of_request_mem (h : linkRequests j = []) {m : Manner} {written : String}
    (hm : .request m written ∈ j) : m = .included := by
  cases m with
  | included => rfl
  | linked => exact absurd (isView_linkRequests.eq_nil_iff.1 h _ hm) (List.cons_ne_nil written [])

end Journal

/-- Where no vertex shader is asked for, none is in what is nested. -/
theorem Nests.linkRequests_eq_nil {r q : FileRequest} {result result' : FileResult} {j body : Journal}
    {stack : List Path} (h : Nests r result j stack q result' body) (none : Journal.linkRequests j = []) :
    Journal.linkRequests body = [] := by
  induction h with
  | itself => exact none
  | opened _ he ih =>
    exact Journal.isView_linkRequests.eq_nil_iff.1 ih _ he

/-! ### Requests at a stage -/

namespace FileContext

variable {ctx : FileContext σ} {s t : FileState σ} {c d : Cursor} {j : Journal} {o : Outcome Action} {m : Manner}
  {written : String} {line : Nat}

theorem Leads.ordered (h : ctx.Leads s c j t d) (hc : c.Ordered) : d.Ordered := by
  induction h with
  | here => exact hc
  | further _ _ ih => exact ih (hc.skip _)

/-- What a construct leaves that asks for a file. -/
theorem finish_of_request (s : FileState σ) (c : Cursor) (h : o.value = some (.request m written line)) :
    (ctx.finish s c o).2 = o.output.map .output ++ .request m written :: (ctx.openRequest m written line s).2 := by
  rw [finish, h]
  rfl

theorem request_mem_finish (h : o.value = some (.request m written line)) :
    .request m written ∈ (ctx.finish s c o).2 := by
  rw [ctx.finish_of_request s c h]
  exact List.mem_append_right _ List.mem_cons_self

/-- Problems that readers do not find are what is wrong with the file that is asked for. -/
theorem exists_refusal_of_mem_finish {p : Problem} (hc : c.Ordered) (hp : p.foundInReading = false)
    (h : .problem p line ∈ (ctx.finish s c (ctx.read s c)).2) :
    ∃ m written, (ctx.read s c).value = some (.request m written line) ∧ ctx.Refusal s m p := by
  obtain ⟨ps, own, refused⟩ := ctx.own_finish s c (ctx.read s c)
  have found := (Reader.reporting_construct ctx.path ctx.standsAlone s.scope.structs c hc).found
  rw [Entry.problem, ← Journal.mem_own_iff, own] at h
  rcases List.mem_append.1 h with h | h
  · have reported : (p, line) ∈ (ctx.read s c).faults := List.mem_filterMap.2 ⟨_, h, rfl⟩
    simp [found _ reported] at hp
  · obtain ⟨m, written, line', p', value, same, refusal⟩ := refused _ h
    obtain ⟨rfl, rfl⟩ := Output.problem.inj same
    exact ⟨m, written, value, refusal⟩

/-- A file that is opened resolves no path itself. -/
theorem resolve_notMem_openPath (answer : Except String Path) (path : Path) (s : FileState σ) :
    .resolve written answer ∉ (ctx.openPath m path line s).2 := by
  cases m with
  | included =>
    simp only [openPath, includePath]
    split_ifs <;> simp [Entry.problem]
  | linked =>
    simp only [openPath, linkPath]
    split_ifs <;> simp [Entry.problem]

/-- A path that a construct resolves is the one it asks for, and the file behind it is opened. -/
theorem exists_request_of_resolve_mem {path : Path} (h : .resolve written (.ok path) ∈ (ctx.finish s c o).2) :
    ∃ m line, o.value = some (.request m written line) ∧ (ctx.openPath m path line s).2 ⊆ (ctx.finish s c o).2 := by
  cases value : o.value with
  | none => simp [finish, value] at h
  | some a =>
    cases a with
    | nothing => simp [finish, value, perform] at h
    | declare v => simp [finish, value, perform] at h
    | define name fields => simp [finish, value, perform] at h
    | request m written' line =>
      rw [ctx.finish_of_request s c value] at h ⊢
      simp only [List.mem_append, List.mem_map, reduceCtorEq, and_false, exists_false, List.mem_cons, false_or] at h
      unfold openRequest at h ⊢
      split at h
      · simp [Entry.problem] at h
      next hm =>
        simp only [if_neg hm]
        cases answer : ctx.provider.resolve s.store written' with
        | error cause => simp [answer, Entry.problem] at h
        | ok path' =>
          simp only [answer, List.mem_cons, resolve_notMem_openPath, or_false, Entry.resolve.injEq,
            Except.ok.injEq] at h
          obtain ⟨rfl, rfl⟩ := h
          exact ⟨m, line, rfl, fun e he => List.mem_append_right _ (by simp [he])⟩

end FileContext

section Files

variable {provider : Provider σ} {depth : Nat} {r q : FileRequest} {store : σ} {result result' : FileResult}
  {j body : Journal} {stack : List Path} {s : FileState σ} {c : Cursor}

theorem FileRequest.Reaches.ordered {nested : FileRequest → σ → Expansion σ}
    (h : q.Reaches provider nested store s c) : c.Ordered := by
  obtain ⟨-, content, k, -, leads⟩ := h
  exact leads.ordered (Cursor.ordered_start (pairwise_line_lex content))

/-- What has been visited before a file is expanded has been visited at all of its stages. -/
theorem FileRequest.Reaches.visited (h : q.Reaches provider (expandFile provider depth) store s c) {path : Path}
    (hp : path ∈ q.chain.visited) : path ∈ s.visited := by
  obtain ⟨-, content, k, -, leads⟩ := h
  exact ((leads.run.freshlyIncluded (expandFile_includeFreshly provider depth)).1.visited_iff path).2 (.inl hp)

/-- A cycle that a file reports was refused at one of its stages. -/
theorem exists_refusal_of_mem {file source : String} {line : Nat}
    (h : .problem (.cycle file source) line ∈ (openFile provider (expandFile provider depth) r store).journal) :
    ∃ s c m written, r.Reaches provider (expandFile provider depth) store s c ∧
      .request m written ∈ (openFile provider (expandFile provider depth) r store).journal ∧
      (r.context provider (expandFile provider depth)).Refusal s m (.cycle file source) := by
  rcases exists_reaches_of_mem h with preliminary | ⟨s, c, reached, he, all⟩
  · cases preliminary
  · obtain ⟨m, written, value, refusal⟩ := FileContext.exists_refusal_of_mem_finish reached.ordered rfl he
    exact ⟨s, c, m, written, reached, all (FileContext.request_mem_finish value), refusal⟩

/-! ### The stack -/

/-- The files that are being expanded are the same before and after. -/
theorem active_expandFile (provider : Provider σ) (depth : Nat) (r : FileRequest) (store : σ) :
    (expandFile provider depth r store).result.chain.active = r.chain.active := by
  refine expandFile_induction (motive := fun _ r _ e => e.result.chain.active = r.chain.active) (fun _ _ => rfl) ?_
    depth r store
  intro _ _ r store e he
  cases he <;> rfl

/-- No file on the stack is opened. -/
theorem path_notMem_stack_of_mem {m : Manner}
    (h : .expand m q result body ∈ (expandFile provider depth r store).journal) : q.path ∉ r.stack := by
  cases depth with
  | zero => simp [expandFile] at h
  | succ depth =>
    obtain ⟨s, c, path, -, asks, same⟩ := exists_asks_of_mem h
    obtain ⟨-, rfl, -, -⟩ := Entry.expand.inj same
    rw [FileContext.order_path]
    exact asks.admits.inactive

theorem Nests.distinct (h : Nests r result j stack q result' body)
    (hr : result = (expandFile provider depth r store).result) (hj : j = (expandFile provider depth r store).journal)
    (distinct : r.stack.Nodup) : q.stack.Nodup := by
  induction h with
  | itself => exact distinct
  | opened outer he ih =>
    obtain ⟨-, d, u, -, rfl⟩ := outer.of_expandFile hr hj
    obtain ⟨active, -, -⟩ := order_of_mem_expandFile he
    rw [FileRequest.stack, active, ← List.concat_eq_append]
    exact List.Nodup.concat (path_notMem_stack_of_mem he) ih

theorem cycle_of_mem_expandFile {file source : String} {line : Nat}
    (h : .problem (.cycle file source) line ∈ (expandFile provider depth r store).journal) :
    source = r.path.text ∧ ∃ path ∈ r.stack, file = path.text := by
  cases depth with
  | zero => simp [expandFile, Entry.problem] at h
  | succ depth =>
    obtain ⟨s, c, m, written, -, -, refusal⟩ := exists_refusal_of_mem h
    cases refusal with
    | @cycle _ path active _ => exact ⟨rfl, path, active, rfl⟩

/-- **A nested expansion keeps the stack.** -/
theorem Nests.guarded (h : Nests r result j stack q result' body)
    (hr : result = (expandFile provider depth r store).result) (hj : j = (expandFile provider depth r store).journal)
    (distinct : r.stack.Nodup) : r.Guarded stack q result' body := by
  obtain ⟨active, d, u, rfl, rfl⟩ := h.of_expandFile hr hj
  exact ⟨active, h.distinct hr hj distinct, active_expandFile provider d q u, fun _ _ _ => cycle_of_mem_expandFile⟩

/-! ### Chains without links -/

/-- Where only the first file on the stack has not been visited, this is so for a file that is included as well. -/
theorem visited_of_mem {m : Manner} (h : .expand m q result body ∈ (expandFile provider depth r store).journal)
    (links : Journal.linkRequests (expandFile provider depth r store).journal = []) {first : Path}
    (visited : ∀ path ∈ r.stack, path = first ∨ path ∈ r.chain.visited) :
    ∀ path ∈ q.stack, path = first ∨ path ∈ q.chain.visited := by
  cases depth with
  | zero => simp [expandFile] at h
  | succ depth =>
    rcases exists_reaches_of_mem h with preliminary | ⟨s, c, reached, he, all⟩
    · cases preliminary
    obtain ⟨path, ⟨⟨written, line, value, -⟩, -⟩, same⟩ := FileContext.exists_asks_of_mem_finish he
    obtain ⟨-, rfl, -, -⟩ := Entry.expand.inj same
    obtain rfl := Journal.included_of_request_mem links (all (FileContext.request_mem_finish value))
    intro other ho
    have insert (p : Path) : p ∈ s.visited.insert path ↔ path = p ∨ p ∈ s.visited := by
      rw [Std.ExtTreeSet.mem_insert, Std.LawfulEqCmp.compare_eq_iff_eq]
    rcases List.mem_append.1 ho with ho | ho
    · exact (visited other ho).imp_right fun hv => (insert other).2 (.inr (reached.visited hv))
    · exact .inr ((insert other).2 (.inl (List.mem_singleton.1 ho).symm))

/-- Where all files on the stack but the first one have been visited and no vertex shader is linked, requests for them
are skipped. -/
theorem skips_of_visited (links : Journal.linkRequests (expandFile provider depth r store).journal = []) {first : Path}
    (visited : ∀ path ∈ r.stack, path = first ∨ path ∈ r.chain.visited) :
    r.Skips first (expandFile provider depth r store).journal := by
  cases depth with
  | zero => exact ⟨visited, by simp [expandFile, Entry.problem], by simp [expandFile]⟩
  | succ depth =>
    refine ⟨visited, fun file source line h => ?_, fun written path h hp hf => ?_⟩
    · obtain ⟨s, c, m, written, reached, asked, refusal⟩ := exists_refusal_of_mem h
      cases refusal with
      | @cycle _ path active unvisited =>
        rcases visited path active with rfl | hv
        · rfl
        · exact absurd (reached.visited hv) (unvisited (Journal.included_of_request_mem links asked))
    · rcases exists_reaches_of_mem h with preliminary | ⟨s, c, reached, he, all⟩
      · cases preliminary
      obtain ⟨m, line, value, opened⟩ := FileContext.exists_request_of_resolve_mem he
      have known : path ∈ s.visited := reached.visited ((visited path hp).resolve_left hf)
      obtain rfl := Journal.included_of_request_mem links (all (FileContext.request_mem_finish value))
      rw [FileContext.openPath, FileContext.includePath, if_pos known] at opened
      exact all (opened (by simp))

/-- **Where no vertex shader is asked for, every request for a file on the stack but the first one is skipped.** -/
theorem Nests.skips (h : Nests r result j stack q result' body)
    (hr : result = (expandFile provider depth r store).result) (hj : j = (expandFile provider depth r store).journal)
    (start : r.chain = .empty) (links : Journal.linkRequests j = []) : q.Skips r.path body := by
  have visited : ∀ path ∈ q.stack, path = r.path ∨ path ∈ q.chain.visited := by
    induction h with
    | itself => simp [FileRequest.stack, start, Chain.empty]
    | opened outer he ih =>
      obtain ⟨-, d, u, -, rfl⟩ := outer.of_expandFile hr hj
      exact visited_of_mem he (outer.linkRequests_eq_nil links) ih
  have none := h.linkRequests_eq_nil links
  obtain ⟨-, d, u, -, rfl⟩ := h.of_expandFile hr hj
  exact skips_of_visited none visited

end Files

/-! ### The main result -/

/-- **No file is expanded within itself.** At every file that is expanded on the way, the stack holds the files that
were being expanded before and those that have been opened one within the other, each of them once, and the file hands
back what it was given of it. Every cycle that is reported leads from the last file on the stack to a file on the stack.
If nothing has been opened before and no vertex shader is asked for, it leads to the first file: all other files on the
stack have been visited, and a request for one of them is skipped. -/
theorem expandFile_guarded (provider : Provider σ) (depth : Nat) (r : FileRequest) (store : σ)
    (distinct : r.chain.active.Nodup) (inactive : r.path ∉ r.chain.active) :
    let e := expandFile provider depth r store
    (∀ stack q result body, Nests r e.result e.journal stack q result body → r.Guarded stack q result body) ∧
      (∀ d ∈ Journal.diagnostics r.path e.journal, ∀ file source, d.problem = .cycle file source →
        ∃ stack q result body, Nests r e.result e.journal stack q result body ∧
          .problem (.cycle file source) d.line ∈ body ∧ d.file = source) ∧
      (r.chain = .empty → Journal.linkRequests e.journal = [] →
        ∀ stack q result body, Nests r e.result e.journal stack q result body → q.Skips r.path body) := by
  intro e
  have once : r.stack.Nodup := by
    rw [FileRequest.stack, ← List.concat_eq_append]
    exact List.Nodup.concat inactive distinct
  have guarded {stack : List Path} {q : FileRequest} {result : FileResult} {body : Journal}
      (h : Nests r e.result e.journal stack q result body) : r.Guarded stack q result body :=
    h.guarded rfl rfl once
  refine ⟨fun _ _ _ _ => guarded, fun d hd file source hp => ?_, fun start links _ _ _ _ h =>
    h.skips rfl rfl start links⟩
  obtain ⟨stack, q, result, body, nests, own, hf⟩ :=
    Journal.exists_nests_of_mem_diagnostics r e.result e.journal (List.Subset.refl _) hd
  rw [hp] at own
  exact ⟨stack, q, result, body, nests, own, hf.trans ((guarded nests).cycles _ _ _ own).1.symm⟩

/-- Three files that include one another in a circle, where the last one also includes the one before it. -/
def circularFiles : MemoryFiles :=
  ((MemoryFiles.empty.put "a.frag" [some "#include \"b.glsl\"\n"]).put "b.glsl" [some "#include \"c.glsl\"\n"]).put
    "c.glsl" [some "#include \"b.glsl\"\n#include \"a.frag\"\n"]

/-- In a circle of three files, the request for the second file is skipped and the one for the first is reported. -/
theorem expandFile_guarded_circle :
    let r : FileRequest := .entry ⟨"a.frag"⟩
    let e := expandFile MemoryFiles.provider 4 r circularFiles
    r.chain.active.Nodup ∧ r.path ∉ r.chain.active ∧ r.chain = .empty ∧ Journal.linkRequests e.journal = [] ∧
      Journal.diagnostics r.path e.journal = [⟨"c.glsl", 2, .cycle "a.frag" "c.glsl"⟩] ∧
      ∃ stack q result body, Nests r e.result e.journal stack q result body ∧ q.path.text = "c.glsl" ∧
        r.Guarded stack q result body ∧ q.Skips r.path body := by
  intro r e
  have distinct : r.chain.active.Nodup := by decide
  have inactive : r.path ∉ r.chain.active := by decide
  have links : Journal.linkRequests e.journal = [] := by decide +kernel
  have diagnostics : Journal.diagnostics r.path e.journal = [⟨"c.glsl", 2, .cycle "a.frag" "c.glsl"⟩] := by
    decide +kernel
  obtain ⟨guarded, reported, skips⟩ := expandFile_guarded MemoryFiles.provider 4 r circularFiles distinct inactive
  obtain ⟨stack, q, result, body, nests, own, -⟩ := reported ⟨"c.glsl", 2, .cycle "a.frag" "c.glsl"⟩
    (by rw [diagnostics]; exact List.mem_singleton_self _) _ _ rfl
  have kept := guarded stack q result body nests
  exact ⟨distinct, inactive, rfl, links, diagnostics, stack, q, result, body, nests, (kept.cycles _ _ _ own).1.symm,
    kept, skips rfl links stack q result body nests⟩

end ShaderWeave
