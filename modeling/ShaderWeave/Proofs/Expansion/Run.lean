import ShaderWeave.Expansion
import Mathlib.Tactic.SplitIfs

/-!
# Runs of a file

The expansion of one file as a sequence of steps. `FileContext.Step` lists all that can happen while a file is read,
each with the entries it leaves in the journal and the state after it, and `FileContext.Run` strings steps together.
`FileContext.walk_run` says that the function that expands the tokens of a file makes such a run, so what every step
keeps, every file keeps.

`Opened` lists the three ways in which the expansion of a whole file can end, and `expandFile_induction` carries a
property of files through the depth to which they open one another.
-/

namespace ShaderWeave

variable {σ : Type}

namespace FileContext

/-- The order to expand another file. An included file continues the chain, a linked one starts a chain. -/
def order (ctx : FileContext σ) (s : FileState σ) : Manner → Path → FileRequest
  | .included, path => ⟨path, false, s.scope, ⟨s.visited.insert path, ctx.active⟩⟩
  | .linked, path => ⟨path, true, s.scope, ⟨∅, ctx.active⟩⟩

/-- The conditions under which another file is expanded. -/
structure Admits (ctx : FileContext σ) (s : FileState σ) (m : Manner) (path : Path) : Prop where
  /-- The file is not being expanded. -/
  inactive : path ∉ ctx.active
  /-- A file is included once. -/
  unvisited : m = .included → path ∉ s.visited
  /-- A vertex shader is linked where none has been found. -/
  vertexless : m = .linked → s.vertex = none

end FileContext

/-- The state after the expansion of another file. -/
def FileState.adopt (s : FileState σ) : Manner → Expansion σ → FileState σ
  | .included, e => ⟨e.store, s.scope.merge e.result.scope, e.result.chain.visited, s.vertex <|> e.result.vertex⟩
  | .linked, e => ⟨e.store, s.scope.merge e.result.scope, s.visited, e.result.vertex⟩

@[simp] theorem FileState.adopt_store (s : FileState σ) (m : Manner) (e : Expansion σ) :
    (s.adopt m e).store = e.store := by
  cases m <;> rfl

@[simp] theorem FileState.adopt_scope (s : FileState σ) (m : Manner) (e : Expansion σ) :
    (s.adopt m e).scope = s.scope.merge e.result.scope := by
  cases m <;> rfl

namespace FileContext

variable (ctx : FileContext σ)

@[simp] theorem order_path (s : FileState σ) (m : Manner) (path : Path) : (ctx.order s m path).path = path := by
  cases m <;> rfl

@[simp] theorem order_scope (s : FileState σ) (m : Manner) (path : Path) :
    (ctx.order s m path).scope = s.scope := by
  cases m <;> rfl

@[simp] theorem order_active (s : FileState σ) (m : Manner) (path : Path) :
    (ctx.order s m path).chain.active = ctx.active := by
  cases m <;> rfl

/-! ### Steps -/

/-- What can happen while a file is expanded: from a state, with some entries, to a state. -/
inductive Step : FileState σ → Journal → FileState σ → Prop where
  /-- Something is written or reported. -/
  | output (s : FileState σ) (o : Output) : Step s [.output o] s
  /-- A declaration is abandoned. -/
  | abandon (s : FileState σ) (line : Nat) : Step s [.abandon line] s
  /-- A uniform is declared. -/
  | declare (s : FileState σ) (v : Variable) : Step s [] { s with scope := s.scope.declare v }
  /-- A struct type is defined. -/
  | define (s : FileState σ) (name : String) (fields : List Variable) :
    Step s [] { s with scope := s.scope.define name fields }
  /-- Another file is asked for. -/
  | request (s : FileState σ) (m : Manner) (written : String) : Step s [.request m written] s
  /-- A written path is resolved. -/
  | resolve (s : FileState σ) (written : String) :
    Step s [.resolve written (ctx.provider.resolve s.store written)] s
  /-- A file has been included before. -/
  | skip {s : FileState σ} {path : Path} : path ∈ s.visited → Step s [.skip path] s
  /-- Another file is expanded. -/
  | expand {s : FileState σ} {m : Manner} {path : Path} : ctx.Admits s m path →
    Step s [.expand m (ctx.order s m path) (ctx.nested (ctx.order s m path) s.store).result
      (ctx.nested (ctx.order s m path) s.store).journal] (s.adopt m (ctx.nested (ctx.order s m path) s.store))

/-- Any number of steps, with their entries one after another. -/
inductive Run : FileState σ → Journal → FileState σ → Prop where
  /-- Nothing happens. -/
  | done (s : FileState σ) : Run s [] s
  /-- One step is followed by others. -/
  | step {s t u : FileState σ} {j k : Journal} : ctx.Step s j t → Run t k u → Run s (j ++ k) u

variable {ctx}

theorem Run.single {s t : FileState σ} {j : Journal} (h : ctx.Step s j t) : ctx.Run s j t := by
  simpa using Run.step h (.done t)

theorem Run.trans {s t u : FileState σ} {j k : Journal} (h : ctx.Run s j t) (h' : ctx.Run t k u) :
    ctx.Run s (j ++ k) u := by
  induction h with
  | done s => exact h'
  | step hs _ ih =>
    rw [List.append_assoc]
    exact .step hs (ih h')

theorem Run.cons {s t u : FileState σ} {e : Entry} {k : Journal} (h : ctx.Step s [e] t) (h' : ctx.Run t k u) :
    ctx.Run s (e :: k) u :=
  Run.step h h'

/-- Every entry of a run was made by one of its steps. -/
theorem Run.step_of_mem {s u : FileState σ} {j : Journal} (h : ctx.Run s j u) {e : Entry} (he : e ∈ j) :
    ∃ s' i k t', ctx.Run s i s' ∧ ctx.Step s' k t' ∧ e ∈ k := by
  induction h with
  | done s => cases he
  | @step s t _ i _ hs _ ih =>
    rcases List.mem_append.1 he with he | he
    · exact ⟨s, [], i, t, .done s, hs, he⟩
    · obtain ⟨s', i', k, t', hr, hk, he⟩ := ih he
      exact ⟨s', _, k, t', .step hs hr, hk, he⟩

/-- Every file that is opened in a run was expanded from one of its states. -/
theorem Run.order_of_mem {s u : FileState σ} {j : Journal} (h : ctx.Run s j u) {m : Manner} {q : FileRequest}
    {result : FileResult} {body : Journal} (he : .expand m q result body ∈ j) :
    ∃ s' i path, ctx.Run s i s' ∧ ctx.Admits s' m path ∧ q = ctx.order s' m path ∧
      result = (ctx.nested q s'.store).result ∧ body = (ctx.nested q s'.store).journal := by
  obtain ⟨s', i, k, t', hr, hk, hm⟩ := h.step_of_mem he
  cases hk with
  | @expand m' path ha =>
    simp only [List.mem_singleton, Entry.expand.injEq] at hm
    obtain ⟨rfl, rfl, rfl, rfl⟩ := hm
    exact ⟨s', i, path, hr, ha, rfl, rfl, rfl⟩
  | _ => simp at hm

theorem Run.tooDeep_notMem {s t : FileState σ} {j : Journal} (h : ctx.Run s j t) (path : Path) :
    .tooDeep path ∉ j := by
  intro he
  obtain ⟨_, _, _, _, -, hk, hm⟩ := h.step_of_mem he
  cases hk <;> simp at hm

/-- Output alone leaves the state as it is. -/
theorem run_output (s : FileState σ) (os : List Output) : ctx.Run s (os.map .output) s := by
  induction os with
  | nil => exact .done s
  | cons o os ih => exact .cons (.output s o) ih

variable (ctx)

/-! ### The functions make runs -/

/-- A file that is included for the first time is expanded, and a second vertex shader in it is reported. -/
theorem includePath_of_fresh {path : Path} {s : FileState σ} (hv : path ∉ s.visited) (ha : path ∉ ctx.active)
    (line : Nat) :
    ctx.includePath path line s =
      let q := ctx.order s .included path
      let e := ctx.nested q s.store
      (s.adopt .included e, .expand .included q e.result e.journal ::
        if s.vertex.isSome && e.result.vertex.isSome then [.problem .secondVertexShader line] else []) := by
  rw [includePath, if_neg hv, if_neg ha]
  rfl

/-- The entries before a vertex shader is linked. -/
def linkCheck (path : Path) (line : Nat) : Journal :=
  if path.isVertex then [] else [.problem (.linkToOther path.text) line]

theorem linkPath_of_active {path : Path} (ha : path ∈ ctx.active) (line : Nat) (s : FileState σ) :
    ctx.linkPath path line s = (s, linkCheck path line ++ [.problem (.cycle path.text ctx.path.text) line]) := by
  rw [linkPath, if_pos ha]
  rfl

/-- A vertex shader that is not being expanded is expanded. -/
theorem linkPath_of_inactive {path : Path} (ha : path ∉ ctx.active) (line : Nat) (s : FileState σ) :
    ctx.linkPath path line s =
      let q := ctx.order s .linked path
      let e := ctx.nested q s.store
      (s.adopt .linked e, linkCheck path line ++ [.expand .linked q e.result e.journal]) := by
  rw [linkPath, if_neg ha]
  rfl

theorem includePath_run (path : Path) (line : Nat) (s : FileState σ) :
    ctx.Run s (ctx.includePath path line s).2 (ctx.includePath path line s).1 := by
  by_cases hv : path ∈ s.visited
  · rw [includePath, if_pos hv]
    exact .single (.skip hv)
  by_cases ha : path ∈ ctx.active
  · rw [includePath, if_neg hv, if_pos ha]
    exact .single (.output s _)
  · rw [ctx.includePath_of_fresh hv ha]
    refine .cons (.expand ⟨ha, fun _ => hv, by simp⟩) ?_
    split_ifs
    · exact .single (.output _ _)
    · exact .done _

theorem linkPath_run (path : Path) (line : Nat) (s : FileState σ) (hs : s.vertex = none) :
    ctx.Run s (ctx.linkPath path line s).2 (ctx.linkPath path line s).1 := by
  have check : ctx.Run s (linkCheck path line) s := by
    rw [linkCheck]
    split_ifs
    · exact .done s
    · exact .single (.output s _)
  by_cases ha : path ∈ ctx.active
  · rw [ctx.linkPath_of_active ha]
    exact check.trans (.single (.output s _))
  · rw [ctx.linkPath_of_inactive ha]
    exact check.trans (.single (.expand ⟨ha, by simp, fun _ => hs⟩))

theorem openRequest_run (m : Manner) (written : String) (line : Nat) (s : FileState σ) :
    ctx.Run s (ctx.openRequest m written line s).2 (ctx.openRequest m written line s).1 := by
  rw [openRequest]
  split_ifs with hm
  · exact .single (.output s _)
  · refine .cons (.resolve s written) ?_
    cases ctx.provider.resolve s.store written with
    | error cause => exact .single (.output s _)
    | ok path =>
      cases m with
      | included => exact ctx.includePath_run path line s
      | linked => exact ctx.linkPath_run path line s (by simpa using hm)

theorem perform_run (s : FileState σ) (a : Action) : ctx.Run s (ctx.perform s a).2 (ctx.perform s a).1 := by
  cases a with
  | nothing => exact .done s
  | declare v => exact .single (.declare s v)
  | define name fields => exact .single (.define s name fields)
  | request m written line => exact .cons (.request s m written) (ctx.openRequest_run m written line s)

theorem finish_run (s : FileState σ) (c : Cursor) (o : Outcome Action) :
    ctx.Run s (ctx.finish s c o).2 (ctx.finish s c o).1 := by
  rw [finish]
  refine (run_output s o.output).trans ?_
  cases o.value with
  | none => exact .single (.abandon s _)
  | some a => exact ctx.perform_run s a

theorem walk_of_end {c : Cursor} (h : c.ahead = []) (s : FileState σ) : ctx.walk s c = (s, []) := by
  rw [walk, dif_pos h]

/-- A construct is read and finished, and then the next one. -/
theorem walk_of_ahead {c : Cursor} (h : c.ahead ≠ []) (s : FileState σ) :
    ctx.walk s c =
      let o := ctx.read s c
      let more := ctx.walk (ctx.finish s c o).1 (c.skip (o.steps + 1))
      (more.1, (ctx.finish s c o).2 ++ more.2) := by
  rw [walk, dif_neg h]

/-- Induction along the constructs of a file. -/
theorem walk_induction {motive : FileState σ → Cursor → Prop} (done : ∀ s c, c.ahead = [] → motive s c)
    (more : ∀ s c, c.ahead ≠ [] →
      motive (ctx.finish s c (ctx.read s c)).1 (c.skip ((ctx.read s c).steps + 1)) → motive s c)
    (s : FileState σ) (c : Cursor) : motive s c :=
  walk.induct ctx motive done more s c

/-- Expanding tokens is a run. -/
theorem walk_run (s : FileState σ) (c : Cursor) : ctx.Run s (ctx.walk s c).2 (ctx.walk s c).1 := by
  induction s, c using ctx.walk_induction with
  | done s c h =>
    rw [ctx.walk_of_end h]
    exact .done s
  | more s c h ih =>
    rw [ctx.walk_of_ahead h]
    exact (ctx.finish_run s c (ctx.read s c)).trans ih

end FileContext

/-! ### Whole files -/

/-- What stays the same while the file of a request is expanded. -/
def FileRequest.context (provider : Provider σ) (nested : FileRequest → σ → Expansion σ) (r : FileRequest) :
    FileContext σ :=
  ⟨provider, nested, r.path, r.standsAlone, r.chain.active ++ [r.path]⟩

/-- What a file starts from that has just been loaded. -/
def FileRequest.initial (r : FileRequest) (store : σ) : FileState σ :=
  ⟨store, r.scope, r.chain.visited, none⟩

/-- What a file hands back whose tokens have been expanded. A vertex shader counts as its own. -/
def FileRequest.conclude (r : FileRequest) (s : FileState σ) (journal : Journal) : Expansion σ :=
  ⟨⟨s.scope, ⟨s.visited, r.chain.active⟩,
    if r.path.isVertex then some (Journal.woven r.path journal) else s.vertex⟩, journal, s.store⟩

section OpenFile

variable (provider : Provider σ) (nested : FileRequest → σ → Expansion σ) {r : FileRequest} (store : σ)

theorem openFile_of_nameless (hn : r.path.namesFile = false) :
    openFile provider nested r store = ⟨r.unread, [.problem (.noExtension r.path.text) 0], store⟩ := by
  simp only [openFile, hn]
  rfl

variable {store}

theorem openFile_of_unloaded {cause : String} (hn : r.path.namesFile = true)
    (hl : (provider.load store r.path).1 = .error cause) :
    openFile provider nested r store = ⟨r.unread,
      [.load r.path (.error cause), .problem (.notFound r.path.text cause) 0], (provider.load store r.path).2⟩ := by
  simp only [openFile, hn, hl]
  rfl

/-- The tokens of a file that has been loaded are expanded. -/
theorem openFile_of_loaded {content : String} (hn : r.path.namesFile = true)
    (hl : (provider.load store r.path).1 = .ok content) :
    openFile provider nested r store =
      let body := (r.context provider nested).walk (r.initial (provider.load store r.path).2) (.start (lex content))
      r.conclude body.1 (opening r.path content ++ body.2) := by
  simp only [openFile, hn, hl]
  rfl

end OpenFile

/-- No file is opened before the first construct. -/
theorem expand_notMem_opening (path : Path) (content : String) (m : Manner) (q : FileRequest) (result : FileResult)
    (body : Journal) : .expand m q result body ∉ opening path content := by
  simp [opening, Entry.problem]

theorem tooDeep_notMem_opening (path : Path) (content : String) (other : Path) :
    .tooDeep other ∉ opening path content := by
  simp [opening, Entry.problem]

/-- Before the first construct, a view that shows nothing of problems and of the number of tokens shows that the file is
loaded. -/
theorem view_opening {α : Type} {view : Journal → List α} (append : ∀ j k, view (j ++ k) = view j ++ view k)
    (problem : ∀ line, view [.problem .unclosedString line] = []) (lexed : ∀ tokens, view [.lexed tokens] = [])
    (path : Path) (content : String) : view (opening path content) = view [.load path (.ok content)] := by
  have problems (lines : List Nat) (j : Journal) :
      view (lines.map (Entry.problem .unclosedString) ++ j) = view j := by
    induction lines with
    | nil => rfl
    | cons line lines ih =>
      rw [List.map_cons, List.cons_append, ← List.singleton_append, append, problem, ih]
      rfl
  rw [opening, List.cons_append, ← List.singleton_append, append, problems, lexed, List.append_nil]

/-- How the expansion of a file can end. -/
inductive Opened (provider : Provider σ) (nested : FileRequest → σ → Expansion σ) (r : FileRequest) (store : σ) :
    Expansion σ → Prop where
  /-- The path does not name a file with an extension. -/
  | nameless : r.path.namesFile = false →
    Opened provider nested r store ⟨r.unread, [.problem (.noExtension r.path.text) 0], store⟩
  /-- The file cannot be loaded. -/
  | unloaded {cause : String} : r.path.namesFile = true → (provider.load store r.path).1 = .error cause →
    Opened provider nested r store ⟨r.unread,
      [.load r.path (.error cause), .problem (.notFound r.path.text cause) 0], (provider.load store r.path).2⟩
  /-- The tokens of the file are expanded. -/
  | expanded {content : String} {j : Journal} {s : FileState σ} : r.path.namesFile = true →
    (provider.load store r.path).1 = .ok content →
    (r.context provider nested).Run (r.initial (provider.load store r.path).2) j s →
    Opened provider nested r store (r.conclude s (opening r.path content ++ j))

theorem openFile_opened (provider : Provider σ) (nested : FileRequest → σ → Expansion σ) (r : FileRequest)
    (store : σ) : Opened provider nested r store (openFile provider nested r store) := by
  cases hn : r.path.namesFile with
  | false =>
    rw [openFile_of_nameless provider nested store hn]
    exact .nameless hn
  | true =>
    cases hl : (provider.load store r.path).1 with
    | error cause =>
      rw [openFile_of_unloaded provider nested hn hl]
      exact .unloaded hn hl
    | ok content =>
      rw [openFile_of_loaded provider nested hn hl]
      exact .expanded hn hl ((r.context provider nested).walk_run _ (.start (lex content)))

section Ways

variable {provider : Provider σ} {nested : FileRequest → σ → Expansion σ} {r : FileRequest} {store : σ}
  {e : Expansion σ}

theorem Opened.tooDeep_notMem (h : Opened provider nested r store e) (path : Path) : .tooDeep path ∉ e.journal := by
  cases h with
  | nameless _ => simp [Entry.problem]
  | unloaded _ _ => simp [Entry.problem]
  | @expanded content _ _ _ _ run =>
    intro he
    rcases List.mem_append.1 he with he | he
    · exact tooDeep_notMem_opening r.path content path he
    · exact run.tooDeep_notMem path he

variable {m : Manner} {q : FileRequest} {result : FileResult} {body : Journal}

/-- A file is opened by one that has been loaded, from one of its states. -/
theorem Opened.exists_admits_of_mem (h : Opened provider nested r store e)
    (he : .expand m q result body ∈ e.journal) :
    ∃ content i s path, (provider.load store r.path).1 = .ok content ∧
      (r.context provider nested).Run (r.initial (provider.load store r.path).2) i s ∧
      (r.context provider nested).Admits s m path ∧ q = (r.context provider nested).order s m path ∧
      result = (nested q s.store).result ∧ body = (nested q s.store).journal := by
  cases h with
  | nameless _ => simp [Entry.problem] at he
  | unloaded _ _ => simp [Entry.problem] at he
  | @expanded content _ _ _ loaded run =>
    rcases List.mem_append.1 he with he | he
    · exact absurd he (expand_notMem_opening r.path content m q result body)
    · obtain ⟨s, i, path, before, admits, hq, hres, hbody⟩ := run.order_of_mem he
      exact ⟨content, i, s, path, loaded, before, admits, hq, hres, hbody⟩

/-- The files that a file opens know that it is being expanded, and linked vertex shaders start with nothing visited. -/
theorem Opened.order_of_mem (h : Opened provider nested r store e) (he : .expand m q result body ∈ e.journal) :
    q.chain.active = r.chain.active ++ [r.path] ∧ (m = .linked → q.chain.visited = ∅) ∧
      ∃ u, result = (nested q u).result ∧ body = (nested q u).journal := by
  obtain ⟨_, _, s, path, -, -, -, rfl, hres, hbody⟩ := h.exists_admits_of_mem he
  refine ⟨FileContext.order_active _ s m path, ?_, s.store, hres, hbody⟩
  rintro rfl
  rfl

end Ways

/-- **What holds of files beyond the depth, and of a file if it holds of all files it opens, holds of every file.** -/
theorem expandFile_induction {provider : Provider σ} {motive : Nat → FileRequest → σ → Expansion σ → Prop}
    (tooDeep : ∀ r store, motive 0 r store ⟨r.unread, [.tooDeep r.path], store⟩)
    (opened : ∀ depth, (∀ r store, motive depth r store (expandFile provider depth r store)) → ∀ r store e,
      Opened provider (expandFile provider depth) r store e → motive (depth + 1) r store e) :
    ∀ depth r store, motive depth r store (expandFile provider depth r store) := by
  intro depth
  induction depth with
  | zero => exact tooDeep
  | succ depth ih => exact fun r store => opened depth ih r store _ (openFile_opened provider _ r store)

end ShaderWeave
