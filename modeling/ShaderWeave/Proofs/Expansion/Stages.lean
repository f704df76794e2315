import ShaderWeave.Proofs.Expansion.Chain
import ShaderWeave.Proofs.Expansion.Transcript

/-!
# The stages of a run

A stage of a run is a file that is being expanded, with the state and the cursor between two of its constructs.
`Occurs` lists the stages of a run: those of the first file, and those of each file that a construct opens at a stage.

`FileContext.Effect` says all that a construct can do: it opens one file, or else it opens none and at most adds to the
scope. So what every construct keeps holds at every stage, and nothing that is opened is missed. By
`Opens.exists_occurs`, every file that the journal of a run says to be opened, at any depth, is opened by the construct
under the cursor at one of these stages.
-/

namespace ShaderWeave

variable {σ : Type}

/-! ### Effects of constructs -/

namespace FileContext

/-- The construct under the cursor opens a file. -/
structure Asks (ctx : FileContext σ) (s : FileState σ) (c : Cursor) (m : Manner) (path : Path) : Prop where
  /-- A path is written there that stands for the file. -/
  written : ∃ written line, (ctx.read s c).value = some (.request m written line) ∧
    ctx.provider.resolve s.store written = .ok path
  /-- The file may be opened. -/
  admits : ctx.Admits s m path

/-- The expansion of a file that is opened from a state. -/
def child (ctx : FileContext σ) (s : FileState σ) (m : Manner) (path : Path) : Expansion σ :=
  ctx.nested (ctx.order s m path) s.store

/-- The entry for a file that is opened from a state. -/
def opened (ctx : FileContext σ) (s : FileState σ) (m : Manner) (path : Path) : Entry :=
  .expand m (ctx.order s m path) (ctx.child s m path).result (ctx.child s m path).journal

/-- What a request can do: nothing, or open one file. -/
inductive Answer (ctx : FileContext σ) (s : FileState σ) (m : Manner) (written : String) :
    FileState σ × Journal → Prop
  /-- No file is opened. -/
  | declined {j : Journal} (none : ∀ m' q result body, .expand m' q result body ∉ j) : Answer ctx s m written (s, j)
  /-- One file is opened, and its expansion is taken in. -/
  | opened {path : Path} {j : Journal} (found : ctx.provider.resolve s.store written = .ok path)
    (admits : ctx.Admits s m path)
    (only : ∀ m' q result body, .expand m' q result body ∈ j → .expand m' q result body = ctx.opened s m path) :
    Answer ctx s m written (s.adopt m (ctx.child s m path), j)

variable (ctx : FileContext σ) (s : FileState σ)

theorem expand_notMem_linkCheck (path : Path) (line : Nat) (m : Manner) (q : FileRequest) (result : FileResult)
    (body : Journal) : .expand m q result body ∉ linkCheck path line := by
  unfold linkCheck
  split <;> simp [Entry.problem]

theorem includePath_answer {written : String} {path : Path} (line : Nat)
    (found : ctx.provider.resolve s.store written = .ok path) :
    ctx.Answer s .included written (ctx.includePath path line s) := by
  by_cases hv : path ∈ s.visited
  · rw [includePath, if_pos hv]
    exact .declined (by simp)
  by_cases ha : path ∈ ctx.active
  · rw [includePath, if_neg hv, if_pos ha]
    exact .declined (by simp [Entry.problem])
  · rw [ctx.includePath_of_fresh hv ha]
    refine .opened found ⟨ha, fun _ => hv, by simp⟩ fun m' q result body h => ?_
    rcases List.mem_cons.1 h with h | h
    · exact h
    · split at h <;> simp [Entry.problem] at h

theorem linkPath_answer {written : String} {path : Path} (line : Nat)
    (found : ctx.provider.resolve s.store written = .ok path) (hs : s.vertex = none) :
    ctx.Answer s .linked written (ctx.linkPath path line s) := by
  by_cases ha : path ∈ ctx.active
  · rw [ctx.linkPath_of_active ha]
    exact .declined (by simp [Entry.problem, expand_notMem_linkCheck])
  · rw [ctx.linkPath_of_inactive ha]
    refine .opened found ⟨ha, by simp, fun _ => hs⟩ fun m' q result body h => ?_
    rcases List.mem_append.1 h with h | h
    · exact absurd h (expand_notMem_linkCheck path line m' q result body)
    · exact List.mem_singleton.1 h

/-- A request does nothing, or opens one file. -/
theorem openRequest_answer (m : Manner) (written : String) (line : Nat) :
    ctx.Answer s m written (ctx.openRequest m written line s) := by
  have resolved {answer : Except String Path} {r : FileState σ × Journal} (h : ctx.Answer s m written r) :
      ctx.Answer s m written (r.1, .resolve written answer :: r.2) := by
    cases h with
    | declined none => exact .declined (by simpa using none)
    | opened found admits only => exact .opened found admits (by simpa using only)
  unfold openRequest
  split
  · exact .declined (by simp [Entry.problem])
  next hm =>
    refine resolved ?_
    cases found : ctx.provider.resolve s.store written with
    | error cause => exact .declined (by simp [Entry.problem])
    | ok path =>
      cases m with
      | included => exact ctx.includePath_answer s line found
      | linked => exact ctx.linkPath_answer s line found (by simpa using hm)

/-- What a construct can do. -/
inductive Effect (ctx : FileContext σ) (s : FileState σ) (c : Cursor) : FileState σ × Journal → Prop
  /-- It does nothing. -/
  | nothing {j : Journal} (none : ∀ m q result body, .expand m q result body ∉ j) : Effect ctx s c (s, j)
  /-- It declares a uniform. -/
  | declare {j : Journal} {v : Variable} (read : (ctx.read s c).value = some (.declare v))
    (none : ∀ m q result body, .expand m q result body ∉ j) :
    Effect ctx s c ({ s with scope := s.scope.declare v }, j)
  /-- It defines a struct type. -/
  | define {j : Journal} {name : String} {fields : List Variable}
    (read : (ctx.read s c).value = some (.define name fields))
    (none : ∀ m q result body, .expand m q result body ∉ j) :
    Effect ctx s c ({ s with scope := s.scope.define name fields }, j)
  /-- It opens one file, and takes in its expansion. -/
  | opened {j : Journal} {m : Manner} {path : Path} (asks : ctx.Asks s c m path)
    (only : ∀ m' q result body, .expand m' q result body ∈ j → .expand m' q result body = ctx.opened s m path) :
    Effect ctx s c (s.adopt m (ctx.child s m path), j)

/-- **A construct opens one file, or else it opens none and at most adds to the scope.** -/
theorem finish_effect (c : Cursor) : ctx.Effect s c (ctx.finish s c (ctx.read s c)) := by
  unfold finish
  cases read : (ctx.read s c).value with
  | none => exact .nothing (by simp)
  | some a =>
    cases a with
    | nothing => exact .nothing (by simp [perform])
    | declare v => exact .declare read (by simp [perform])
    | define name fields => exact .define read (by simp [perform])
    | request m written line =>
      simp only [perform]
      cases h : ctx.openRequest m written line s with
      | mk t j =>
        have answer := ctx.openRequest_answer s m written line
        rw [h] at answer
        cases answer with
        | declined none => exact .nothing (by simpa using none)
        | opened found admits only => exact .opened ⟨⟨written, line, read, found⟩, admits⟩ (by simpa using only)

variable {ctx s} {t : FileState σ} {c d : Cursor} {j body : Journal} {m : Manner} {q : FileRequest}
  {result : FileResult}

/-- Every entry of constructs one after another was left by one of them. -/
theorem Leads.exists_stage_of_mem {e : Entry} (h : ctx.Leads s c j t d) (he : e ∈ j) :
    ∃ k u b, ctx.Leads s c k u b ∧ e ∈ (ctx.finish u b (ctx.read u b)).2 ∧
      (ctx.finish u b (ctx.read u b)).2 ⊆ j := by
  induction h with
  | here => cases he
  | @further s _ c _ _ hc _ ih =>
    rcases List.mem_append.1 he with he | he
    · exact ⟨[], s, c, .here s c, he, List.subset_append_left _ _⟩
    · obtain ⟨k, u, b, leads, he, all⟩ := ih he
      exact ⟨_, u, b, .further hc leads, he, List.subset_append_of_subset_right _ all⟩

/-- A file that a construct opens is the one it asks for. -/
theorem exists_asks_of_mem_finish (he : .expand m q result body ∈ (ctx.finish s c (ctx.read s c)).2) :
    ∃ path, ctx.Asks s c m path ∧ .expand m q result body = ctx.opened s m path := by
  have effect := ctx.finish_effect s c
  revert he
  generalize ctx.finish s c (ctx.read s c) = done at effect
  intro he
  cases effect with
  | nothing none => exact absurd he (none m q result body)
  | declare _ none => exact absurd he (none m q result body)
  | define _ none => exact absurd he (none m q result body)
  | @opened _ m' path asks only =>
    have same := only m q result body he
    obtain rfl : m = m' := (Entry.expand.inj same).1
    exact ⟨path, asks, same⟩

end FileContext

/-! ### Stages -/

/-- What is found out about a file before its first construct. -/
inductive Entry.Preliminary (path : Path) : Entry → Prop
  /-- The path does not name a file with an extension. -/
  | nameless : Preliminary path (.problem (.noExtension path.text) 0)
  /-- The file is loaded. -/
  | load (answer : Except String String) : Preliminary path (.load path answer)
  /-- The file cannot be loaded. -/
  | unloaded (cause : String) : Preliminary path (.problem (.notFound path.text cause) 0)
  /-- A string is left open. -/
  | unclosed (line : Nat) : Preliminary path (.problem .unclosedString line)
  /-- The file has been cut into tokens. -/
  | lexed (tokens : Nat) : Preliminary path (.lexed tokens)

theorem preliminary_of_mem_opening {path : Path} {content : String} {e : Entry} (he : e ∈ opening path content) :
    e.Preliminary path := by
  rcases List.mem_append.1 he with he | he
  · rcases List.mem_cons.1 he with rfl | he
    · exact .load _
    · obtain ⟨line, -, rfl⟩ := List.mem_map.1 he
      exact .unclosed line
  · rw [List.mem_singleton.1 he]
    exact .lexed _

/-- The constructs of a file that is loaded lead from its start to a state and a cursor. -/
structure FileRequest.Reaches (r : FileRequest) (provider : Provider σ) (nested : FileRequest → σ → Expansion σ)
    (store : σ) (s : FileState σ) (c : Cursor) : Prop where
  /-- The path names a file. -/
  named : r.path.namesFile = true
  /-- The file is loaded, and its constructs lead there. -/
  leads : ∃ content j, (provider.load store r.path).1 = .ok content ∧
    (r.context provider nested).Leads (r.initial (provider.load store r.path).2) (.start (lex content)) j s c

/-- While the file of `r` is expanded to the given depth, the file of `q` is in a state, with a cursor on its next
construct. -/
inductive Occurs (provider : Provider σ) : Nat → FileRequest → σ → FileRequest → FileState σ → Cursor → Prop
  /-- It is the file itself. -/
  | here {depth : Nat} {r : FileRequest} {store : σ} {s : FileState σ} {c : Cursor}
    (reached : r.Reaches provider (expandFile provider depth) store s c) : Occurs provider (depth + 1) r store r s c
  /-- It is a file that a construct of the file opens, or one below it. -/
  | within {depth : Nat} {r q : FileRequest} {store : σ} {s t : FileState σ} {c d : Cursor} {m : Manner} {path : Path}
    (reached : r.Reaches provider (expandFile provider depth) store s c)
    (asks : (r.context provider (expandFile provider depth)).Asks s c m path)
    (inner : Occurs provider depth ((r.context provider (expandFile provider depth)).order s m path) s.store q t d) :
    Occurs provider (depth + 1) r store q t d

section Files

variable {provider : Provider σ} {nested : FileRequest → σ → Expansion σ} {r : FileRequest} {store : σ}

/-- The constructs of a file lead to the state whose scope it hands back. -/
theorem exists_reaches_of_loaded {content : String} (hn : r.path.namesFile = true)
    (hl : (provider.load store r.path).1 = .ok content) :
    ∃ s c, r.Reaches provider nested store s c ∧ (openFile provider nested r store).result.scope = s.scope := by
  obtain ⟨d, leads, -⟩ := (r.context provider nested).leads_walk (r.initial (provider.load store r.path).2)
    (.start (lex content))
  refine ⟨_, d, ⟨hn, content, _, hl, leads⟩, ?_⟩
  rw [openFile_of_loaded provider nested hn hl]
  rfl

/-- Every entry in the journal of a file was made before its first construct, or was left by the construct under a
cursor that is reached in it. -/
theorem exists_reaches_of_mem {e : Entry} (he : e ∈ (openFile provider nested r store).journal) :
    e.Preliminary r.path ∨ ∃ s c, r.Reaches provider nested store s c ∧
      e ∈ ((r.context provider nested).finish s c ((r.context provider nested).read s c)).2 ∧
      ((r.context provider nested).finish s c ((r.context provider nested).read s c)).2 ⊆
        (openFile provider nested r store).journal := by
  cases hn : r.path.namesFile with
  | false =>
    rw [openFile_of_nameless provider nested store hn] at he
    rw [List.mem_singleton.1 he]
    exact .inl .nameless
  | true =>
    cases hl : (provider.load store r.path).1 with
    | error cause =>
      rw [openFile_of_unloaded provider nested hn hl] at he
      rcases List.mem_cons.1 he with rfl | he
      · exact .inl (.load _)
      · rw [List.mem_singleton.1 he]
        exact .inl (.unloaded cause)
    | ok content =>
      rw [openFile_of_loaded provider nested hn hl] at he ⊢
      rcases List.mem_append.1 he with he | he
      · exact .inl (preliminary_of_mem_opening he)
      · obtain ⟨d, leads, -⟩ := (r.context provider nested).leads_walk (r.initial (provider.load store r.path).2)
          (.start (lex content))
        obtain ⟨k, s, c, leads, he, all⟩ := leads.exists_stage_of_mem he
        exact .inr ⟨s, c, ⟨hn, content, k, hl, leads⟩, he, List.subset_append_of_subset_right _ all⟩

/-- A file that another one opens is opened by the construct under a cursor that is reached in it. -/
theorem exists_asks_of_mem {m : Manner} {q : FileRequest} {result : FileResult} {body : Journal}
    (he : .expand m q result body ∈ (openFile provider nested r store).journal) :
    ∃ s c path, r.Reaches provider nested store s c ∧ (r.context provider nested).Asks s c m path ∧
      .expand m q result body = (r.context provider nested).opened s m path := by
  rcases exists_reaches_of_mem he with preliminary | ⟨s, c, reached, he, -⟩
  · cases preliminary
  · obtain ⟨path, asks, same⟩ := FileContext.exists_asks_of_mem_finish he
    exact ⟨s, c, path, reached, asks, same⟩

/-- **Every file that is opened in a run is opened at one of its stages.** -/
theorem Opens.exists_occurs {depth : Nat} {opener q : FileRequest} {j body : Journal} {m : Manner}
    {result : FileResult} (h : Opens r j opener m q result body)
    (hj : j = (expandFile provider depth r store).journal) :
    ∃ k s c path, Occurs provider depth r store opener s c ∧
      (opener.context provider (expandFile provider k)).Asks s c m path ∧
      .expand m q result body = (opener.context provider (expandFile provider k)).opened s m path := by
  induction h generalizing depth store with
  | here he =>
    subst hj
    cases depth with
    | zero => simp [expandFile] at he
    | succ depth =>
      obtain ⟨s, c, path, reached, asks, same⟩ := exists_asks_of_mem he
      exact ⟨depth, s, c, path, .here reached, asks, same⟩
  | within he _ ih =>
    subst hj
    cases depth with
    | zero => simp [expandFile] at he
    | succ depth =>
      obtain ⟨s, c, path, reached, asks, same⟩ := exists_asks_of_mem he
      obtain ⟨-, rfl, -, rfl⟩ := Entry.expand.inj same
      obtain ⟨k, t, d, path', inner, asks', same'⟩ := ih rfl
      exact ⟨k, t, d, path', .within reached asks inner, asks', same'⟩

end Files

end ShaderWeave
