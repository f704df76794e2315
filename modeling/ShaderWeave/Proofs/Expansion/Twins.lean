import ShaderWeave.Proofs.Expansion.Chain
import ShaderWeave.Proofs.Expansion.Depth
import ShaderWeave.Proofs.Expansion.Transcript

/-!
# Twin expansions

Two expansions of one file are twins if the second starts with some extra files visited that the first never includes.
Where the provider answers alike whatever its store holds, twins put out and report the same, declare the same, find the
same vertex shader, and visit the same files but for the extra ones (`expandFile_twins`).

What holds of whole files holds of a part of one as well: from one construct to another, twins may stand in different
files, as long as the tokens between are the same (`Leads.twin`).
-/

namespace ShaderWeave

variable {σ : Type}

/-- What the provider answers from a store on does not change by loading files. -/
structure Provider.IsPure (provider : Provider σ) (store : σ) : Prop where
  /-- A written path stands for the same path. -/
  resolve : ∀ s, provider.Reaches store s → ∀ written, provider.resolve s written = provider.resolve store written
  /-- A file has the same text. -/
  load : ∀ s, provider.Reaches store s → ∀ path, (provider.load s path).1 = (provider.load store path).1

/-- Where no load changes the store, no answer does. -/
theorem Provider.isPure_of_still {provider : Provider σ} {store : σ}
    (still : ∀ path, (provider.load store path).2 = store) : provider.IsPure store where
  resolve _ reached _ := by rw [reached.eq_of_still still]
  load _ reached _ := by rw [reached.eq_of_still still]

namespace MemoryFiles

/-- No file has another version to come. -/
def Settled (files : MemoryFiles) : Prop :=
  ∀ (name : String) (versions : List (Option String)), files.versions[name]? = some versions → versions.length ≤ 1

theorem settled_empty : empty.Settled := by
  intro name versions h
  simp [empty] at h

theorem Settled.put {files : MemoryFiles} (h : files.Settled) (path : String) (version : Option String) :
    (files.put path [version]).Settled := by
  intro name versions hv
  rw [MemoryFiles.put, Std.ExtTreeMap.getElem?_insert] at hv
  split at hv
  · obtain rfl := Option.some.inj hv
    exact Nat.le_refl 1
  · exact h name versions hv

theorem Settled.load_eq {files : MemoryFiles} (h : files.Settled) (path : Path) : (files.load path).2 = files := by
  rw [load]
  split
  next => rfl
  next => rfl
  next => rfl
  next version later more hv =>
    have : (version :: later).length ≤ 1 := h path.text _ hv
    exact absurd (List.eq_nil_of_length_eq_zero (by simpa using this)) more

/-- Files of which none has another version to come are a pure provider. -/
theorem Settled.isPure {files : MemoryFiles} (h : files.Settled) : provider.IsPure files :=
  Provider.isPure_of_still h.load_eq

end MemoryFiles

/-! ### Extra files -/

/-- The second set has the members of the first and the extra ones. -/
def Adds (extra : Path → Prop) (a b : PathSet) : Prop :=
  ∀ path, path ∈ b ↔ path ∈ a ∨ extra path

theorem PathSet.mem_insert {a : PathSet} {path other : Path} : other ∈ a.insert path ↔ other = path ∨ other ∈ a := by
  rw [Std.ExtTreeSet.mem_insert, Std.LawfulEqCmp.compare_eq_iff_eq, eq_comm]

theorem Adds.insert {extra : Path → Prop} {a b : PathSet} (h : Adds extra a b) (path : Path) :
    Adds extra (a.insert path) (b.insert path) := by
  intro other
  rw [PathSet.mem_insert, PathSet.mem_insert, h other, or_assoc]

/-- Nothing extra. -/
def NoPath : Path → Prop :=
  fun _ => False

theorem adds_noPath {a b : PathSet} : Adds NoPath a b ↔ ∀ path, path ∈ b ↔ path ∈ a := by
  simp [Adds, NoPath]

/-! ### Twins -/

/-- Two journals put out the same and report the same. -/
structure Journal.Matches (file : Path) (j j' : Journal) : Prop where
  /-- The same is put out. -/
  emissions : emissions file j' = emissions file j
  /-- The same is reported. -/
  diagnostics : diagnostics file j' = diagnostics file j

namespace Journal.Matches

variable {file : Path} {j j' k k' : Journal}

theorem refl (file : Path) (j : Journal) : Matches file j j :=
  ⟨rfl, rfl⟩

theorem append (h : Matches file j j') (h' : Matches file k k') : Matches file (j ++ k) (j' ++ k') where
  emissions := by rw [emissions_append, emissions_append, h.emissions, h'.emissions]
  diagnostics := by rw [diagnostics_append, diagnostics_append, h.diagnostics, h'.diagnostics]

theorem cons {e e' : Entry} (h : Matches file [e] [e']) (h' : Matches file k k') : Matches file (e :: k) (e' :: k') :=
  h.append h'

theorem woven (h : Matches file j j') : Journal.woven file j' = Journal.woven file j := by
  rw [woven_eq_write, woven_eq_write, h.emissions]

theorem written (h : Matches file j j') : Journal.written file j' = Journal.written file j := by
  rw [Journal.written, h.emissions, Journal.written]

end Journal.Matches

/-- Two states differ in the store and in the extra files alone. -/
structure FileState.Twin (extra : Path → Prop) (s s' : FileState σ) : Prop where
  /-- The same has been declared. -/
  scope : s'.scope = s.scope
  /-- The same vertex shader has been found. -/
  vertex : s'.vertex = s.vertex
  /-- The extra files have been visited as well. -/
  visited : Adds extra s.visited s'.visited

/-- Two requests differ in the extra files alone. -/
structure FileRequest.Twin (extra : Path → Prop) (r r' : FileRequest) : Prop where
  /-- The file is the same. -/
  path : r'.path = r.path
  /-- It may be a template in both or in neither. -/
  standsAlone : r'.standsAlone = r.standsAlone
  /-- The same has been declared. -/
  scope : r'.scope = r.scope
  /-- The same files are being expanded. -/
  active : r'.chain.active = r.chain.active
  /-- The extra files have been visited as well. -/
  visited : Adds extra r.chain.visited r'.chain.visited

/-- Two expansions of a file differ in the store and in the extra files alone. -/
structure Expansion.Twin (extra : Path → Prop) (file : Path) (e e' : Expansion σ) : Prop where
  /-- The same is declared. -/
  scope : e'.result.scope = e.result.scope
  /-- The same vertex shader is found. -/
  vertex : e'.result.vertex = e.result.vertex
  /-- The extra files have been visited as well. -/
  visited : Adds extra e.result.chain.visited e'.result.chain.visited
  /-- The same is put out and reported. -/
  journal : Journal.Matches file e.journal e'.journal

/-- Requests that differ in files that are not included make twins, if nothing is reported. -/
def Twins (provider : Provider σ) (base : σ) (nested : FileRequest → σ → Expansion σ) : Prop :=
  ∀ (extra : Path → Prop) (r r' : FileRequest) (store store' : σ), provider.Reaches base store →
    provider.Reaches base store' → r.Twin extra r' →
    (∀ path, extra path → path ∉ r.chain.active ∧ path ≠ r.path ∧ path ∉ (nested r store).result.chain.visited) →
    Journal.diagnostics r.path (nested r store).journal = [] →
    (nested r store).Twin extra r.path (nested r' store')

/-- Two states with journals are twins. -/
structure TwinRuns (extra : Path → Prop) (file : Path) (x x' : FileState σ × Journal) : Prop where
  /-- The states are twins. -/
  state : x.1.Twin extra x'.1
  /-- The journals match. -/
  journal : Journal.Matches file x.2 x'.2

theorem FileState.Twin.still {extra : Path → Prop} {file : Path} {s s' : FileState σ} (h : s.Twin extra s')
    (j : Journal) : TwinRuns extra file (s, j) (s', j) :=
  ⟨h, .refl file j⟩

theorem TwinRuns.cons {extra : Path → Prop} {file : Path} {x x' : FileState σ × Journal}
    (h : TwinRuns extra file x x') (e : Entry) : TwinRuns extra file (x.1, e :: x.2) (x'.1, e :: x'.2) :=
  ⟨h.state, .cons (.refl file [e]) h.journal⟩

/-! ### Constructs -/

namespace FileContext

/-- What is known of a provider and of the files that are opened from a store on. -/
structure Tame (ctx : FileContext σ) (base : σ) : Prop where
  /-- The provider is pure. -/
  pure : ctx.provider.IsPure base
  /-- Files are included once. -/
  fresh : IncludeFreshly ctx.nested
  /-- Files only load files. -/
  reaches : ∀ q store, ctx.provider.Reaches store (ctx.nested q store).store
  /-- Requests that differ in files that are not included make twins. -/
  twins : Twins ctx.provider base ctx.nested

section Constructs

variable {ctx : FileContext σ} {base : σ} {extra : Path → Prop} {s s' : FileState σ}

theorem includePath_twin (tame : ctx.Tame base) (hs : ctx.provider.Reaches base s.store)
    (hs' : ctx.provider.Reaches base s'.store) (h : s.Twin extra s') {path : Path} {line : Nat}
    (hx : ∀ p, extra p → p ∉ ctx.active ∧ p ∉ (ctx.includePath path line s).1.visited)
    (clean : Journal.diagnostics ctx.path (ctx.includePath path line s).2 = []) :
    TwinRuns extra ctx.path (ctx.includePath path line s) (ctx.includePath path line s') := by
  by_cases hv : path ∈ s.visited
  · have hv' : path ∈ s'.visited := (h.visited path).2 (.inl hv)
    rw [includePath, includePath, if_pos hv, if_pos hv']
    exact h.still _
  by_cases ha : path ∈ ctx.active
  · have hv' : path ∉ s'.visited := fun hm => (((h.visited path).1 hm).elim hv fun he => (hx path he).1 ha)
    rw [includePath, includePath, if_neg hv, if_neg hv', if_pos ha, if_pos ha]
    exact h.still _
  · rw [ctx.includePath_of_fresh hv ha] at hx clean ⊢
    have visited := (tame.fresh (ctx.order s .included path) s.store).fresh.visited_iff
    have none : ¬ extra path := fun he => (hx path he).2 ((visited path).2 (.inl (PathSet.mem_insert.2 (.inl rfl))))
    have hv' : path ∉ s'.visited := fun hm => ((h.visited path).1 hm).elim hv none
    rw [ctx.includePath_of_fresh hv' ha]
    have order : (ctx.order s .included path).Twin extra (ctx.order s' .included path) :=
      ⟨rfl, rfl, h.scope, rfl, h.visited.insert path⟩
    have inner : Journal.diagnostics path (ctx.nested (ctx.order s .included path) s.store).journal = [] :=
      (List.append_eq_nil_iff.1 clean).1
    have twin := tame.twins extra _ _ s.store s'.store hs hs' order
      (fun p he => ⟨(hx p he).1, fun heq : p = path => none (heq ▸ he), (hx p he).2⟩) inner
    refine ⟨⟨?_, ?_, twin.visited⟩, ?_⟩
    · simp [h.scope, twin.scope]
    · simp [FileState.adopt, h.vertex, twin.vertex]
    · refine .cons ⟨?_, ?_⟩ ?_
      · simpa [Journal.emissions, Entry.emissions] using twin.journal.emissions
      · simpa [Journal.diagnostics, Entry.diagnostics] using twin.journal.diagnostics
      · rw [h.vertex, twin.vertex]
        exact .refl _ _

theorem linkPath_twin (tame : ctx.Tame base) (hs : ctx.provider.Reaches base s.store)
    (hs' : ctx.provider.Reaches base s'.store) (h : s.Twin extra s') {path : Path} {line : Nat}
    (clean : Journal.diagnostics ctx.path (ctx.linkPath path line s).2 = []) :
    TwinRuns extra ctx.path (ctx.linkPath path line s) (ctx.linkPath path line s') := by
  by_cases ha : path ∈ ctx.active
  · rw [ctx.linkPath_of_active ha, ctx.linkPath_of_active ha]
    exact h.still _
  · rw [ctx.linkPath_of_inactive ha] at clean ⊢
    rw [ctx.linkPath_of_inactive ha]
    have order : (ctx.order s .linked path).Twin NoPath (ctx.order s' .linked path) :=
      ⟨rfl, rfl, h.scope, rfl, adds_noPath.2 fun _ => Iff.rfl⟩
    have inner : Journal.diagnostics path (ctx.nested (ctx.order s .linked path) s.store).journal = [] := by
      rw [Journal.diagnostics_append] at clean
      exact (List.append_eq_nil_iff.1 (List.append_eq_nil_iff.1 clean).2).1
    have twin := tame.twins NoPath _ _ s.store s'.store hs hs' order (fun p he => he.elim) inner
    refine ⟨⟨?_, twin.vertex, h.visited⟩, .append (.refl _ _) ⟨?_, ?_⟩⟩
    · simp [h.scope, twin.scope]
    · simp [Journal.emissions, Entry.emissions]
    · simpa [Journal.diagnostics, Entry.diagnostics] using twin.journal.diagnostics

theorem openRequest_twin (tame : ctx.Tame base) (hs : ctx.provider.Reaches base s.store)
    (hs' : ctx.provider.Reaches base s'.store) (h : s.Twin extra s') {m : Manner} {written : String} {line : Nat}
    (hx : ∀ p, extra p → p ∉ ctx.active ∧ p ∉ (ctx.openRequest m written line s).1.visited)
    (clean : Journal.diagnostics ctx.path (ctx.openRequest m written line s).2 = []) :
    TwinRuns extra ctx.path (ctx.openRequest m written line s) (ctx.openRequest m written line s') := by
  rw [openRequest] at hx clean ⊢
  rw [openRequest, h.vertex, (tame.pure.resolve s'.store hs' written).trans (tame.pure.resolve s.store hs written).symm]
  by_cases hm : m = .linked ∧ s.vertex.isSome
  · rw [if_pos hm, if_pos hm]
    exact h.still _
  · rw [if_neg hm] at hx clean ⊢
    rw [if_neg hm]
    refine TwinRuns.cons ?_ _
    cases hr : ctx.provider.resolve s.store written with
    | error cause => exact h.still _
    | ok path =>
      rw [hr] at hx clean
      cases m with
      | included => exact includePath_twin tame hs hs' h hx clean
      | linked => exact linkPath_twin tame hs hs' h clean

theorem perform_twin (tame : ctx.Tame base) (hs : ctx.provider.Reaches base s.store)
    (hs' : ctx.provider.Reaches base s'.store) (h : s.Twin extra s') {a : Action}
    (hx : ∀ p, extra p → p ∉ ctx.active ∧ p ∉ (ctx.perform s a).1.visited)
    (clean : Journal.diagnostics ctx.path (ctx.perform s a).2 = []) :
    TwinRuns extra ctx.path (ctx.perform s a) (ctx.perform s' a) := by
  cases a with
  | nothing => exact h.still []
  | declare v => exact ⟨⟨by rw [perform, perform, h.scope], h.vertex, h.visited⟩, .refl _ _⟩
  | define name fields => exact ⟨⟨by rw [perform, perform, h.scope], h.vertex, h.visited⟩, .refl _ _⟩
  | request m written line => exact (openRequest_twin tame hs hs' h hx clean).cons _

/-- **A construct that is read alike is finished alike.** -/
theorem finish_twin (tame : ctx.Tame base) (hs : ctx.provider.Reaches base s.store)
    (hs' : ctx.provider.Reaches base s'.store) (h : s.Twin extra s') {c : Cursor} (c' : Cursor) {o : Outcome Action}
    (hx : ∀ p, extra p → p ∉ ctx.active ∧ p ∉ (ctx.finish s c o).1.visited)
    (clean : Journal.diagnostics ctx.path (ctx.finish s c o).2 = []) :
    TwinRuns extra ctx.path (ctx.finish s c o) (ctx.finish s' c' o) := by
  rw [finish] at hx clean ⊢
  rw [finish]
  rw [Journal.diagnostics_append] at clean
  have clean := (List.append_eq_nil_iff.1 clean).2
  cases hv : o.value with
  | none => exact ⟨h, .append (.refl _ _) ⟨rfl, rfl⟩⟩
  | some a =>
    rw [hv] at hx clean
    have twin := perform_twin tame hs hs' h hx clean
    exact ⟨twin.state, .append (.refl _ _) twin.journal⟩

end Constructs

/-! ### Along constructs -/

variable {ctx : FileContext σ}

/-- A construct without a problem ends before the tokens do. -/
theorem steps_lt_of_clean {s : FileState σ} {c : Cursor} (hc : c.ahead ≠ [])
    (clean : Journal.diagnostics ctx.path (ctx.finish s c (ctx.read s c)).2 = []) :
    (ctx.read s c).steps < c.ahead.length := by
  have left := Reader.ahead_skip_construct_ne_nil hc (ctx.faults_read_of_diagnostics clean)
  have := List.length_pos_iff.2 left
  rw [Cursor.ahead_skip, List.length_drop] at this
  exact Nat.lt_of_sub_pos this

/-- Constructs without a problem pass the tokens between. -/
theorem Leads.exists_passed {s t : FileState σ} {c d : Cursor} {j : Journal} (h : ctx.Leads s c j t d)
    (clean : Journal.diagnostics ctx.path j = []) : ∃ raw, c.ahead = raw ++ d.ahead ∧ d = c.skip raw.length := by
  induction h with
  | here s c => exact ⟨[], rfl, rfl⟩
  | @further s t c d j hc _ ih =>
    rw [Journal.diagnostics_append] at clean
    obtain ⟨first, rest⟩ := List.append_eq_nil_iff.1 clean
    have fits : (ctx.read s c).steps + 1 ≤ c.ahead.length := steps_lt_of_clean hc first
    obtain ⟨raw, ahead, skip⟩ := ih rest
    refine ⟨c.ahead.take ((ctx.read s c).steps + 1) ++ raw, ?_, ?_⟩
    · rw [List.append_assoc, ← ahead, Cursor.ahead_skip, List.take_append_drop]
    · rw [skip, Cursor.skip_skip, List.length_append, List.length_take, Nat.min_eq_left fits]

/-- Where twins pass the same tokens without a problem, they read the same. -/
theorem read_twin {extra : Path → Prop} {s s' : FileState σ} (hs : s.Twin extra s') {c c' : Cursor}
    (truthful : ∀ u ∈ c.ahead, u.Truthful)
    (clean : Journal.diagnostics ctx.path (ctx.finish s c (ctx.read s c)).2 = []) {raw rest rest' : List Token}
    (ahead : c.ahead = raw ++ rest) (ahead' : c'.ahead = raw ++ rest')
    (passed : raw.length = (ctx.read s c).steps + 1) (hi : c'.index = c.index ∨ 0 < c.index) :
    ctx.read s' c' = ctx.read s c := by
  have faults : (Reader.construct ctx.path ctx.standsAlone s.scope.structs c).faults = [] :=
    ctx.faults_read_of_diagnostics clean
  rw [read, hs.scope]
  refine Reader.construct_congr truthful ahead ahead' passed faults fun u hu hr => hi.elim id fun pos => ?_
  -- The mark of a template file is a problem but at the start of the file.
  obtain ⟨us, hus⟩ := List.head?_eq_some_iff.1 hu
  rw [Reader.construct_of_templateMark (by rw [ahead, hus]; rfl) hr] at faults
  exact absurd (Reader.zero_of_faults_templateMark faults).1 (Nat.ne_of_gt pos)

/-- The tokens up to a place are those up to a place before and those from there on. -/
theorem exists_append_of_skip {c : Cursor} {n : Nat} {raw more rest : List Token} (fits : n ≤ c.ahead.length)
    (ahead : c.ahead = raw ++ rest) (after : (c.skip n).ahead = more ++ rest) :
    ∃ one, raw = one ++ more ∧ one.length = n := by
  have whole : raw ++ rest = c.ahead.take n ++ more ++ rest := by
    rw [← ahead, List.append_assoc, ← after, Cursor.ahead_skip, List.take_append_drop]
  exact ⟨c.ahead.take n, List.append_cancel_right whole, List.length_take_of_le fits⟩

/-- What has been visited stays visited. -/
theorem visited_of_run (hn : IncludeFreshly ctx.nested) {s t : FileState σ} {j : Journal} (h : ctx.Run s j t)
    {path : Path} (hp : path ∈ s.visited) : path ∈ t.visited :=
  ((h.freshlyIncluded hn).1.visited_iff path).2 (.inl hp)

/-- **Where twins pass the same tokens without a problem, they stay twins.** The tokens may be part of different files,
unless one of them is the mark of a template file. -/
theorem Leads.twin {base : σ} (tame : ctx.Tame base) {extra : Path → Prop} {s t : FileState σ} {c d : Cursor}
    {j : Journal} (h : ctx.Leads s c j t d) (hr : ctx.provider.Reaches base s.store)
    (truthful : ∀ u ∈ c.ahead, u.Truthful) (clean : Journal.diagnostics ctx.path j = [])
    (hx : ∀ p, extra p → p ∉ ctx.active ∧ p ∉ t.visited) {s' : FileState σ}
    (hr' : ctx.provider.Reaches base s'.store) (hs : s.Twin extra s') {c' : Cursor} {raw rest : List Token}
    (ahead : c.ahead = raw ++ d.ahead) (ahead' : c'.ahead = raw ++ rest) (hi : c'.index = c.index ∨ 0 < c.index) :
    ∃ j' t', ctx.Leads s' c' j' t' (c'.skip raw.length) ∧ TwinRuns extra ctx.path (t, j) (t', j') := by
  induction h generalizing s' c' raw with
  | here s c =>
    obtain rfl : raw = [] := by simpa using ahead
    exact ⟨[], s', .here s' c', hs.still []⟩
  | @further s t c d j hc leads ih =>
    rw [Journal.diagnostics_append] at clean
    obtain ⟨first, second⟩ := List.append_eq_nil_iff.1 clean
    have fits : (ctx.read s c).steps + 1 ≤ c.ahead.length := steps_lt_of_clean hc first
    obtain ⟨more, after, -⟩ := leads.exists_passed second
    -- The tokens of the first construct, and those of the others.
    obtain ⟨one, rfl, passed⟩ := exists_append_of_skip fits ahead after
    rw [List.append_assoc] at ahead ahead'
    have same : ctx.read s' c' = ctx.read s c := read_twin hs truthful first ahead ahead' passed hi
    have finish := finish_twin tame hr hr' hs c'
      (fun p hp => ⟨(hx p hp).1, fun hv => (hx p hp).2 (visited_of_run tame.fresh leads.run hv)⟩) first
    have reached := hr.trans ((ctx.finish_run s c (ctx.read s c)).reaches tame.reaches)
    have reached' := hr'.trans ((ctx.finish_run s' c' (ctx.read s c)).reaches tame.reaches)
    have ahead₂ : (c'.skip ((ctx.read s c).steps + 1)).ahead = more ++ rest := by
      rw [Cursor.ahead_skip, ahead', ← passed, List.drop_left]
    have index : (c'.skip ((ctx.read s c).steps + 1)).index = (c.skip ((ctx.read s c).steps + 1)).index ∨
        0 < (c.skip ((ctx.read s c).steps + 1)).index := by
      rcases hi with hi | hi
      · exact .inl (by rw [Cursor.index_skip, Cursor.index_skip, hi])
      · exact .inr (Nat.add_pos_left hi _)
    obtain ⟨j', t', leads', twin⟩ := ih reached (fun u hu => truthful u (List.mem_of_mem_drop hu)) second hx reached'
      finish.state after ahead₂ index
    have skip : (c'.skip ((ctx.read s c).steps + 1)).skip more.length = c'.skip (one ++ more).length := by
      rw [Cursor.skip_skip, List.length_append, passed]
    rw [skip] at leads'
    have hc' : c'.ahead ≠ [] := by
      intro hnil
      rw [hnil] at ahead'
      rw [(List.append_eq_nil_iff.1 ahead'.symm).1] at passed
      simp at passed
    have whole : ctx.Leads s' c' _ t' _ := .further hc' (by rw [same]; exact leads')
    rw [same] at whole
    exact ⟨_, t', whole, twin.state, finish.journal.append twin.journal⟩

/-- Twins with the same tokens ahead stay twins up to their end. -/
theorem walk_twin {base : σ} (tame : ctx.Tame base) {extra : Path → Prop} {s s' : FileState σ} {c c' : Cursor}
    (hs : s.Twin extra s') (hr : ctx.provider.Reaches base s.store) (hr' : ctx.provider.Reaches base s'.store)
    (truthful : ∀ u ∈ c.ahead, u.Truthful) (clean : Journal.diagnostics ctx.path (ctx.walk s c).2 = [])
    (hx : ∀ p, extra p → p ∉ ctx.active ∧ p ∉ (ctx.walk s c).1.visited) (ahead : c'.ahead = c.ahead)
    (hi : c'.index = c.index ∨ 0 < c.index) : TwinRuns extra ctx.path (ctx.walk s c) (ctx.walk s' c') := by
  obtain ⟨d, leads, ended⟩ := ctx.leads_walk s c
  have all : c.ahead = c.ahead ++ d.ahead := by rw [ended, List.append_nil]
  obtain ⟨j', t', leads', twin⟩ :=
    leads.twin tame hr truthful clean hx hr' hs all (ahead.trans (List.append_nil _).symm) hi
  rw [leads'.walk_eq_of_end (by rw [Cursor.ahead_skip, ahead, List.drop_length])]
  exact twin

end FileContext

/-! ### Whole files -/

/-- What twins hand back are twins. -/
theorem FileRequest.conclude_twin {extra : Path → Prop} {r r' : FileRequest} (hp : r'.path = r.path)
    {s s' : FileState σ} {j j' : Journal} (hs : s.Twin extra s') (hj : Journal.Matches r.path j j') :
    (r.conclude s j).Twin extra r.path (r'.conclude s' j') where
  scope := hs.scope
  vertex := by rw [conclude, conclude, hp, hj.woven, hs.vertex]
  visited := hs.visited
  journal := hj

/-- A file that cannot be loaded is a problem. -/
theorem diagnostics_expandFile_ne_nil {provider : Provider σ} (depth : Nat) {r : FileRequest} {store : σ}
    {cause : String} (hl : (provider.load store r.path).1 = .error cause) :
    Journal.diagnostics r.path (expandFile provider (depth + 1) r store).journal ≠ [] := by
  rw [expandFile]
  cases hn : r.path.namesFile with
  | false =>
    rw [openFile_of_nameless provider _ store hn]
    simp [Journal.diagnostics, Entry.problem, Entry.diagnostics]
  | true =>
    rw [openFile_of_unloaded provider _ hn hl]
    simp [Journal.diagnostics, Entry.problem, Entry.diagnostics]

/-- A pure provider and files that are expanded to some depth. -/
theorem tame_context {provider : Provider σ} {base : σ} (pure : provider.IsPure base) {depth : Nat}
    (twins : Twins provider base (expandFile provider depth)) (r : FileRequest) :
    (r.context provider (expandFile provider depth)).Tame base :=
  ⟨pure, expandFile_includeFreshly provider depth, expandFile_reaches provider depth, twins⟩

/-- **Where the provider is pure, files that are visited and never included make no difference.** -/
theorem expandFile_twins {provider : Provider σ} {base : σ} (pure : provider.IsPure base) (depth : Nat) :
    Twins provider base (expandFile provider depth) := by
  induction depth with
  | zero =>
    rintro extra r r' store store' - - ⟨path, -, scope, -, visited⟩ - -
    refine ⟨scope, rfl, visited, ?_⟩
    rw [expandFile, expandFile, path]
    exact .refl _ _
  | succ depth ih =>
    intro extra r r' store store' hs hs' h hx clean
    cases loaded : (provider.load store r.path).1 with
    | error cause => exact absurd clean (diagnostics_expandFile_ne_nil depth loaded)
    | ok content =>
      have loaded' : (provider.load store' r'.path).1 = .ok content := by
        rw [h.path, pure.load store' hs', ← pure.load store hs, loaded]
      have context : r'.context provider (expandFile provider depth) =
          r.context provider (expandFile provider depth) := by
        rw [FileRequest.context, FileRequest.context, h.path, h.standsAlone, h.active]
      obtain ⟨names, -, clean, expanded⟩ := expandFile_of_clean depth loaded clean
      rw [expanded] at hx ⊢
      rw [expandFile, openFile_of_loaded provider _ (by rw [h.path, names]) loaded', context, h.path]
      have start : (r.initial (provider.load store r.path).2).Twin extra
          (r'.initial (provider.load store' r.path).2) := ⟨h.scope, rfl, h.visited⟩
      have twin := FileContext.walk_twin (tame_context pure ih r) start (.load r.path hs) (.load r.path hs')
        (fun _ => truthful_of_mem_lex) clean
        (fun p hp => ⟨by simp [FileRequest.context, (hx p hp).1, (hx p hp).2.1], (hx p hp).2.2⟩) rfl (.inl rfl)
      exact FileRequest.conclude_twin h.path twin.state (.append (.refl _ _) twin.journal)

end ShaderWeave
