import ShaderWeave.Proofs.Expansion.Transcript
import ShaderWeave.Proofs.Expansion.Warnings
import ShaderWeave.Proofs.Reader.Reach
import ShaderWeave.Provider.Memory

/-!
# Template files

A template file begins with a mark, `#requires_implementation`, and can only be included. The mark is no problem at the
start of a file that need not stand alone, and a problem everywhere else. In a valid program it is found nowhere else:
no construct that is no problem goes over a mark, since behind its first token it has no directives
(`FileContext.exists_passed`), so every mark of a file that is loaded starts a construct of its own.

Whether a file must stand alone matters to nothing but what its marks report. Two expansions of one file, of which only
one says that the file must stand alone, make the same steps, and leave the same journal but for that
(`expandFile_settled`). Both parts make up `templates_are_included`.
-/

namespace ShaderWeave

variable {σ : Type}

theorem Token.role_eq_templateMark_iff {t : Token} :
    t.role = .templateMark ↔ t.kind = .directive ∧ t.text = "#requires_implementation" := by
  unfold Token.role
  split_ifs <;> simp_all

/-! ### Marks of a file without a problem -/

namespace FileContext

variable {ctx : FileContext σ} {s : FileState σ} {c : Cursor} {t : Token} {ts : List Token}

/-- The tokens that a construct goes over: behind the first one there is no directive, and a mark is the first token of
a file that need not stand alone. -/
structure Passes (ctx : FileContext σ) (c : Cursor) (t : Token) (raw : List Token) : Prop where
  /-- Behind the first token there is no directive. -/
  kind : ∀ u ∈ raw, u.kind ≠ .directive
  /-- A mark is the first token of a file that need not stand alone. -/
  mark : t.role = .templateMark → c.index = 0 ∧ ctx.standsAlone = false

theorem exists_passed_of_request {m : Manner} {expected : String} (ahead : c.ahead = t :: ts)
    (unmarked : t.role ≠ .templateMark) (read : ctx.read s c = Reader.request m expected c)
    (faults : (ctx.read s c).faults = []) :
    ∃ raw rest, c.ahead = t :: (raw ++ rest) ∧ (ctx.read s c).steps = raw.length ∧ ctx.Passes c t raw := by
  rw [read] at faults
  obtain ⟨blanks, path, rest, meets, string⟩ := Reader.exists_meets_of_request faults
  have outcome : ctx.read s c = _ := read.trans (Reader.request_apply meets string)
  refine ⟨blanks ++ [path], rest, ?_, ?_, ⟨?_, fun mark => absurd mark unmarked⟩⟩
  · have split := meets.split
    rw [ahead, List.drop_one, List.tail_cons] at split
    rw [ahead, split, List.append_assoc, List.singleton_append]
  · rw [outcome, List.length_append, List.length_singleton]
  · rw [List.forall_mem_append]
    exact ⟨kind_ne_directive_of_blanks meets.blanks, by simp [string]⟩

/-- **A construct that is no problem goes over no mark**, unless it is the mark at the start of a file that need not
stand alone. -/
theorem exists_passed (ahead : c.ahead = t :: ts) (truthful : ∀ u ∈ c.ahead, u.Truthful)
    (faults : (ctx.read s c).faults = []) :
    ∃ raw rest, c.ahead = t :: (raw ++ rest) ∧ (ctx.read s c).steps = raw.length ∧ ctx.Passes c t raw := by
  have own (ho : t.IsOwn) (unmarked : t.role ≠ .templateMark) :
      ∃ raw rest, c.ahead = t :: (raw ++ rest) ∧ (ctx.read s c).steps = raw.length ∧ ctx.Passes c t raw := by
    obtain ⟨raw, rest, action, out, split, excerpt⟩ := Reader.exists_excerpt ahead truthful ho faults
    have outcome : ctx.read s c = _ := read_of_excerpt excerpt split
    obtain ⟨u, raw, rfl⟩ := List.exists_cons_of_ne_nil excerpt.ne_nil
    obtain ⟨rfl, -⟩ := List.cons.inj (ahead.symm.trans split)
    exact ⟨raw, rest, split, by rw [outcome]; rfl, excerpt.kind_ne_directive, fun mark => absurd mark unmarked⟩
  cases role : t.role with
  | plain => exact own (.inl role) (by simp [role])
  | structDefinition => exact own (.inr (.inl role)) (by simp [role])
  | uniform => exact own (.inr (.inr role)) (by simp [role])
  | inclusion =>
    exact exists_passed_of_request ahead (by simp [role]) (Reader.construct_of_inclusion ahead role) faults
  | vertexLink =>
    have read : ctx.read s c = _ := Reader.construct_of_vertexLink ahead role
    cases fragment : ctx.path.isFragment with
    | true =>
      rw [if_pos fragment] at read
      exact exists_passed_of_request ahead (by simp [role]) read faults
    | false =>
      rw [read, if_neg (by simp [fragment])] at faults
      exact absurd (Reader.faults_of_faults_bind faults) (Reader.faults_report_ne_nil _ _)
  | templateMark =>
    have read : ctx.read s c = _ := Reader.construct_of_templateMark ahead role
    rw [read] at faults
    have allowed := Reader.zero_of_faults_templateMark faults
    rw [allowed.2, Reader.templateMark_of_zero allowed.1] at read
    exact ⟨[], ts, ahead, by rw [read]; rfl, by simp, fun _ => allowed⟩

variable (ctx s) in
/-- **Where nothing is reported, a mark is the first token of a file that need not stand alone.** -/
theorem first_of_mark (truthful : ∀ u ∈ c.ahead, u.Truthful)
    (clean : Journal.diagnostics ctx.path (ctx.walk s c).2 = []) {i : Nat} (at_i : c.ahead[i]? = some t)
    (mark : t.role = .templateMark) : c.index = 0 ∧ i = 0 ∧ ctx.standsAlone = false := by
  induction s, c using ctx.walk_induction generalizing i with
  | done s c h => simp [h] at at_i
  | more s c h ih =>
    obtain ⟨first, ts, ahead⟩ := List.exists_cons_of_ne_nil h
    rw [ctx.walk_of_ahead h, Journal.diagnostics_append, List.append_eq_nil_iff] at clean
    obtain ⟨raw, rest, split, steps, passes⟩ :=
      exists_passed ahead truthful (ctx.faults_read_of_diagnostics clean.1)
    have directive := (Token.role_eq_templateMark_iff.1 mark).1
    rcases Nat.lt_trichotomy i 0 with lt | rfl | pos
    · omega
    · obtain rfl : first = t := by simpa [ahead] using at_i
      obtain ⟨zero, filled⟩ := passes.mark mark
      exact ⟨zero, rfl, filled⟩
    · by_cases inside : i ≤ raw.length
      · -- Within the construct there is no directive.
        obtain ⟨j, rfl⟩ : ∃ j, i = j + 1 := ⟨i - 1, by omega⟩
        rw [split, List.getElem?_cons_succ, List.getElem?_append_left (by omega)] at at_i
        exact absurd directive (passes.kind t (List.mem_of_getElem? at_i))
      · -- A later construct does not start on the first token.
        have later : (c.skip ((ctx.read s c).steps + 1)).ahead[i - (raw.length + 1)]? = some t := by
          rw [Cursor.ahead_skip, steps, List.getElem?_drop, ← at_i]
          congr 1
          omega
        have zero := (ih (fun u hu => truthful u (List.mem_of_mem_drop hu)) clean.2 later).1
        rw [Cursor.index_skip] at zero
        omega

theorem Run.load_notMem {t : FileState σ} {j : Journal} (h : ctx.Run s j t) (path : Path)
    (answer : Except String String) : .load path answer ∉ j := by
  intro he
  obtain ⟨_, _, _, _, -, hk, hm⟩ := h.step_of_mem he
  cases hk <;> simp at hm

end FileContext

/-! ### Files that are loaded -/

/-- A file that is loaded. -/
structure LoadedFile where
  /-- How it was asked for. The entry of a program is not asked for. -/
  manner : Option Manner
  /-- Its path. -/
  path : Path
  /-- Its text. -/
  text : String

/-- Every mark of the file is its first token, and then the file was included. -/
def LoadedFile.IsUsedAsTemplate (file : LoadedFile) : Prop :=
  ∀ (i : Nat) (t : Token), (lex file.text)[i]? = some t → t.kind = .directive → t.text = "#requires_implementation" →
    i = 0 ∧ file.manner = some .included

mutual

/-- The files that an entry loads in the journal of a file that is opened in the manner. -/
def Entry.loadedFiles (manner : Option Manner) : Entry → List LoadedFile
  | .load path (.ok text) => [⟨manner, path, text⟩]
  | .expand m _ _ body => Journal.loadedFiles (some m) body
  | _ => []

/-- The files that are loaded: the file itself and all files it opened, at any depth. -/
def Journal.loadedFiles (manner : Option Manner) : List Entry → List LoadedFile
  | [] => []
  | e :: j => Entry.loadedFiles manner e ++ Journal.loadedFiles manner j

end

namespace Journal

theorem isView_loadedFiles (manner : Option Manner) : IsView (loadedFiles manner) (Entry.loadedFiles manner) :=
  ⟨rfl, fun _ _ => rfl⟩

/-- Before the first construct, the file itself is loaded. -/
theorem loadedFiles_opening (manner : Option Manner) (path : Path) (content : String) :
    loadedFiles manner (opening path content) = [⟨manner, path, content⟩] :=
  view_opening (isView_loadedFiles manner).append (fun _ => rfl) (fun _ => rfl) path content

end Journal

/-- **In a file without a problem, and in all files it opens, marks are where they belong.** -/
theorem isUsedAsTemplate_of_clean (provider : Provider σ) (depth : Nat) :
    ∀ (r : FileRequest) (store : σ) (manner : Option Manner), (r.standsAlone = false → manner = some .included) →
      Journal.diagnostics r.path (expandFile provider depth r store).journal = [] →
      ∀ file ∈ Journal.loadedFiles manner (expandFile provider depth r store).journal, file.IsUsedAsTemplate := by
  induction depth with
  | zero =>
    intro r store manner _ _ file mem
    simp [expandFile, Journal.loadedFiles, Entry.loadedFiles] at mem
  | succ depth ih =>
    intro r store manner asked clean file mem
    cases hn : r.path.namesFile with
    | false =>
      rw [expandFile, openFile_of_nameless provider _ store hn] at mem
      simp [Journal.loadedFiles, Entry.loadedFiles, Entry.problem] at mem
    | true =>
      cases hl : (provider.load store r.path).1 with
      | error cause =>
        rw [expandFile, openFile_of_unloaded provider _ hn hl] at mem
        simp [Journal.loadedFiles, Entry.loadedFiles, Entry.problem] at mem
      | ok content =>
        obtain ⟨-, -, constructs, expanded⟩ := expandFile_of_clean depth hl clean
        rw [expanded] at mem
        obtain ⟨e, he, mem⟩ := (Journal.isView_loadedFiles manner).mem_iff.1 mem
        rcases List.mem_append.1 he with he | he
        · -- The file itself is loaded.
          have itself : file ∈ Journal.loadedFiles manner (opening r.path content) :=
            (Journal.isView_loadedFiles manner).mem_iff.2 ⟨e, he, mem⟩
          rw [Journal.loadedFiles_opening, List.mem_singleton] at itself
          subst itself
          intro i t at_i kind text
          have first := (r.context provider (expandFile provider depth)).first_of_mark
            (r.initial (provider.load store r.path).2) (c := .start (lex content)) (fun _ => truthful_of_mem_lex)
            constructs at_i (Token.role_eq_templateMark_iff.2 ⟨kind, text⟩)
          exact ⟨first.2.1, asked first.2.2⟩
        · -- A file that it opens is loaded.
          have run := (r.context provider (expandFile provider depth)).walk_run
            (r.initial (provider.load store r.path).2) (.start (lex content))
          cases e with
          | expand m q result body =>
            have inner := (Journal.isView_diagnostics r.path).eq_nil_iff.1 constructs _ he
            obtain ⟨s, _, path, -, -, rfl, -, rfl⟩ := run.order_of_mem he
            refine ih _ _ (some m) (fun filled => ?_) inner file mem
            cases m with
            | included => rfl
            | linked => cases filled
          | load path answer => exact absurd he (run.load_notMem path answer)
          | _ => simp [Entry.loadedFiles] at mem

/-! ### Whether a file must stand alone -/

/-- A file reports that it is a template that has to be included. -/
def Entry.isUnfilled : Entry → Bool
  | .output (.problem .unfilledTemplate _) => true
  | _ => false

/-- The journal without what the file itself reports of that kind. -/
def Journal.settled (j : Journal) : Journal :=
  j.filter fun e => !e.isUnfilled

theorem Journal.settled_append (j k : Journal) : settled (j ++ k) = settled j ++ settled k :=
  List.filter_append ..

/-- A view that shows nothing of these reports shows the same without them. -/
theorem Journal.view_settled {α : Type} (view : Journal → List α) (append : ∀ j k, view (j ++ k) = view j ++ view k)
    (unfilled : ∀ line, view [.problem .unfilledTemplate line] = []) (j : Journal) : view (settled j) = view j := by
  induction j with
  | nil => rfl
  | cons e j ih =>
    have both : view (e :: j) = view [e] ++ view j := append [e] j
    cases he : e.isUnfilled with
    | false =>
      have kept : settled (e :: j) = e :: settled j := List.filter_cons_of_pos (by simp [he])
      rw [kept, both, ← ih]
      exact append [e] (settled j)
    | true =>
      have dropped : settled (e :: j) = settled j := List.filter_cons_of_neg (by simp [he])
      have nothing : view [e] = [] := by
        unfold Entry.isUnfilled at he
        split at he
        · exact unfilled _
        · cases he
      rw [dropped, both, nothing, ih, List.nil_append]

/-- Nothing is written for these reports. -/
theorem Journal.write_settled (file : Path) (w : Weave) (j : Journal) : write file w (settled j) = write file w j := by
  induction j generalizing w with
  | nil => rfl
  | cons e j ih =>
    cases he : e.isUnfilled with
    | false =>
      have kept : settled (e :: j) = e :: settled j := List.filter_cons_of_pos (by simp [he])
      rw [kept, write, write, ih]
    | true =>
      have dropped : settled (e :: j) = settled j := List.filter_cons_of_neg (by simp [he])
      have nothing : Entry.write file w e = w := by
        unfold Entry.isUnfilled at he
        split at he
        · rfl
        · cases he
      rw [dropped, write, nothing, ih]

namespace FileContext

variable (ctx : FileContext σ) (s : FileState σ) (c : Cursor)

/-- The same file, which must stand alone or need not. -/
def standing (alone : Bool) : FileContext σ :=
  { ctx with standsAlone := alone }

/-- Only the marks depend on whether the file must stand alone, and only in what they report. -/
theorem read_standing (alone : Bool) :
    ((ctx.standing alone).read s c).value = ((ctx.standing false).read s c).value ∧
      ((ctx.standing alone).read s c).steps = ((ctx.standing false).read s c).steps ∧
      Journal.settled (((ctx.standing alone).read s c).output.map .output) =
        Journal.settled (((ctx.standing false).read s c).output.map .output) := by
  have same (h : (ctx.standing alone).read s c = (ctx.standing false).read s c) :
      ((ctx.standing alone).read s c).value = ((ctx.standing false).read s c).value ∧
        ((ctx.standing alone).read s c).steps = ((ctx.standing false).read s c).steps ∧
        Journal.settled (((ctx.standing alone).read s c).output.map .output) =
          Journal.settled (((ctx.standing false).read s c).output.map .output) := by
    rw [h]
    exact ⟨rfl, rfl, rfl⟩
  cases ahead : c.ahead with
  | nil =>
    refine same ?_
    have none : (Reader.current c).value = none := by simp [Reader.current, ahead]
    unfold read Reader.construct
    rw [Reader.bind_apply_of_none none, Reader.bind_apply_of_none none]
  | cons t rest =>
    unfold read at same ⊢
    cases role : t.role with
    | plain =>
      refine same ?_
      rw [Reader.construct_of_plain ahead role, Reader.construct_of_plain ahead role]
    | structDefinition =>
      refine same ?_
      rw [Reader.construct_of_structDefinition ahead role, Reader.construct_of_structDefinition ahead role]
    | uniform =>
      refine same ?_
      rw [Reader.construct_of_uniform ahead role, Reader.construct_of_uniform ahead role]
    | inclusion =>
      refine same ?_
      rw [Reader.construct_of_inclusion ahead role, Reader.construct_of_inclusion ahead role]
    | vertexLink =>
      refine same ?_
      rw [Reader.construct_of_vertexLink ahead role, Reader.construct_of_vertexLink ahead role]
      rfl
    | templateMark =>
      rw [Reader.construct_of_templateMark ahead role, Reader.construct_of_templateMark ahead role,
        Reader.templateMark_apply, Reader.templateMark_apply]
      refine ⟨rfl, rfl, ?_⟩
      rw [List.map_append, List.map_append, Journal.settled_append, Journal.settled_append]
      cases alone <;> rfl

/-- The construct is finished in the same way. -/
theorem finish_standing (alone : Bool) :
    ((ctx.standing alone).finish s c ((ctx.standing alone).read s c)).1 =
        ((ctx.standing false).finish s c ((ctx.standing false).read s c)).1 ∧
      Journal.settled ((ctx.standing alone).finish s c ((ctx.standing alone).read s c)).2 =
        Journal.settled ((ctx.standing false).finish s c ((ctx.standing false).read s c)).2 := by
  obtain ⟨value, steps, output⟩ := ctx.read_standing s c alone
  unfold finish
  rw [Journal.settled_append, Journal.settled_append, value, steps, output]
  cases ((ctx.standing false).read s c).value with
  | none => exact ⟨rfl, rfl⟩
  | some action => cases action <;> exact ⟨rfl, rfl⟩

/-- **All constructs lead to the same state and leave the same journal**, but for what the marks report. -/
theorem walk_standing (alone : Bool) :
    ((ctx.standing alone).walk s c).1 = ((ctx.standing false).walk s c).1 ∧
      Journal.settled ((ctx.standing alone).walk s c).2 = Journal.settled ((ctx.standing false).walk s c).2 := by
  induction s, c using (ctx.standing false).walk_induction with
  | done s c h =>
    rw [walk_of_end _ h, walk_of_end _ h]
    exact ⟨rfl, rfl⟩
  | more s c h ih =>
    obtain ⟨state, journal⟩ := ctx.finish_standing s c alone
    have steps := (ctx.read_standing s c alone).2.1
    rw [walk_of_ahead _ h, walk_of_ahead _ h]
    dsimp only
    rw [Journal.settled_append, Journal.settled_append, state, steps, journal, ih.2]
    exact ⟨ih.1, rfl⟩

end FileContext

/-- The same request, for a file that must stand alone or need not. -/
def FileRequest.standing (r : FileRequest) (alone : Bool) : FileRequest :=
  { r with standsAlone := alone }

/-- A file hands back the same text of a vertex shader if it does not depend on these reports. -/
theorem FileRequest.conclude_result {r : FileRequest} {j k : Journal} (h : Journal.settled j = Journal.settled k)
    (s : FileState σ) : (r.conclude s j).result = (r.conclude s k).result := by
  have woven : Journal.woven r.path j = Journal.woven r.path k := by
    unfold Journal.woven
    rw [← Journal.write_settled, h, Journal.write_settled]
  unfold conclude
  rw [woven]

/-- **Whether a file must stand alone changes nothing but what its marks report.** -/
theorem expandFile_settled (provider : Provider σ) (depth : Nat) (r : FileRequest) (store : σ) (alone : Bool) :
    let e := expandFile provider depth (r.standing alone) store
    let e' := expandFile provider depth (r.standing false) store
    e.result = e'.result ∧ e.store = e'.store ∧ Journal.settled e.journal = Journal.settled e'.journal := by
  dsimp only
  cases depth with
  | zero => exact ⟨rfl, rfl, rfl⟩
  | succ depth =>
    rw [expandFile, expandFile]
    cases hn : r.path.namesFile with
    | false =>
      rw [openFile_of_nameless provider _ (r := r.standing alone) store hn,
        openFile_of_nameless provider _ (r := r.standing false) store hn]
      exact ⟨rfl, rfl, rfl⟩
    | true =>
      cases hl : (provider.load store r.path).1 with
      | error cause =>
        rw [openFile_of_unloaded provider _ (r := r.standing alone) hn hl,
          openFile_of_unloaded provider _ (r := r.standing false) hn hl]
        exact ⟨rfl, rfl, rfl⟩
      | ok content =>
        rw [openFile_of_loaded provider _ (r := r.standing alone) hn hl,
          openFile_of_loaded provider _ (r := r.standing false) hn hl]
        obtain ⟨state, journal⟩ := (r.context provider (expandFile provider depth)).walk_standing
          (r.initial (provider.load store r.path).2) (.start (lex content)) alone
        have settled := congrArg (Journal.settled (opening r.path content) ++ ·) journal
        simp only [← Journal.settled_append] at settled
        refine ⟨?_, congrArg FileState.store state, settled⟩
        exact (congrArg (fun s => (r.conclude s _).result) state).trans (FileRequest.conclude_result settled _)

/-! ### The main result -/

/-- The diagnostics without those that say of a file that it is a template and has to be included. -/
def withoutUnfilled (file : Path) (ds : List Diagnostic) : List Diagnostic :=
  ds.filter fun d => ¬ (d.file = file.text ∧ d.problem = .unfilledTemplate)

theorem withoutUnfilled_diagnostics (file : Path) (j : Journal) :
    withoutUnfilled file (Journal.diagnostics file (Journal.settled j)) =
      withoutUnfilled file (Journal.diagnostics file j) := by
  refine Journal.view_settled (fun j => withoutUnfilled file (Journal.diagnostics file j)) ?_ ?_ j
  · intro j k
    rw [Journal.diagnostics_append]
    exact List.filter_append ..
  · intro line
    simp [withoutUnfilled, Entry.problem, Journal.diagnostics, Entry.diagnostics]

/-- **Template files are included.** In a valid program, every mark of a template file in a file that is loaded is the
first token of that file, and then the file was included: it is neither the entry nor linked as a vertex shader.

Beyond that, whether a file must stand alone has no effect, whatever has been declared and opened before: the same is
handed back, written and asked for, the provider ends in the same store, and the same is reported, but for the reports
that this file itself is a template. -/
theorem templates_are_included (provider : Provider σ) :
    (∀ (entry : Path) (store : σ),
      let p := (provider.program entry store).1
      p.isValid = true → ∀ file ∈ Journal.loadedFiles none p.journal, file.IsUsedAsTemplate) ∧
    ∀ (depth : Nat) (r : FileRequest) (store : σ),
      let alone := expandFile provider depth { r with standsAlone := true } store
      let free := expandFile provider depth { r with standsAlone := false } store
      alone.result = free.result ∧ alone.store = free.store ∧
        Journal.woven r.path alone.journal = Journal.woven r.path free.journal ∧
        Journal.calls alone.journal = Journal.calls free.journal ∧
        Journal.log r.path alone.journal = Journal.log r.path free.journal ∧
        withoutUnfilled r.path (Journal.diagnostics r.path alone.journal) =
          withoutUnfilled r.path (Journal.diagnostics r.path free.journal) := by
  constructor
  · intro entry store p valid
    have clean : Journal.diagnostics entry p.journal = [] := Provider.diagnostics_eq_nil_of_isValid valid
    refine isUsedAsTemplate_of_clean provider (provider.reach store) (.entry entry) store none (fun filled => ?_) clean
    cases filled
  · intro depth r store alone free
    obtain ⟨result, same, journal⟩ := expandFile_settled provider depth r store true
    have calls := congrArg Journal.calls journal
    have log := congrArg (Journal.log r.path) journal
    have woven := congrArg (Journal.woven r.path) journal
    have diagnostics := congrArg (fun j => withoutUnfilled r.path (Journal.diagnostics r.path j)) journal
    simp only [withoutUnfilled_diagnostics] at diagnostics
    unfold Journal.woven at woven
    rw [Journal.write_settled, Journal.write_settled] at woven
    rw [Journal.view_settled Journal.calls Journal.calls_append fun _ => rfl,
      Journal.view_settled Journal.calls Journal.calls_append fun _ => rfl] at calls
    rw [Journal.view_settled (Journal.log r.path) (Journal.log_append r.path) fun _ => rfl,
      Journal.view_settled (Journal.log r.path) (Journal.log_append r.path) fun _ => rfl] at log
    exact ⟨result, same, woven, calls, log, diagnostics⟩

/-- A file that includes a template file. -/
def templateFiles : MemoryFiles :=
  (MemoryFiles.empty.put "main.frag" [some "#include \"shade.glsl\"\nvec4 shade() { return vec4(1.0); }\n"]).put
    "shade.glsl" [some "#requires_implementation\nvec4 shade();\n"]

/-- The program is valid, and the mark is where it belongs. As a program of its own the template file is none. -/
theorem templates_are_included_shade :
    let p := (MemoryFiles.provider.program ⟨"main.frag"⟩ templateFiles).1
    let q := (MemoryFiles.provider.program ⟨"shade.glsl"⟩ templateFiles).1
    p.isValid = true ∧ (Journal.loadedFiles none p.journal).map LoadedFile.manner = [none, some .included] ∧
      (∀ file ∈ Journal.loadedFiles none p.journal, file.IsUsedAsTemplate) ∧
      q.diagnostics = [⟨"shade.glsl", 1, .unfilledTemplate⟩] := by
  intro p q
  have valid : p.isValid = true := by decide +kernel
  exact ⟨valid, by decide +kernel, (templates_are_included MemoryFiles.provider).1 _ _ valid, by decide +kernel⟩

end ShaderWeave
