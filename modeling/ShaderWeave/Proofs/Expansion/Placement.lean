import ShaderWeave.Program
import ShaderWeave.Proofs.Expansion.Nesting
import ShaderWeave.Proofs.Expansion.Origins
import ShaderWeave.Proofs.Lexing.Mending
import ShaderWeave.Proofs.Reader.Reporting

/-!
# Where diagnostics point

A problem of a file is reported on a line of the text that was loaded for it, and on line zero only if there is no such
text: because the path names no file, or because the file cannot be loaded. A file first reports the strings that are
left open, line by line, and then what its constructs report, in the order of their lines: a cursor does not move back,
and beyond the last token the last line stands in.

`Journal.ownFaults` lists what a file reports itself, and `FileRequest.Reports` says what that can be. The main result,
`Provider.program_diagnostics`, says it of all diagnostics of a program.
-/

namespace ShaderWeave

variable {σ : Type}

/-- A problem that is found in a construct, while it is read or when it asks for a file. -/
def Problem.foundInConstruct : Problem → Bool
  | .noExtension _ | .unclosedString | .repeatedLeaf _ => false
  | _ => true

theorem Problem.foundInConstruct_of_foundInReading {p : Problem} (h : p.foundInReading = true) :
    p.foundInConstruct = true := by
  cases p <;> first | rfl | cases h

theorem Problem.not_isWarning_of_foundInConstruct {p : Problem} (h : p.foundInConstruct = true) :
    p.isWarning = false := by
  cases p <;> first | rfl | cases h

theorem FileContext.Refusal.foundInConstruct {ctx : FileContext σ} {s : FileState σ} {m : Manner} {p : Problem}
    (h : ctx.Refusal s m p) : p.foundInConstruct = true := by
  cases h <;> rfl

namespace Journal

/-- The problems that a file reports itself, each with its line. What other files report is left out. -/
def ownFaults (j : Journal) : List Fault :=
  (own j).filterMap Output.fault?

theorem ownFaults_append (j k : Journal) : ownFaults (j ++ k) = ownFaults j ++ ownFaults k := by
  rw [ownFaults, own_append, List.filterMap_append]
  rfl

theorem mem_ownFaults_iff {j : Journal} {p : Problem} {line : Nat} :
    (p, line) ∈ ownFaults j ↔ .problem p line ∈ j := by
  rw [Entry.problem, ← mem_own_iff, ownFaults, List.mem_filterMap]
  constructor
  · rintro ⟨o, ho, hp⟩
    cases o with
    | problem p' line' =>
      obtain ⟨rfl, rfl⟩ : p' = p ∧ line' = line := by simpa [Output.fault?] using hp
      exact ho
    | _ => simp [Output.fault?] at hp
  · exact fun h => ⟨_, h, rfl⟩

/-- What a file reports itself are diagnostics, in the same order. -/
theorem ownFaults_sublist (file : Path) (j : Journal) :
    ((ownFaults j).map fun f => (⟨file.text, f.2, f.1⟩ : Diagnostic)).Sublist (diagnostics file j) := by
  induction j with
  | nil => exact List.Sublist.refl _
  | cons e j ih =>
    rw [← List.singleton_append, ownFaults_append, List.map_append, diagnostics_append]
    refine List.Sublist.append ?_ ih
    cases e with
    | output o =>
      cases o <;> simp [ownFaults, own, Entry.own?, Output.fault?, diagnostics, Entry.diagnostics]
    | _ => exact List.nil_sublist _

theorem ownFaults_opening (path : Path) (content : String) :
    ownFaults (opening path content) = (unclosedLines content).map fun line => (.unclosedString, line) := by
  rw [ownFaults, own_opening]
  simp [List.filterMap_map, Function.comp_def, Output.fault?]

end Journal

/-! ### Problems of one file -/

namespace FileContext

variable (ctx : FileContext σ)

/-- What a file reports for a construct lies between where the construct starts and where it ends. -/
theorem reports_finish (s : FileState σ) (c : Cursor) (hc : c.Ordered) :
    (∀ f ∈ Journal.ownFaults (ctx.finish s c (ctx.read s c)).2, f.1.foundInConstruct = true) ∧
      c.Within (ctx.read s c).steps ((Journal.ownFaults (ctx.finish s c (ctx.read s c)).2).map Prod.snd) := by
  have read := Reader.reporting_construct ctx.path ctx.standsAlone s.scope.structs c hc
  obtain ⟨ps, own, refused⟩ := ctx.own_finish s c (ctx.read s c)
  -- A request ends where it stands, so what is wrong with the file that is asked for comes last.
  have last : ∀ f ∈ ps.filterMap Output.fault?,
      f.1.foundInConstruct = true ∧ f.2 = (c.skip (ctx.read s c).steps).line := by
    intro f hf
    obtain ⟨p, hp, fault⟩ := List.mem_filterMap.1 hf
    obtain ⟨m, written, line, problem, value, rfl, refusal⟩ := refused p hp
    obtain rfl : (problem, line) = f := Option.some.inj fault
    exact ⟨refusal.foundInConstruct,
      Reader.endsAt_construct ctx.path ctx.standsAlone s.scope.structs c _ value m written line rfl⟩
  have faults : Journal.ownFaults (ctx.finish s c (ctx.read s c)).2 =
      (ctx.read s c).faults ++ ps.filterMap Output.fault? := by
    rw [Journal.ownFaults, own, List.filterMap_append]
    rfl
  have after : (c.skip (ctx.read s c).steps).Within 0 ((ps.filterMap Output.fault?).map Prod.snd) := by
    have same : (ps.filterMap Output.fault?).map Prod.snd =
        List.replicate (ps.filterMap Output.fault?).length (c.skip (ctx.read s c).steps).line :=
      List.eq_replicate_iff.2 ⟨List.length_map _, by simpa using fun line p hf => (last (p, line) hf).2⟩
    rw [same]
    exact ⟨List.pairwise_replicate.2 (.inr (Nat.le_refl _)), fun l hl => by
      rw [List.eq_of_mem_replicate hl, Cursor.skip_zero]
      exact ⟨Nat.le_refl _, Nat.le_refl _⟩⟩
  rw [faults, List.map_append]
  refine ⟨fun f hf => ?_, read.lines.append hc after⟩
  rcases List.mem_append.1 hf with hf | hf
  · exact Problem.foundInConstruct_of_foundInReading (read.found f hf)
  · exact (last f hf).1

/-- What a file reports for its constructs is found in them. -/
theorem foundInConstruct_walk (s : FileState σ) (c : Cursor) (hc : c.Ordered) :
    ∀ f ∈ Journal.ownFaults (ctx.walk s c).2, f.1.foundInConstruct = true := by
  induction s, c using ctx.walk_induction with
  | done s c h =>
    rw [ctx.walk_of_end h]
    exact fun _ hf => absurd hf List.not_mem_nil
  | more s c h ih =>
    rw [ctx.walk_of_ahead h]
    simp only [Journal.ownFaults_append]
    exact List.forall_mem_append.2 ⟨(ctx.reports_finish s c hc).1, ih (hc.skip _)⟩

/-- **A file reports what is wrong with its constructs in the order of their lines.** -/
theorem exists_reports_walk (s : FileState σ) (c : Cursor) (hc : c.Ordered) :
    ∃ n, c.Within n ((Journal.ownFaults (ctx.walk s c).2).map Prod.snd) :=
  ctx.walk_within (fun j => (Journal.ownFaults j).map Prod.snd) rfl
    (fun j k => by rw [Journal.ownFaults_append, List.map_append]) (fun s c hc => (ctx.reports_finish s c hc).2) s c hc

end FileContext

/-- A cursor on a text with tokens is on a line of the text, also beyond the last token. -/
theorem Cursor.line_skip_start {content : String} (h : lex content ≠ []) (n : Nat) :
    1 ≤ ((Cursor.start (lex content)).skip n).line ∧
      ((Cursor.start (lex content)).skip n).line ≤ (Text.lines content.toList).length := by
  have hl : (lex content).getLast? = some ((lex content).getLast h) := List.getLast?_eq_some_getLast h
  cases head : ((Cursor.start (lex content)).skip n).ahead.head? with
  | none =>
    have line : ((Cursor.start (lex content)).skip n).line = ((lex content).getLast h).line := by
      rw [Cursor.line, head]
      simp [Cursor.start, Cursor.skip, hl]
    rw [line]
    exact line_of_mem_lex (List.getLast_mem h)
  | some t =>
    rw [Cursor.line, head]
    exact line_of_mem_lex (List.mem_of_mem_drop (List.mem_of_head? head))

/-! ### Whole files -/

/-- What the file of `q` reports itself in an expansion with the journal `body`. -/
inductive FileRequest.Reports (q : FileRequest) (body : Journal) : Prop
  /-- Nothing, if it lies deeper than files can be. -/
  | tooDeep (none : Journal.ownFaults body = [])
  /-- Its path names no file with an extension. -/
  | nameless (unnamed : q.path.namesFile = false) (only : Journal.ownFaults body = [(.noExtension q.path.text, 0)])
  /-- It cannot be loaded. -/
  | unloaded {cause : String} (loaded : body.head? = some (.load q.path (.error cause)))
    (only : Journal.ownFaults body = [(.notFound q.path.text cause, 0)])
  /-- It is loaded, and reports the strings that are left open and then what is wrong with its constructs. -/
  | read {content : String} {faults : List Fault} (loaded : body.head? = some (.load q.path (.ok content)))
    (all : Journal.ownFaults body = (unclosedLines content).map (fun line => (.unclosedString, line)) ++ faults)
    (found : ∀ f ∈ faults, f.1.foundInConstruct = true) (sorted : (faults.map Prod.snd).Pairwise (· ≤ ·))
    (bounds : ∀ f ∈ faults, 1 ≤ f.2 ∧ f.2 ≤ (Text.lines content.toList).length)
    (first : ∃ ds, Journal.diagnostics q.path body =
      (unclosedLines content).map (fun line => ⟨q.path.text, line, .unclosedString⟩) ++ ds)

/-- A string is left open on a line of the text. -/
theorem bounds_of_mem_unclosedLines {content : String} {line : Nat} (h : line ∈ unclosedLines content) :
    1 ≤ line ∧ line ≤ (Text.lines content.toList).length := by
  rw [unclosedLines_eq_oddLines, mem_oddLines_iff] at h
  obtain ⟨pos, whole, hw, -⟩ := h
  obtain ⟨lt, -⟩ := List.getElem?_eq_some_iff.1 hw
  omega

/-- **A file reports on lines of the text that is loaded for it.** -/
theorem reports_expandFile (provider : Provider σ) (depth : Nat) (r : FileRequest) (store : σ) :
    r.Reports (expandFile provider depth r store).journal := by
  cases depth with
  | zero => exact .tooDeep rfl
  | succ depth =>
    rw [expandFile]
    cases hn : r.path.namesFile with
    | false =>
      rw [openFile_of_nameless provider _ store hn]
      exact .nameless hn rfl
    | true =>
      cases hl : (provider.load store r.path).1 with
      | error cause =>
        rw [openFile_of_unloaded provider _ hn hl]
        exact .unloaded rfl rfl
      | ok content =>
        rw [openFile_of_loaded provider _ hn hl]
        let ctx := r.context provider (expandFile provider depth)
        have ordered := Cursor.ordered_start (pairwise_line_lex content)
        obtain ⟨n, within⟩ := ctx.exists_reports_walk (r.initial (provider.load store r.path).2) _ ordered
        refine .read rfl ?_
          (ctx.foundInConstruct_walk (r.initial (provider.load store r.path).2) _ ordered) within.sorted ?_ ?_
        · rw [FileRequest.conclude, Journal.ownFaults_append, Journal.ownFaults_opening]
        · intro f hf
          have tokens : lex content ≠ [] := by
            intro none
            rw [ctx.walk_of_end (c := .start (lex content)) none] at hf
            exact absurd hf List.not_mem_nil
          have lines := within.bounds f.2 (List.mem_map_of_mem hf)
          exact ⟨Nat.le_trans (Cursor.line_skip_start tokens 0).1 lines.1,
            Nat.le_trans lines.2 (Cursor.line_skip_start tokens n).2⟩
        · exact ⟨_, by rw [FileRequest.conclude, Journal.diagnostics_append, diagnostics_opening]⟩

/-- In an expansion with the journal `body`, the file of `q` may report the problem on the line: on line zero if there
is no text to point at, and else on a line of the text that is loaded. -/
inductive FileRequest.Places (q : FileRequest) (body : Journal) : Problem → Nat → Prop
  /-- The path names no file with an extension. -/
  | nameless (unnamed : q.path.namesFile = false) : Places q body (.noExtension q.path.text) 0
  /-- The file cannot be loaded. -/
  | unloaded {cause : String} (loaded : body.head? = some (.load q.path (.error cause))) :
    Places q body (.notFound q.path.text cause) 0
  /-- The file is loaded, and has the line. -/
  | line {content : String} {problem : Problem} {line : Nat}
    (loaded : body.head? = some (.load q.path (.ok content)))
    (kind : problem = .unclosedString ∨ problem.foundInConstruct = true)
    (bounds : 1 ≤ line ∧ line ≤ (Text.lines content.toList).length) : Places q body problem line

theorem FileRequest.Places.not_isWarning {q : FileRequest} {body : Journal} {problem : Problem} {line : Nat}
    (h : q.Places body problem line) : problem.isWarning = false := by
  cases h with
  | nameless _ => rfl
  | unloaded _ => rfl
  | line _ kind _ =>
    rcases kind with rfl | kind
    · rfl
    · exact Problem.not_isWarning_of_foundInConstruct kind

/-- What a file reports has its place. -/
theorem FileRequest.Reports.places {q : FileRequest} {body : Journal} (h : q.Reports body) {problem : Problem}
    {line : Nat} (own : (problem, line) ∈ Journal.ownFaults body) : q.Places body problem line := by
  cases h with
  | tooDeep none =>
    rw [none] at own
    exact absurd own List.not_mem_nil
  | nameless unnamed only =>
    rw [only] at own
    obtain ⟨rfl, rfl⟩ := Prod.mk.inj (List.mem_singleton.1 own)
    exact .nameless unnamed
  | unloaded loaded only =>
    rw [only] at own
    obtain ⟨rfl, rfl⟩ := Prod.mk.inj (List.mem_singleton.1 own)
    exact .unloaded loaded
  | read loaded all found _ bounds _ =>
    rw [all] at own
    rcases List.mem_append.1 own with own | own
    · obtain ⟨number, hn, same⟩ := List.mem_map.1 own
      obtain ⟨rfl, rfl⟩ := Prod.mk.inj same
      exact .line loaded (.inl rfl) (bounds_of_mem_unclosedLines hn)
    · exact .line loaded (.inr (found _ own)) (bounds _ own)

/-- **What is reported in an expansion has its place in a file whose expansion it nests.** -/
theorem exists_places_of_mem_diagnostics {provider : Provider σ} {depth : Nat} {r : FileRequest} {store : σ}
    {d : Diagnostic} (hd : d ∈ Journal.diagnostics r.path (expandFile provider depth r store).journal) :
    let e := expandFile provider depth r store
    ∃ stack q result body, Nests r e.result e.journal stack q result body ∧ d.file = q.path.text ∧
      (d.problem, d.line) ∈ Journal.ownFaults body ∧ q.Places body d.problem d.line := by
  intro e
  obtain ⟨stack, q, result, body, nests, recorded, hf⟩ :=
    Journal.exists_nests_of_mem_diagnostics r (expandFile provider depth r store).result _ (List.Subset.refl _) hd
  have own := Journal.mem_ownFaults_iff.2 recorded
  obtain ⟨-, depth', u, -, hb⟩ := nests.of_expandFile rfl rfl
  have reports : q.Reports body := hb ▸ reports_expandFile provider depth' q u
  exact ⟨stack, q, result, body, nests, hf, own, reports.places own⟩

/-! ### Programs -/

/-- A diagnostic points at a place of a program. -/
inductive Program.Points (p : Program) : Diagnostic → Prop
  /-- Two leaves of one name concern the entry as a whole. -/
  | repeated {name : String} (h : name ∈ p.result.scope.collisions) : Points p ⟨p.entry.text, 0, .repeatedLeaf name⟩
  /-- The file of `q` reports the problem in its place, when it is expanded with the journal `body`. -/
  | reported {stack : List Path} {q : FileRequest} {result : FileResult} {body : Journal} {problem : Problem}
    {line : Nat}
    (nests : Nests (.entry p.entry) p.result p.journal stack q result body)
    (own : (problem, line) ∈ Journal.ownFaults body) (placed : q.Places body problem line) :
    Points p ⟨q.path.text, line, problem⟩

/-- In an expansion with the journal `body`, the file of `q` reports strings that are left open on the lines of
`quotes`, and then `faults`. -/
structure FileRequest.Orderly (q : FileRequest) (body : Journal) (quotes : List Nat) (faults : List Fault) : Prop where
  /-- It reports nothing else itself. -/
  all : Journal.ownFaults body = quotes.map (fun line => (.unclosedString, line)) ++ faults
  /-- What it reports are diagnostics of the expansion, in this order. -/
  recorded : ((Journal.ownFaults body).map fun f => (⟨q.path.text, f.2, f.1⟩ : Diagnostic)).Sublist
    (Journal.diagnostics q.path body)
  /-- The strings that are left open come before what other files report. -/
  first : ∃ ds, Journal.diagnostics q.path body =
    quotes.map (fun line => ⟨q.path.text, line, .unclosedString⟩) ++ ds
  /-- Each of them is on a later line than the one before. -/
  increasing : quotes.Pairwise (· < ·)
  /-- None of them comes later. -/
  others : ∀ f ∈ faults, f.1 ≠ .unclosedString
  /-- All else is in the order of the lines. -/
  sorted : (faults.map Prod.snd).Pairwise (· ≤ ·)

theorem FileRequest.Reports.exists_orderly {q : FileRequest} {body : Journal} (h : q.Reports body) :
    ∃ quotes faults, q.Orderly body quotes faults := by
  have recorded := Journal.ownFaults_sublist q.path body
  cases h with
  | tooDeep none => exact ⟨[], [], none, recorded, ⟨_, rfl⟩, .nil, by simp, by simp⟩
  | nameless _ only => exact ⟨[], _, only, recorded, ⟨_, rfl⟩, .nil, by simp, by simp⟩
  | unloaded _ only => exact ⟨[], _, only, recorded, ⟨_, rfl⟩, .nil, by simp, by simp⟩
  | @read content faults _ all found sorted _ first =>
    refine ⟨unclosedLines content, faults, all, recorded, first, ?_, fun f hf heq => ?_, sorted⟩
    · rw [unclosedLines_eq_oddLines]
      exact pairwise_oddLines content
    · simpa [heq, Problem.foundInConstruct] using found f hf

/-- **Diagnostics point at real places, in order.** Line zero stands for a file as a whole: on the entry where two
leaves have one name, on a path that names no file, and on a file that cannot be loaded. Every other diagnostic is on a
line of the text that was loaded when the file was expanded that reports it. Each file that is expanded first reports
the strings that are left open, line by line, and then the rest in the order of its lines. -/
theorem Provider.program_diagnostics (provider : Provider σ) (entry : Path) (store : σ) :
    let p := (provider.program entry store).1
    (∀ d ∈ p.diagnostics, p.Points d) ∧
      ∀ stack q result body, Nests (.entry entry) p.result p.journal stack q result body →
        ∃ quotes faults, q.Orderly body quotes faults := by
  intro p
  refine ⟨fun d hd => ?_, fun stack q result body nests => ?_⟩
  · rcases List.mem_append.1 hd with hd | hd
    · have found : d ∈ Journal.diagnostics (FileRequest.entry entry).path
          (expandFile provider (provider.reach store) (.entry entry) store).journal := hd
      obtain ⟨stack, q, result, body, nests, hf, own, placed⟩ := exists_places_of_mem_diagnostics found
      obtain ⟨file, line, problem⟩ := d
      obtain rfl : file = q.path.text := hf
      exact .reported nests own placed
    · obtain ⟨name, hn, rfl⟩ := List.mem_map.1 hd
      exact .repeated hn
  · have expanded : p.journal = (expandFile provider (provider.reach store) (.entry entry) store).journal := rfl
    obtain ⟨-, depth, u, -, rfl⟩ := nests.of_expandFile rfl expanded
    exact (reports_expandFile provider depth q u).exists_orderly

end ShaderWeave
