import ShaderWeave.Proofs.Expansion.Run
import ShaderWeave.Proofs.Lexing.Kinds
import ShaderWeave.Proofs.Reader.Excerpts

/-!
# Files that ask for no other file

A `Transcript` is a sequence of excerpts: the tokens, the scopes before and after, and what is put out. Where nothing
is reported, tokens that ask for no other file are a transcript (`exists_transcript`), and a transcript is expanded to
what it says, whatever file it stands in and whatever follows (`leads_of_transcript`).

`FileContext.Leads` says this of any constructs one after another: from a cursor and a state they lead to others.
-/

namespace ShaderWeave

variable {σ : Type}

/-- The scope after a construct that asks for no other file. -/
def Scope.after (t : Scope) : Action → Scope
  | .declare v => t.declare v
  | .define name fields => t.define name fields
  | .nothing | .request .. => t

/-- Excerpts one after another: the scope before, the tokens, the scope after, and what is put out. -/
inductive Transcript : Scope → List Token → Scope → List Output → Prop
  /-- There is none. -/
  | nil (t : Scope) : Transcript t [] t []
  /-- One is followed by others. -/
  | cons {t t' : Scope} {raw ts : List Token} {action : Action} {out outs : List Output}
    (h : Excerpt t.structs raw action out) (rest : Transcript (t.after action) ts t' outs) :
    Transcript t (raw ++ ts) t' (out ++ outs)

/-- Tokens of which none starts a longer construct are copied. -/
theorem Transcript.of_plain (t : Scope) {ts : List Token} (h : ∀ u ∈ ts, u.role = .plain) :
    Transcript t ts t (ts.map .copy) := by
  induction ts with
  | nil => exact .nil t
  | cons u ts ih =>
    have rest : Transcript (t.after .nothing) ts t (ts.map .copy) := ih fun v hv => h v (List.mem_cons_of_mem _ hv)
    exact Transcript.cons (.plain (h u List.mem_cons_self)) rest

theorem Transcript.append {t t' t'' : Scope} {ts us : List Token} {outs outs' : List Output}
    (h : Transcript t ts t' outs) (h' : Transcript t' us t'' outs') : Transcript t (ts ++ us) t'' (outs ++ outs') := by
  induction h with
  | nil => exact h'
  | cons h _ ih =>
    rw [List.append_assoc, List.append_assoc]
    exact .cons h (ih h')

theorem fault?_of_mem_excerpt {types : Structs} {raw : List Token} {action : Action} {out : List Output}
    (h : Excerpt types raw action out) {o : Output} (ho : o ∈ out) : o.fault? = none := by
  have copies (ts : List Token) (ho : o ∈ ts.map Output.copy) : o.fault? = none := by
    obtain ⟨t, -, rfl⟩ := List.mem_map.1 ho
    rfl
  cases h with
  | plain => exact copies [_] ho
  | uniform => exact copies _ ho
  | struct =>
    rcases List.mem_append.1 ho with ho | ho
    · exact copies _ ho
    · rw [List.mem_singleton.1 ho]
      rfl

/-- Nothing is reported in a transcript. -/
theorem Transcript.filterMap_fault? {t t' : Scope} {ts : List Token} {outs : List Output}
    (h : Transcript t ts t' outs) : outs.filterMap Output.fault? = [] := by
  induction h with
  | nil => rfl
  | cons h _ ih => rw [List.filterMap_append, ih, List.filterMap_eq_nil_iff.2 fun _ => fault?_of_mem_excerpt h]; rfl

/-! ### Outputs in a journal -/

namespace Journal

theorem diagnostics_map_output (file : Path) (os : List Output) :
    diagnostics file (os.map .output) = (os.filterMap Output.fault?).map fun f => ⟨file.text, f.2, f.1⟩ := by
  induction os with
  | nil => simp [diagnostics]
  | cons o os ih => cases o <;> simp [diagnostics, Entry.diagnostics, Output.fault?, List.filterMap_cons, ih]

end Journal

/-! ### From one construct to another -/

namespace FileContext

variable (ctx : FileContext σ)

/-- The constructs from one cursor to another lead from one state to another, and leave a journal. -/
inductive Leads : FileState σ → Cursor → Journal → FileState σ → Cursor → Prop
  /-- There are none. -/
  | here (s : FileState σ) (c : Cursor) : Leads s c [] s c
  /-- One is followed by others. -/
  | further {s t : FileState σ} {c d : Cursor} {j : Journal} (h : c.ahead ≠ [])
    (rest : Leads (ctx.finish s c (ctx.read s c)).1 (c.skip ((ctx.read s c).steps + 1)) j t d) :
    Leads s c ((ctx.finish s c (ctx.read s c)).2 ++ j) t d

section Leads

variable {ctx} {s t u : FileState σ} {c d d' : Cursor} {j k : Journal}

theorem Leads.trans (h : ctx.Leads s c j t d) (h' : ctx.Leads t d k u d') : ctx.Leads s c (j ++ k) u d' := by
  induction h with
  | here => exact h'
  | further hc _ ih =>
    rw [List.append_assoc]
    exact .further hc (ih h')

/-- Constructs one after another are expanded one after another. -/
theorem Leads.walk_eq (h : ctx.Leads s c j t d) : ctx.walk s c = ((ctx.walk t d).1, j ++ (ctx.walk t d).2) := by
  induction h with
  | here => rfl
  | further h _ ih =>
    rw [ctx.walk_of_ahead h]
    simp [ih]

/-- Constructs that lead to the end are all there is. -/
theorem Leads.walk_eq_of_end (h : ctx.Leads s c j t d) (hd : d.ahead = []) : ctx.walk s c = (t, j) := by
  rw [h.walk_eq, ctx.walk_of_end hd, List.append_nil]

theorem Leads.run (h : ctx.Leads s c j t d) : ctx.Run s j t := by
  induction h with
  | here s => exact .done s
  | further _ _ ih => exact (ctx.finish_run _ _ _).trans ih

variable (ctx s c) in
/-- The expansion of tokens leads to their end. -/
theorem leads_walk : ∃ d, ctx.Leads s c (ctx.walk s c).2 (ctx.walk s c).1 d ∧ d.ahead = [] := by
  induction s, c using ctx.walk_induction with
  | done s c h =>
    rw [ctx.walk_of_end h]
    exact ⟨c, .here s c, h⟩
  | more s c h ih =>
    obtain ⟨d, leads, ended⟩ := ih
    rw [ctx.walk_of_ahead h]
    exact ⟨d, .further h leads, ended⟩

/-- Where constructs lead to another one, that one comes next. -/
theorem Leads.walk_eq_further (h : ctx.Leads s c j t d) (hd : d.ahead ≠ []) :
    ctx.walk s c =
      ((ctx.walk (ctx.finish t d (ctx.read t d)).1 (d.skip ((ctx.read t d).steps + 1))).1,
        j ++ ((ctx.finish t d (ctx.read t d)).2 ++
          (ctx.walk (ctx.finish t d (ctx.read t d)).1 (d.skip ((ctx.read t d).steps + 1))).2)) := by
  rw [h.walk_eq, ctx.walk_of_ahead hd]

end Leads

/-! ### Transcripts are expanded to what they say -/

/-- Where a construct is no problem, it reports nothing while it is read. -/
theorem faults_read_of_diagnostics {s : FileState σ} {c : Cursor}
    (h : Journal.diagnostics ctx.path (ctx.finish s c (ctx.read s c)).2 = []) : (ctx.read s c).faults = [] := by
  rw [finish, Journal.diagnostics_append] at h
  have := (List.append_eq_nil_iff.1 h).1
  rwa [Journal.diagnostics_map_output, List.map_eq_nil_iff] at this

section Excerpt

variable {ctx} {s : FileState σ} {c : Cursor} {raw rest : List Token} {action : Action} {out : List Output}

theorem read_of_excerpt (h : Excerpt s.scope.structs raw action out) (ahead : c.ahead = raw ++ rest) :
    ctx.read s c = ⟨some action, raw.length - 1, out⟩ :=
  Reader.construct_of_excerpt h ahead

theorem finish_of_excerpt (h : Excerpt s.scope.structs raw action out) (n : Nat) :
    ctx.finish s c ⟨some action, n, out⟩ = ({ s with scope := s.scope.after action }, out.map .output) := by
  rw [finish]
  cases h <;> simp [perform, Scope.after]

/-- An excerpt is read and put out, and then the next construct comes. -/
theorem leads_of_excerpt (h : Excerpt s.scope.structs raw action out) (ahead : c.ahead = raw ++ rest) :
    ctx.Leads s c (out.map .output) { s with scope := s.scope.after action } (c.skip raw.length) := by
  have hc : c.ahead ≠ [] := by
    rw [ahead]
    simp [h.ne_nil]
  have leads : ctx.Leads s c _ _ _ := .further hc (.here _ _)
  rwa [read_of_excerpt h ahead, finish_of_excerpt h, Nat.sub_add_cancel (List.length_pos_iff.2 h.ne_nil),
    List.append_nil] at leads

end Excerpt

/-- **A transcript is expanded to what it says.** -/
theorem leads_of_transcript {t t' : Scope} {ts : List Token} {outs : List Output} (h : Transcript t ts t' outs) :
    ∀ (s : FileState σ) (c : Cursor) (rest : List Token), s.scope = t → c.ahead = ts ++ rest →
      ctx.Leads s c (outs.map .output) { s with scope := t' } (c.skip ts.length) := by
  induction h with
  | nil t =>
    rintro s c rest rfl -
    exact .here s c
  | @cons t t' raw ts action out outs h _ ih =>
    rintro s c rest rfl ahead
    rw [List.append_assoc] at ahead
    have left : (c.skip raw.length).ahead = ts ++ rest := by rw [Cursor.ahead_skip, ahead, List.drop_left]
    have more := ih { s with scope := s.scope.after action } (c.skip raw.length) rest rfl left
    rw [Cursor.skip_skip] at more
    rw [List.map_append, List.length_append]
    exact (leads_of_excerpt h ahead).trans more

/-- **Where nothing is reported, tokens that ask for no other file are a transcript.** -/
theorem exists_transcript (s : FileState σ) (c : Cursor) (ht : ∀ t ∈ c.ahead, t.Truthful)
    (ho : ∀ t ∈ c.ahead, t.IsOwn) (hd : Journal.diagnostics ctx.path (ctx.walk s c).2 = []) :
    ∃ t' outs, Transcript s.scope c.ahead t' outs := by
  induction s, c using ctx.walk_induction with
  | done s c h =>
    rw [h]
    exact ⟨s.scope, [], .nil _⟩
  | more s c h ih =>
    obtain ⟨t, us, cons⟩ := List.exists_cons_of_ne_nil h
    have faults : (ctx.read s c).faults = [] := by
      rw [ctx.walk_of_ahead h, Journal.diagnostics_append] at hd
      exact ctx.faults_read_of_diagnostics (List.append_eq_nil_iff.1 hd).1
    obtain ⟨raw, rest, action, out, ahead, excerpt⟩ := Reader.exists_excerpt cons ht (ho t (by simp [cons])) faults
    have left : (c.skip raw.length).ahead = rest := by rw [Cursor.ahead_skip, ahead, List.drop_left]
    rw [read_of_excerpt excerpt ahead, finish_of_excerpt excerpt,
      Nat.sub_add_cancel (List.length_pos_iff.2 excerpt.ne_nil)] at ih
    rw [(leads_of_excerpt excerpt ahead).walk_eq, Journal.diagnostics_append] at hd
    obtain ⟨t', outs, transcript⟩ := ih (fun t h => ht t (List.mem_of_mem_drop h))
      (fun t h => ho t (List.mem_of_mem_drop h)) (List.append_eq_nil_iff.1 hd).2
    rw [left] at transcript
    rw [ahead]
    exact ⟨t', out ++ outs, .cons excerpt transcript⟩

end FileContext

/-! ### Whole files -/

theorem diagnostics_opening (path : Path) (text : String) :
    Journal.diagnostics path (opening path text) =
      (unclosedLines text).map fun line => ⟨path.text, line, .unclosedString⟩ := by
  have problems (lines : List Nat) : Journal.diagnostics path (lines.map (Entry.problem .unclosedString)) =
      lines.map fun line => ⟨path.text, line, .unclosedString⟩ := by
    induction lines with
    | nil => rfl
    | cons line lines ih => simp [Journal.diagnostics, Entry.problem, Entry.diagnostics, ih]
  simp [opening, Journal.diagnostics, Entry.diagnostics, problems]

/-- Nothing is written before the first construct. -/
theorem written?_of_mem_opening {file path : Path} {text : String} {x : Emission}
    (h : x ∈ Journal.emissions file (opening path text)) : x.output.written? = none := by
  obtain ⟨e, he, hx⟩ := (Journal.isView_emissions _).mem_iff.1 h
  simp only [opening, List.cons_append, List.mem_cons, List.mem_append, List.mem_map, List.not_mem_nil,
    or_false] at he
  rcases he with rfl | ⟨line, -, rfl⟩ | rfl
  · simp [Entry.emissions] at hx
  · obtain rfl : x = ⟨file, .problem .unclosedString line⟩ := by simpa [Entry.problem, Entry.emissions] using hx
    rfl
  · simp [Entry.emissions] at hx

theorem written_opening (file path : Path) (text : String) : Journal.written file (opening path text) = [] := by
  refine writtenTokens_eq_nil fun o ho => ?_
  obtain ⟨x, hx, rfl⟩ := List.mem_map.1 ho
  exact written?_of_mem_opening hx

theorem written_opening_append (file path : Path) (text : String) (j : Journal) :
    Journal.written file (opening path text ++ j) = Journal.written file j := by
  rw [Journal.written_append, written_opening, List.nil_append]

section File

variable {provider : Provider σ} (depth : Nat) {r : FileRequest} {store : σ} {text : String}

/-- A file whose tokens are a transcript is expanded to what it says. -/
theorem expandFile_of_transcript (hn : r.path.namesFile = true) (hl : (provider.load store r.path).1 = .ok text)
    {t' : Scope} {outs : List Output} (h : Transcript r.scope (lex text) t' outs) :
    expandFile provider (depth + 1) r store =
      r.conclude { r.initial (provider.load store r.path).2 with scope := t' }
        (opening r.path text ++ outs.map .output) := by
  have leads := (r.context provider (expandFile provider depth)).leads_of_transcript h
    (r.initial (provider.load store r.path).2) (.start (lex text)) [] rfl (List.append_nil _).symm
  rw [expandFile, openFile_of_loaded provider _ hn hl, leads.walk_eq_of_end List.drop_length]

/-- A file without a problem closes all its strings and has no problem in its constructs. -/
theorem expandFile_of_clean (hl : (provider.load store r.path).1 = .ok text)
    (hd : Journal.diagnostics r.path (expandFile provider (depth + 1) r store).journal = []) :
    let body := (r.context provider (expandFile provider depth)).walk (r.initial (provider.load store r.path).2)
      (.start (lex text))
    r.path.namesFile = true ∧ unclosedLines text = [] ∧ Journal.diagnostics r.path body.2 = [] ∧
      expandFile provider (depth + 1) r store = r.conclude body.1 (opening r.path text ++ body.2) := by
  cases hn : r.path.namesFile with
  | false =>
    rw [expandFile, openFile_of_nameless provider _ store hn] at hd
    simp [Journal.diagnostics, Entry.problem, Entry.diagnostics] at hd
  | true =>
    have expanded := openFile_of_loaded provider (expandFile provider depth) hn hl
    rw [expandFile, expanded] at hd
    obtain ⟨closed, clean⟩ := List.append_eq_nil_iff.1 ((Journal.diagnostics_append ..).symm.trans hd)
    rw [diagnostics_opening, List.map_eq_nil_iff] at closed
    exact ⟨rfl, closed, clean, expanded⟩

/-- **A file without a problem that asks for no other file is a transcript, and all its strings are closed.** -/
theorem exists_transcript_of_clean (hl : (provider.load store r.path).1 = .ok text) (ho : ∀ t ∈ lex text, t.IsOwn)
    (hd : Journal.diagnostics r.path (expandFile provider (depth + 1) r store).journal = []) :
    r.path.namesFile = true ∧ unclosedLines text = [] ∧ ∃ t' outs, Transcript r.scope (lex text) t' outs := by
  obtain ⟨names, closed, clean, -⟩ := expandFile_of_clean depth hl hd
  exact ⟨names, closed, (r.context provider (expandFile provider depth)).exists_transcript _ (.start (lex text))
    (fun _ => truthful_of_mem_lex) ho clean⟩

end File

end ShaderWeave
