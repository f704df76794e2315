import ShaderWeave.Proofs.Expansion.Locality
import ShaderWeave.Proofs.Expansion.Rereading
import ShaderWeave.Proofs.Reader.Spacing

/-!
# Files with other blanks

Blanks separate tokens and mean nothing else. Two texts of a file with the same words are expanded alike
(`expandFile_of_words`): the same is declared, the same files are included, the provider is asked the same, the same is
reported but for the lines in the file, and the same text is woven but for its blanks.

Two reports depend on more than the words. The mark of a template file has to be the first token, and a blank before it
makes it late. A string that is left open takes the rest of its line, and has the same word as one that is closed at the
end of the line, but only the first one is reported (`reports_of_open`).

The files that the file opens are expanded to the same journals in both, since their texts are equal and the file itself
is not loaded again (`loads_inactive`).
-/

namespace ShaderWeave

variable {σ τ : Type}

/-! ### Reports -/

namespace Diagnostic

/-- The diagnostic is one of some problems of a file. -/
def isApart (file : Path) (apart : List Problem) (d : Diagnostic) : Bool :=
  d.file = file.text && d.problem ∈ apart

/-- The diagnostic without its line, if it is one of the file. -/
def lineless (file : Path) (d : Diagnostic) : Diagnostic :=
  if d.file = file.text then { d with line := 0 } else d

theorem isApart_lineless (file : Path) (apart : List Problem) (d : Diagnostic) :
    (d.lineless file).isApart file apart = d.isApart file apart := by
  by_cases h : d.file = file.text <;> simp [lineless, isApart, h]

end Diagnostic

namespace Journal

/-- What is reported of a file and of those it opens, without the lines in the file and without some of its
problems. -/
def reports (apart : List Problem) (file : Path) (j : Journal) : List Diagnostic :=
  ((diagnostics file j).filter fun d => !d.isApart file apart).map (Diagnostic.lineless file)

theorem reports_append (apart : List Problem) (file : Path) (j k : Journal) :
    reports apart file (j ++ k) = reports apart file j ++ reports apart file k := by
  simp [reports]

/-- One more problem may be left out afterwards. -/
theorem reports_cons (p : Problem) (apart : List Problem) (file : Path) (j : Journal) :
    reports (p :: apart) file j = (reports apart file j).filter fun d => !d.isApart file [p] := by
  have both (d : Diagnostic) : (!d.isApart file (p :: apart)) = (!d.isApart file [p] && !d.isApart file apart) := by
    simp only [Diagnostic.isApart, List.mem_cons, List.not_mem_nil, or_false]
    by_cases h : d.file = file.text <;> simp [h]
  rw [reports, reports, List.filter_map, List.filter_filter]
  simp only [Function.comp_def, Diagnostic.isApart_lineless, both]

/-- A problem of the file is reported without its line, unless it is left out. -/
theorem reports_problem (apart : List Problem) (file : Path) (p : Problem) (line : Nat) :
    reports apart file [.problem p line] = if p ∈ apart then [] else [⟨file.text, 0, p⟩] := by
  by_cases h : p ∈ apart <;>
    simp [reports, diagnostics, Entry.problem, Entry.diagnostics, Diagnostic.isApart, Diagnostic.lineless, h]

/-- Before the first construct of a file, the strings are reported that are left open. -/
theorem reports_opening (file : Path) (content : String) :
    reports [.lateTemplateMark] file (opening file content) =
      List.replicate (unclosedLines content).length ⟨file.text, 0, .unclosedString⟩ := by
  rw [reports, diagnostics_opening, List.filter_map, List.map_map]
  simp [Diagnostic.isApart, Diagnostic.lineless, Function.comp_def]

/-- The strings that are left open may be left out together with what else is. -/
theorem reports_opening_append (file : Path) (content : String) (j : Journal) :
    reports [.unclosedString, .lateTemplateMark] file (opening file content ++ j) =
      (reports [.lateTemplateMark] file j).filter fun d => !d.isApart file [.unclosedString] := by
  rw [reports_cons, reports_append, reports_opening, List.filter_append, List.filter_replicate]
  simp [Diagnostic.isApart]

theorem calls_map_output (os : List Output) : calls (os.map .output) = [] := by
  rw [isView_calls.map_output, List.flatMap_eq_nil_iff]
  exact fun _ _ => rfl

theorem diagnostics_map_copy (file : Path) (ts : List Token) :
    diagnostics file ((ts.map Output.copy).map .output) = [] := by
  rw [(isView_diagnostics file).map_output, List.flatMap_map, List.flatMap_eq_nil_iff]
  exact fun _ _ => rfl

/-- Two journals of a file differ in blanks, in the lines of the file, and in whether the mark of a template file is
late. -/
structure Respaced (file : Path) (j j' : Journal) : Prop where
  /-- The same is written but for blanks. -/
  text : unspaced (rendered (written file j')) = unspaced (rendered (written file j))
  /-- The same is reported. -/
  reports : reports [.lateTemplateMark] file j' = reports [.lateTemplateMark] file j
  /-- The provider is asked the same. -/
  calls : calls j' = calls j

namespace Respaced

variable {file : Path} {j j' k k' : Journal}

theorem refl (file : Path) (j : Journal) : Respaced file j j :=
  ⟨rfl, rfl, rfl⟩

theorem symm (h : Respaced file j j') : Respaced file j' j :=
  ⟨h.text.symm, h.reports.symm, h.calls.symm⟩

theorem append (h : Respaced file j j') (h' : Respaced file k k') : Respaced file (j ++ k) (j' ++ k') where
  text := by
    simp only [written_append, rendered, List.flatMap_append, unspaced_append]
    exact congrArg₂ _ h.text h'.text
  reports := by rw [reports_append, reports_append, h.reports, h'.reports]
  calls := by rw [calls_append, calls_append, h.calls, h'.calls]

/-- Nothing but tokens is put out. -/
theorem of_copies {ts ts' : List Token} (text : unspaced (rendered ts') = unspaced (rendered ts)) :
    Respaced file ((ts.map Output.copy).map .output) ((ts'.map Output.copy).map .output) where
  text := by
    rwa [written_map_output, written_map_output, writtenTokens_copy, writtenTokens_copy]
  reports := by rw [Journal.reports, Journal.reports, diagnostics_map_copy, diagnostics_map_copy]
  calls := by rw [calls_map_output, calls_map_output]

/-- Blanks may be others. -/
theorem of_blanks {ts ts' : List Token} (h : ∀ t ∈ ts, t.isBlank = true) (h' : ∀ t ∈ ts', t.isBlank = true)
    (clear : ∀ t ∈ ts, t.Clear) (clear' : ∀ t ∈ ts', t.Clear) :
    Respaced file ((ts.map Output.copy).map .output) ((ts'.map Output.copy).map .output) :=
  of_copies (by rw [unspaced_rendered_of_isBlank h clear, unspaced_rendered_of_isBlank h' clear'])

/-- A token may be on another line. -/
theorem of_word {t t' : Token} (h : t'.word = t.word) :
    Respaced file ([.copy t].map .output) ([.copy t'].map .output) := by
  have render : rendered [t'] = rendered [t] := by simp [rendered, Token.render_of_word h]
  have text : unspaced (rendered [t']) = unspaced (rendered [t]) := by rw [render]
  exact of_copies text

/-- A problem of the file may be on another line. -/
theorem problem (p : Problem) (l l' : Nat) : Respaced file [.problem p l] [.problem p l'] where
  text := rfl
  reports := by rw [reports_problem, reports_problem]
  calls := rfl

/-- A late mark of a template file is left out. -/
theorem lateMark (l : Nat) : Respaced file [] [.problem .lateTemplateMark l] where
  text := rfl
  reports := by rw [reports_problem, if_pos (List.mem_singleton_self _)]; rfl
  calls := rfl

section Opening

variable (h : Respaced file j j') (content content' : String)
include h

theorem calls_opening :
    Journal.calls (opening file content' ++ j') = Journal.calls (opening file content ++ j) := by
  rw [calls_append, calls_append, Journal.calls_opening, Journal.calls_opening, h.calls]

theorem woven_opening : unspaced (woven file (opening file content' ++ j')).text.toList =
    unspaced (woven file (opening file content ++ j)).text.toList := by
  rw [toList_text_woven, toList_text_woven, written_opening_append, written_opening_append]
  exact h.text

/-- Where equally many strings are left open, they are reported alike. -/
theorem reports_opening (equally : (unclosedLines content').length = (unclosedLines content).length) :
    Journal.reports [.lateTemplateMark] file (opening file content' ++ j') =
      Journal.reports [.lateTemplateMark] file (opening file content ++ j) := by
  rw [reports_append, reports_append, Journal.reports_opening, Journal.reports_opening, equally, h.reports]

theorem reports_opening_closed :
    Journal.reports [.unclosedString, .lateTemplateMark] file (opening file content' ++ j') =
      Journal.reports [.unclosedString, .lateTemplateMark] file (opening file content ++ j) := by
  rw [reports_opening_append, reports_opening_append, h.reports]

end Opening

end Respaced

end Journal

/-! ### Readings -/

/-- The same words are read from a file. -/
def respacing (file : Path) : Reader.Likeness where
  tokens t t' := t'.word = t.word
  cursors := Cursor.Respaced
  lines _ _ := True
  outputs os os' := Journal.Respaced file (os.map .output) (os'.map .output)
  kind := Token.kind_of_word
  text := Token.text_of_word
  lineOf _ := trivial
  under {c c'} h := by
    have under := h.under
    simp only [Cursor.view] at under
    cases hu : c.ahead.head? with
    | none =>
      rw [hu, Option.map_none, Option.map_eq_none_iff] at under
      rw [under]
      exact .none
    | some t =>
      rw [hu, Option.map_some, Option.map_eq_some_iff] at under
      obtain ⟨t', ht', word⟩ := under
      rw [ht']
      exact .some word
  line _ := trivial
  nextKind := Cursor.Respaced.nextKind
  cursors_advance := Cursor.Respaced.advance
  outputs_advance {c c'} h := by
    have ahead {c : Cursor} {t : Token} (ht : t ∈ (c.ahead.drop 1).takeWhile Token.isBlank) : t ∈ c.ahead :=
      List.mem_of_mem_drop (List.takeWhile_subset _ ht)
    have blank {c : Cursor} : ∀ t ∈ (c.ahead.drop 1).takeWhile Token.isBlank, t.isBlank = true :=
      List.all_eq_true.1 List.all_takeWhile
    exact .of_blanks blank blank (fun t ht => h.clear t (ahead ht)) fun t ht => h.clear' t (ahead ht)
  cursors_abandon := Cursor.Respaced.abandon
  output_nil := .refl file []
  output_append h h' := by
    rw [List.map_append, List.map_append]
    exact h.append h'
  output_copy := .of_word
  output_newline _ := ⟨rfl, rfl, rfl⟩
  output_problem p _ _ _ := .problem p _ _
  output_misread _ := ⟨rfl, rfl, rfl⟩
  output_lateMark {c c'} _ := by
    split <;> split
    · exact .problem .lateTemplateMark _ _
    · exact (Journal.Respaced.lateMark _).symm
    · exact .lateMark _
    · exact .refl file []

/-! ### Constructs -/

section Files

variable {provider : Provider σ} {base : σ} {provider' : Provider τ} {base' : τ}

variable (provider base provider' base') in
/-- The words of a file are the same, and all else is but for the stores. -/
def sameWords : Comparison σ τ where
  stores := ReachTwo provider base provider' base'
  scopes := Eq
  vertices := Eq
  V := Eq
  lines _ _ := True
  journals := Journal.Respaced
  supposed _ _ := True
  isSome := @Comparison.isSome_of_eq
  declare := @Comparison.declare_of_eq
  define := @Comparison.define_of_eq
  refl := .refl
  append := .append
  problem _ p _ _ _ := .problem p _ _
  abandon _ _ _ _ := ⟨rfl, rfl, rfl⟩
  supposed_left _ := trivial
  supposed_right _ _ := trivial

variable (two : PureTwo provider base provider' base') {r : FileRequest}
  (others : ∀ path, path ≠ r.path → SameText provider base provider' base' path)
include two others

omit two in
/-- A file is being expanded while those are that it opens, so it is not loaded for them, and all others have the same
texts. -/
theorem sameText_of_loads {depth : Nat} {s : FileState σ} {m : Manner} {path : Path}
    (admits : (r.context provider (expandFile provider depth)).Admits s m path) :
    let q := (r.context provider (expandFile provider depth)).order s m path
    ∀ other ∈ Journal.loads (expandFile provider depth q s.store).journal,
      SameText provider base provider' base' other := by
  intro q other loaded
  have active : r.path ∈ q.chain.active := by
    rw [FileContext.order_active]
    exact List.mem_append_right _ (List.mem_singleton_self r.path)
  refine others other ?_
  rintro rfl
  rcases loads_inactive provider depth q s.store r.path loaded with heq | hn
  · rw [FileContext.order_path] at heq
    exact admits.inactive (heq ▸ List.mem_append_right _ (List.mem_singleton_self r.path))
  · exact hn active

/-- The files that a file opens are expanded alike. -/
theorem lockstep_sameWords (depth : Nat) :
    Lockstep (sameWords provider base provider' base') (r.context provider (expandFile provider depth))
      (r.context provider' (expandFile provider' depth)) where
  path := rfl
  active := rfl
  resolve := two.resolve_eq
  expand := by
    intro s s' m path hs admits q q' e e' _
    have scope : s.scope = s'.scope := hs.scope
    have vertex : s.vertex = s'.vertex := hs.vertex
    have order : q' = q := by
      cases m with
      | included => simp [q, q', FileContext.order, FileRequest.context, scope, hs.visited]
      | linked => simp [q, q', FileContext.order, FileRequest.context, scope]
    obtain ⟨result, journal⟩ := expandFile_of_loads two hs.store depth q (sameText_of_loads others admits)
    have result : e'.result = e.result := by simp only [e', order]; exact result
    have journal : e'.journal = e.journal := by simp only [e', order]; exact journal
    have store : ReachTwo provider base provider' base' e.store e'.store := hs.store.expandFile depth q q'
    have scopes : s.scope.merge e.result.scope = s'.scope.merge e'.result.scope := by rw [scope, result]
    have vertices : (s.vertex <|> e.result.vertex) = (s'.vertex <|> e'.result.vertex) := by rw [vertex, result]
    refine ⟨⟨?_, by rw [result, journal, order]; exact .refl _ _⟩, by rw [result]⟩
    cases m with
    | included => exact ⟨store, scopes, congrArg (·.chain.visited) result, vertices⟩
    | linked => exact ⟨store, scopes, hs.visited, congrArg FileResult.vertex result.symm⟩

omit two others in
/-- The blanks before a construct are copied. -/
theorem walk_of_blanks (ctx : FileContext σ) (s : FileState σ) (c : Cursor) :
    let blanks := c.ahead.takeWhile Token.isBlank
    let more := ctx.walk s (c.skip blanks.length)
    ctx.walk s c = (more.1, (blanks.map Output.copy).map .output ++ more.2) := by
  intro blanks more
  have plain : ∀ t ∈ blanks, t.role = .plain := fun t ht =>
    Token.role_of_isBlank (List.all_eq_true.1 List.all_takeWhile t ht)
  have leads := ctx.leads_of_transcript (.of_plain s.scope plain) s c (c.ahead.dropWhile Token.isBlank) rfl
    List.takeWhile_append_dropWhile.symm
  exact leads.walk_eq

/-- A construct is told by the words from its first token on. -/
theorem finish_of_words (depth : Nat) {s : FileState σ} {s' : FileState τ}
    (hs : (sameWords provider base provider' base').States s s') {c c' : Cursor} {t t' : Token} {ts ts' : List Token}
    (ahead : c.ahead = t :: ts) (ahead' : c'.ahead = t' :: ts') (word : t'.word = t.word) (same : words ts' = words ts)
    (clear : ∀ t ∈ c.ahead, t.Clear) (clear' : ∀ t ∈ c'.ahead, t.Clear) :
    let ctx := r.context provider (expandFile provider depth)
    let ctx' := r.context provider' (expandFile provider' depth)
    (sameWords provider base provider' base').Runs r.path (ctx.finish s c (ctx.read s c))
        (ctx'.finish s' c' (ctx'.read s' c')) ∧
      words (c'.skip ((ctx'.read s' c').steps + 1)).ahead = words (c.skip ((ctx.read s c).steps + 1)).ahead := by
  intro ctx ctx'
  have upcoming : c'.view.upcoming.map Token.word = c.view.upcoming.map Token.word := by
    simp only [Cursor.view, ahead, ahead', List.drop_one, List.tail_cons]
    exact same
  have seen : c.Respaced c' := ⟨by simp [Cursor.view, ahead, ahead', word], upcoming, clear, clear'⟩
  have types : s.scope.structs.Like Eq s'.scope.structs := by
    have scope : s.scope = s'.scope := hs.scope
    rw [← scope]
    exact .refl (fun _ => rfl) _
  obtain ⟨value, output, ended⟩ :=
    (respacing r.path).kept_construct (fun _ => rfl) types r.path r.standsAlone c c' seen
  have lockstep : Lockstep (sameWords provider base provider' base') ctx ctx' := lockstep_sameWords two others depth
  refine ⟨lockstep.finish hs value output trivial trivial, ?_⟩
  have upcoming : words ((c'.skip (ctx'.read s' c').steps).ahead.drop 1) =
      words ((c.skip (ctx.read s c).steps).ahead.drop 1) := ended.upcoming
  rwa [Cursor.ahead_skip, Cursor.ahead_skip, List.drop_drop, List.drop_drop] at upcoming

/-- **The words of a file tell what is done with it.** -/
theorem walk_of_words (depth : Nat) :
    let ctx := r.context provider (expandFile provider depth)
    let ctx' := r.context provider' (expandFile provider' depth)
    ∀ (s : FileState σ) (s' : FileState τ) (c c' : Cursor), (sameWords provider base provider' base').States s s' →
      words c'.ahead = words c.ahead → (∀ t ∈ c.ahead, t.Clear) → (∀ t ∈ c'.ahead, t.Clear) →
      (sameWords provider base provider' base').Runs r.path (ctx.walk s c) (ctx'.walk s' c') := by
  intro ctx ctx' s s' c
  induction hn : c.ahead.length using Nat.strong_induction_on generalizing s s' c with
  | _ n ih =>
    intro c' hs same clear clear'
    have blank {c : Cursor} : ∀ t ∈ c.ahead.takeWhile Token.isBlank, t.isBlank = true :=
      List.all_eq_true.1 List.all_takeWhile
    rw [walk_of_blanks ctx s c, walk_of_blanks ctx' s' c']
    refine .after (.of_blanks blank blank (fun t ht => clear t (List.takeWhile_subset _ ht))
      fun t ht => clear' t (List.takeWhile_subset _ ht)) ?_
    -- past the blanks both are at their ends, or at tokens of one word
    obtain ⟨d, hd⟩ : ∃ d, c.skip (c.ahead.takeWhile Token.isBlank).length = d := ⟨_, rfl⟩
    obtain ⟨d', hd'⟩ : ∃ d', c'.skip (c'.ahead.takeWhile Token.isBlank).length = d' := ⟨_, rfl⟩
    rw [hd, hd']
    have ahead : d.ahead = c.ahead.dropWhile Token.isBlank := hd ▸ drop_length_takeWhile _ _
    have ahead' : d'.ahead = c'.ahead.dropWhile Token.isBlank := hd' ▸ drop_length_takeWhile _ _
    cases hw : words c.ahead with
    | nil =>
      rw [dropWhile_of_words_nil hw] at ahead
      rw [dropWhile_of_words_nil (same.trans hw)] at ahead'
      rw [ctx.walk_of_end ahead, ctx'.walk_of_end ahead']
      exact hs.still []
    | cons w ws =>
      obtain ⟨t, ts, first, word, rest⟩ := dropWhile_of_words_cons hw
      obtain ⟨t', ts', first', word', rest'⟩ := dropWhile_of_words_cons (same.trans hw)
      rw [first] at ahead
      rw [first'] at ahead'
      have left : d.ahead ⊆ c.ahead := by
        rw [← hd]
        exact List.drop_subset _ _
      have left' : d'.ahead ⊆ c'.ahead := by
        rw [← hd']
        exact List.drop_subset _ _
      obtain ⟨one, same⟩ := finish_of_words two others depth hs ahead ahead' (word'.trans word.symm)
        (rest'.trans rest.symm) (fun t ht => clear t (left ht)) fun t ht => clear' t (left' ht)
      have shorter : (d.skip ((ctx.read s d).steps + 1)).ahead.length < n := by
        have : d.ahead.length ≤ c.ahead.length := by
          rw [← hd, Cursor.ahead_skip, List.length_drop]
          omega
        have : 0 < d.ahead.length := by simp [ahead]
        rw [Cursor.ahead_skip, List.length_drop]
        omega
      have more := ih _ shorter _ _ _ rfl _ one.state same
        (fun t ht => clear t (left (List.mem_of_mem_drop ht))) fun t ht => clear' t (left' (List.mem_of_mem_drop ht))
      simp only [ctx.walk_of_ahead (by simp [ahead] : d.ahead ≠ []),
        ctx'.walk_of_ahead (by simp [ahead'] : d'.ahead ≠ [])]
      exact .after one.journal more

/-- **Blanks separate tokens and mean nothing else.** Two pure providers resolve paths alike and agree on all files but
one, whose two texts have the same words. Then the expansions of that file declare the same, include the same files, ask
the provider the same, and weave the same text but for its blanks. They report the same but for the lines in the file,
for marks of template files that are late, and for strings that are left open; where equally many are left open, these
are reported alike as well. -/
theorem expandFile_of_words (depth : Nat) {content content' : String}
    (loaded : (provider.load base r.path).1 = .ok content) (loaded' : (provider'.load base' r.path).1 = .ok content')
    (same : words (lex content') = words (lex content)) :
    let e := expandFile provider depth r base
    let e' := expandFile provider' depth r base'
    e'.result.scope = e.result.scope ∧ e'.result.chain = e.result.chain ∧
      Journal.calls e'.journal = Journal.calls e.journal ∧
      Journal.reports [.unclosedString, .lateTemplateMark] r.path e'.journal =
        Journal.reports [.unclosedString, .lateTemplateMark] r.path e.journal ∧
      ((unclosedLines content').length = (unclosedLines content).length →
        Journal.reports [.lateTemplateMark] r.path e'.journal = Journal.reports [.lateTemplateMark] r.path e.journal) ∧
      unspaced (Journal.woven r.path e'.journal).text.toList =
        unspaced (Journal.woven r.path e.journal).text.toList ∧
      e'.result.vertex.map (fun w => unspaced w.text.toList) =
        e.result.vertex.map fun w => unspaced w.text.toList := by
  intro e e'
  cases depth with
  | zero => exact ⟨rfl, rfl, rfl, rfl, fun _ => rfl, rfl, rfl⟩
  | succ depth =>
    cases hn : r.path.namesFile with
    | false =>
      have unread : e = _ := openFile_of_nameless provider (expandFile provider depth) base hn
      have unread' : e' = _ := openFile_of_nameless provider' (expandFile provider' depth) base' hn
      rw [unread, unread']
      exact ⟨rfl, rfl, rfl, rfl, fun _ => rfl, rfl, rfl⟩
    | true =>
      have read : e = _ := openFile_of_loaded provider (expandFile provider depth) hn loaded
      have read' : e' = _ := openFile_of_loaded provider' (expandFile provider' depth) hn loaded'
      have start : (sameWords provider base provider' base').States (r.initial (provider.load base r.path).2)
          (r.initial (provider'.load base' r.path).2) :=
        ⟨ReachTwo.load ⟨.refl, .refl⟩ r.path, rfl, rfl, rfl⟩
      have body := walk_of_words two others depth _ _ (.start (lex content)) (.start (lex content')) start same
        (fun _ => clear_of_mem_lex) fun _ => clear_of_mem_lex
      simp only [read, read', FileRequest.conclude]
      generalize (r.context provider (expandFile provider depth)).walk _ _ = x at body ⊢
      generalize (r.context provider' (expandFile provider' depth)).walk _ _ = x' at body ⊢
      have scope : x.1.scope = x'.1.scope := body.state.scope
      have vertex : x.1.vertex = x'.1.vertex := body.state.vertex
      have text := body.journal.woven_opening content content'
      refine ⟨scope.symm, by rw [body.state.visited], body.journal.calls_opening content content',
        body.journal.reports_opening_closed content content', body.journal.reports_opening content content', text, ?_⟩
      split
      · exact congrArg some text
      · rw [vertex]

end Files

/-! ### Strings that are left open -/

theorem pureTwo_soleFile (content content' : String) :
    PureTwo MemoryFiles.provider (soleFile content) MemoryFiles.provider (soleFile content') :=
  ⟨(MemoryFiles.settled_empty.put _ _).isPure, (MemoryFiles.settled_empty.put _ _).isPure, fun _ => rfl⟩

theorem load_soleFile (content : String) :
    (MemoryFiles.provider.load (soleFile content) ⟨"a.glsl"⟩).1 = .ok content := by
  have versions : (soleFile content).versions["a.glsl"]? = some [some content] := by
    rw [soleFile, MemoryFiles.put, Std.ExtTreeMap.getElem?_insert_self]
  simp [MemoryFiles.provider, MemoryFiles.load, versions, MemoryFiles.contentOf]

theorem sameText_soleFile (content content' : String) {path : Path} (h : path ≠ ⟨"a.glsl"⟩) :
    SameText MemoryFiles.provider (soleFile content) MemoryFiles.provider (soleFile content') path := by
  have other : path.text ≠ "a.glsl" := fun text => h (by cases path; cases text; rfl)
  have missing (content : String) : (soleFile content).versions[path.text]? = none := by
    rw [soleFile, MemoryFiles.put, Std.ExtTreeMap.getElem?_insert, if_neg]
    · rfl
    · rwa [Std.LawfulEqCmp.compare_eq_iff_eq, eq_comm]
  simp [SameText, MemoryFiles.provider, MemoryFiles.load, missing]

/-- A file that is written with few blanks and with many. -/
theorem expandFile_of_words_spread :
    let provider := MemoryFiles.provider
    let tight := "struct S\x7bint i;\x7d;uniform vec2 p=(1,2);uniform T t;"
    let spread := "struct S\n\x7b\tint i ;\n\x7d ;\n\nuniform vec2 p = ( 1, 2 );\n uniform\nT t;\n"
    let r : FileRequest := ⟨⟨"a.glsl"⟩, false, .empty, .empty⟩
    let e := expandFile provider 1 r (soleFile tight)
    let e' := expandFile provider 1 r (soleFile spread)
    PureTwo provider (soleFile tight) provider (soleFile spread) ∧ words (lex spread) = words (lex tight) ∧
      e'.result.scope = e.result.scope ∧
      Journal.reports [.lateTemplateMark] r.path e'.journal = [⟨"a.glsl", 0, .unknownType "T"⟩] ∧
      unspaced (Journal.woven r.path e'.journal).text.toList = "structS\x7binti;\x7d;uniformvec2p;uniform".toList := by
  intro provider tight spread r e e'
  have two : PureTwo provider (soleFile tight) provider (soleFile spread) := pureTwo_soleFile tight spread
  have same : words (lex spread) = words (lex tight) := by decide +kernel
  have closed : (unclosedLines spread).length = (unclosedLines tight).length := by decide +kernel
  have others : ∀ path, path ≠ r.path → SameText provider (soleFile tight) provider (soleFile spread) path :=
    fun _ => sameText_soleFile tight spread
  obtain ⟨scope, -, -, -, reports, text, -⟩ :=
    expandFile_of_words two others 1 (load_soleFile tight) (load_soleFile spread) same
  exact ⟨two, same, scope, (reports closed).trans (by decide +kernel), text.trans (by decide +kernel)⟩

/-- A string that is left open has the same word as one that is closed at the end of the line, but it is reported. -/
theorem reports_of_open :
    let provider := MemoryFiles.provider
    let isOpen := "\"a\n"
    let closed := "\"a\"\n"
    let r : FileRequest := ⟨⟨"a.glsl"⟩, false, .empty, .empty⟩
    PureTwo provider (soleFile isOpen) provider (soleFile closed) ∧
      (∀ path, path ≠ r.path → SameText provider (soleFile isOpen) provider (soleFile closed) path) ∧
      (provider.load (soleFile isOpen) r.path).1 = .ok isOpen ∧
      (provider.load (soleFile closed) r.path).1 = .ok closed ∧ words (lex closed) = words (lex isOpen) ∧
      Journal.reports [.lateTemplateMark] r.path (expandFile provider 1 r (soleFile closed)).journal ≠
        Journal.reports [.lateTemplateMark] r.path (expandFile provider 1 r (soleFile isOpen)).journal := by
  intro provider isOpen closed r
  exact ⟨pureTwo_soleFile isOpen closed, fun _ => sameText_soleFile isOpen closed, load_soleFile isOpen,
    load_soleFile closed, by decide +kernel, by decide +kernel⟩

end ShaderWeave
