import ShaderWeave.Proofs.Expansion.Linking
import ShaderWeave.Proofs.Expansion.Rereading
import ShaderWeave.Proofs.Expansion.Warnings
import ShaderWeave.Proofs.Lexing.Directives
import ShaderWeave.Provider.Memory

/-!
# Directives of a program

What is written of a file are its tokens without the requests, and the tokens of the included files in their places
(`Spliced`). So two tokens of a file meet that did not stand next to each other, and a directive may go on into the text
of another file, or into what follows a request. Where that makes a directive that is handled, nobody handles it.

This takes three tokens in a row: the beginning of such a directive, a request, and its path without a blank before it.
A text is `Separate` if it has none of these. The main result, `not_isHandled_of_isValid`, says that a valid program
that is put together from such texts has no directive in its output that is handled.
-/

namespace ShaderWeave

variable {σ : Type}

/-! ### Tokens that start requests -/

namespace Token

theorem isOwn_iff {t : Token} : t.IsOwn ↔ ¬ t.IsHandled := by
  simp only [IsOwn, IsHandled, role, handledDirectives, List.mem_cons, List.not_mem_nil, or_false]
  split_ifs <;> simp_all

/-- A directive that asks for no file stands for itself. -/
theorem role_of_directive {t : Token} (hk : t.kind = .directive) (ho : t.IsOwn) : t.role = .plain := by
  rcases ho with hr | hr | hr
  · exact hr
  all_goals
    rw [role, if_pos hk] at hr
    split_ifs at hr

end Token

/-! ### Requests that stand apart -/

/-- No beginning of a directive that is handled stands right before a request without a blank before its path. -/
def Separate : List Token → Prop
  | t :: u :: v :: ts => ¬ (t.IsStub ∧ u.IsHandled ∧ v.kind = .string) ∧ Separate (u :: v :: ts)
  | _ => True

instance decidableSeparate : DecidablePred Separate
  | [] | [_] | [_, _] => .isTrue trivial
  | t :: u :: v :: ts =>
    have := decidableSeparate (u :: v :: ts)
    inferInstanceAs (Decidable (¬ (t.IsStub ∧ u.IsHandled ∧ v.kind = .string) ∧ Separate (u :: v :: ts)))

theorem Separate.of_cons {t : Token} {ts : List Token} (h : Separate (t :: ts)) : Separate ts := by
  match ts with
  | [] | [_] => trivial
  | _ :: _ :: _ => exact h.2

/-- After the beginning of a directive that is handled, a request has a blank before its path. -/
theorem Separate.kind_ne_string {t u v : Token} {ts : List Token} (h : Separate (t :: u :: v :: ts)) (ht : t.IsStub)
    (hu : u.IsHandled) : v.kind ≠ .string :=
  fun hv => h.1 ⟨ht, hu, hv⟩

/-- What the tokens from some construct of a file on are like, where its strings are closed and its requests stand
apart. -/
structure FileEnd (ts : List Token) : Prop where
  /-- No token goes on into the next one. -/
  legible : Legible ts
  /-- Requests stand apart. -/
  separate : Separate ts
  /-- The last token is the newline at the end of a line. -/
  blank : ∀ t ∈ ts.getLast?, t.isBlank = true

namespace FileEnd

variable {ts us : List Token}

theorem of_cons {t : Token} (h : FileEnd (t :: ts)) : FileEnd ts where
  legible := h.legible.drop 1
  separate := h.separate.of_cons
  blank u hu := by
    refine h.blank u ?_
    cases ts with
    | nil => simp at hu
    | cons v ts => rwa [List.getLast?_cons_cons]

theorem of_append (h : FileEnd (ts ++ us)) : FileEnd us := by
  induction ts with
  | nil => exact h
  | cons t ts ih => exact ih h.of_cons

end FileEnd

/-- The tokens of a text end with a newline. -/
theorem isBlank_of_getLast?_lex (text : String) : ∀ t ∈ (lex text).getLast?, t.isBlank = true := by
  rw [lex]
  induction numberedLines text with
  | nil => simp
  | cons line lines ih =>
    intro t ht
    rw [List.flatMap_cons, List.getLast?_append] at ht
    cases h : (lines.flatMap fun line => lineTokens line.1 line.2).getLast? with
    | some u =>
      rw [h] at ht ih
      exact ih t ht
    | none =>
      rw [h, Option.none_or, lineTokens, List.getLast?_concat] at ht
      exact Option.some.inj ht ▸ isBlank_newline line.2

/-! ### What is written of a file -/

/-- The second tokens are what is written for the first, from some construct of a file on. The flag says whether this is
the first construct of the file. -/
inductive Spliced : Bool → List Token → List Token → Prop
  /-- Nothing is left. -/
  | nil {start : Bool} : Spliced start [] []
  /-- A token alone is copied. -/
  | plain {start : Bool} {t : Token} {ts us : List Token} (ht : ¬ t.IsHandled) (h : Spliced false ts us) :
    Spliced start (t :: ts) (t :: us)
  /-- A longer construct that asks for no file is copied in part. -/
  | phrase {start : Bool} {t : Token} {raw kept ts us : List Token} (proper : ∀ u ∈ t :: kept, u.Proper)
    (kind : ∀ u ∈ t :: kept, u.kind ≠ .directive) (h : Spliced false ts us) :
    Spliced start (t :: raw ++ ts) (t :: kept ++ us)
  /-- A request is left out but for its blanks, and firm tokens may be written in its place. -/
  | request {start : Bool} {t s : Token} {blanks inner ts us : List Token} (ht : t.IsHandled)
    (blank : ∀ b ∈ blanks, b.isBlank = true) (hs : s.kind = .string) (firm : Firm inner) (h : Spliced false ts us) :
    Spliced start (t :: (blanks ++ s :: ts)) (blanks ++ inner ++ us)
  /-- The mark of a template file stands first and is left out. -/
  | mark {t : Token} {ts us : List Token} (h : Spliced false ts us) : Spliced true (t :: ts) us

namespace Spliced

variable {ts us : List Token}

/-- What is written first is the first token or a blank, unless that is a request without a blank before its path. -/
theorem exists_head {t : Token} (h : Spliced false (t :: ts) us) (hp : ∀ u ∈ t :: ts, u.Proper)
    (hs : t.IsHandled → ∀ v ∈ ts.head?, v.kind ≠ .string) :
    ∃ u us', us = u :: us' ∧ (u = t ∨ u.Proper ∧ u.isBlank = true) := by
  cases h with
  | plain => exact ⟨t, _, rfl, .inl rfl⟩
  | phrase => exact ⟨t, _, rfl, .inl rfl⟩
  | @request _ _ s blanks inner ts us ht blank string =>
    cases blanks with
    | nil => exact absurd string (hs ht s rfl)
    | cons b bs => exact ⟨b, _, rfl, .inr ⟨hp b (by simp), blank b List.mem_cons_self⟩⟩

/-- After the beginning of a directive that is handled, what is written next does not begin with a letter. -/
theorem exists_ends {t : Token} (h : Spliced false ts us) (hf : FileEnd (t :: ts)) (stub : t.IsStub) :
    ∃ u us', us = u :: us' ∧ Ends isLetter u.render.toList := by
  have solid : t.isBlank = false := by simp [Token.isBlank, stub.1]
  cases ts with
  | nil => exact absurd (hf.blank t rfl) (by simp [solid])
  | cons v ts =>
    obtain ⟨u, us', rfl, hu⟩ := h.exists_head hf.of_cons.legible.proper fun handled w hw => by
      obtain ⟨ts, rfl⟩ := List.head?_eq_some_iff.1 hw
      exact hf.separate.kind_ne_string stub handled
    refine ⟨u, us', rfl, ?_⟩
    rcases hu with rfl | ⟨proper, blank⟩
    · cases hf.legible with
      | cons _ apart => exact (apart u rfl solid).ends_of_directive stub.1
    · intro c hc
      rw [Token.toList_render_of_isBlank blank] at hc
      have := (proper.blank blank).2 c (List.mem_of_mem_head? hc)
      obtain rfl | rfl | rfl := isBlank_iff.1 this <;> decide

/-- **What is written of a file with requests that stand apart has no directive that is handled.** -/
theorem firm {start : Bool} (h : Spliced start ts us) (hf : FileEnd ts) : Firm us := by
  induction h with
  | nil => exact .nil
  | plain ht h ih => exact .cons (hf.legible.proper _ List.mem_cons_self) ht (h.exists_ends hf) (ih hf.of_cons)
  | phrase proper kind _ ih => exact (Firm.of_kind_ne_directive proper kind).append (ih hf.of_append)
  | @request _ t s blanks inner ts us ht blank string firm _ ih =>
    have kind := kind_ne_directive_of_blanks blank
    have proper : ∀ b ∈ blanks, b.Proper := fun b hb => hf.legible.proper b (by simp [hb])
    have rest : FileEnd ts := (hf.of_cons.of_append : FileEnd (s :: ts)).of_cons
    exact ((Firm.of_kind_ne_directive proper kind).append firm).append (ih rest)
  | mark _ ih => exact ih hf.of_cons

end Spliced

/-! ### Longer constructs -/

section Kept

variable {types : Structs}

/-- What is kept of a declaration has no directive. -/
theorem kind_ne_directive_of_mem_keep {raw : List Token} {stop : Token} {v : Variable}
    (h : Phrase.Declaration types (significant (raw ++ [stop])) v []) : ∀ u ∈ keep 2 raw, u.kind ≠ .directive := by
  refine kind_ne_directive_of_significant fun u hu => h.kind_ne_directive u ?_
  rw [significant_keep] at hu
  rw [significant_append]
  exact List.mem_append_left _ (List.mem_of_mem_take hu)

theorem Reader.Fields.kind_ne_directive_of_kept {raw kept : List Token} {vs : List Variable}
    (h : Fields types raw vs kept) : ∀ u ∈ kept, u.kind ≠ .directive := by
  induction h with
  | nil => simp
  | cons hs h _ ih =>
    exact List.forall_mem_append.2 ⟨kind_ne_directive_of_mem_keep h, List.forall_mem_cons.2 ⟨by simp [hs], ih⟩⟩

theorem Reader.Definition.kind_ne_directive_of_kept {raw kept : List Token} {name : String} {vs : List Variable}
    {stop : Token} (h : Definition types raw name vs stop kept) : ∀ u ∈ kept, u.kind ≠ .directive := by
  obtain ⟨h₁, hn, h₂, ho, fields, h₃, hc, h₄, hs⟩ := h
  simp only [List.forall_mem_append, List.forall_mem_cons]
  exact ⟨kind_ne_directive_of_blanks h₁, by simp [hn], kind_ne_directive_of_blanks h₂, by simp [ho],
    fields.kind_ne_directive_of_kept, kind_ne_directive_of_blanks h₃, by simp [hc], kind_ne_directive_of_blanks h₄,
    by simp [hs]⟩

/-- What is written of a construct that asks for no file. -/
theorem Excerpt.spliced {start : Bool} {raw ts us : List Token} {action : Action} {out : List Output}
    (h : Excerpt types raw action out) (hl : Legible (raw ++ ts)) (hs : Spliced false ts us) :
    Spliced start (raw ++ ts) (writtenTokens out ++ us) := by
  have trimmed := h.trimmed (Trimmed.append_left ts .nil)
  rw [List.append_nil] at trimmed
  have proper := fun u hu => (trimmed.legible hl).proper u (List.mem_append_left _ hu)
  have word {t : Token} (ho : t.IsOwn) (hr : t.role ≠ .plain) : t.kind ≠ .directive :=
    fun hk => hr (Token.role_of_directive hk ho)
  cases h with
  | plain hr => exact .plain (Token.isOwn_iff.1 (.inl hr)) hs
  | @uniform t stop raw v hr semicolon phrase =>
    rw [writtenTokens_copy] at proper ⊢
    refine .phrase proper (List.forall_mem_cons.2 ⟨word (.inr (.inr hr)) (by simp [hr]), ?_⟩) hs
    exact List.forall_mem_append.2
      ⟨kind_ne_directive_of_mem_keep phrase, List.forall_mem_singleton.2 (by simp [semicolon])⟩
  | @struct t stop raw kept name fields hr definition =>
    rw [writtenTokens_append, writtenTokens_copy] at proper ⊢
    refine .phrase proper (List.forall_mem_cons.2 ⟨word (.inr (.inl hr)) (by simp [hr]), ?_⟩) hs
    refine List.forall_mem_append.2 ⟨definition.kind_ne_directive_of_kept, ?_⟩
    exact List.forall_mem_singleton.2 (Token.kind_ne_directive_of_isBlank (isBlank_newline stop.line))

end Kept

/-! ### Journals without a problem -/

mutual

/-- The texts that an entry loads. -/
def Entry.texts : Entry → List String
  | .load _ (.ok text) => [text]
  | .expand _ _ _ body => Journal.texts body
  | _ => []

/-- The texts that are loaded, of the file and of all files it opened. -/
def Journal.texts : List Entry → List String
  | [] => []
  | e :: j => Entry.texts e ++ Journal.texts j

end

theorem Journal.isView_texts : IsView texts Entry.texts :=
  ⟨rfl, fun _ _ => rfl⟩

@[simp] theorem Journal.texts_append (j k : Journal) : texts (j ++ k) = texts j ++ texts k :=
  isView_texts.append j k

/-- Nothing is reported, and in all texts that are loaded requests stand apart. -/
structure Journal.Tidy (file : Path) (j : Journal) : Prop where
  /-- Nothing is reported. -/
  clean : diagnostics file j = []
  /-- Requests stand apart. -/
  separate : ∀ text ∈ texts j, Separate (lex text)

namespace Journal.Tidy

variable {file : Path} {j k : Journal}

theorem of_append (h : Tidy file (j ++ k)) : Tidy file j ∧ Tidy file k := by
  obtain ⟨clean, separate⟩ := h
  rw [diagnostics_append, List.append_eq_nil_iff] at clean
  rw [texts_append, List.forall_mem_append] at separate
  exact ⟨⟨clean.1, separate.1⟩, ⟨clean.2, separate.2⟩⟩

theorem of_cons {e : Entry} (h : Tidy file (e :: j)) : Tidy file j :=
  (of_append (j := [e]) h).2

/-- A file that is opened without a problem has none itself. -/
theorem of_expand {m : Manner} {q : FileRequest} {result : FileResult} {body : Journal}
    (h : Tidy file (.expand m q result body :: j)) : Tidy q.path body where
  clean := (List.append_eq_nil_iff.1 h.clean).1
  separate text ht := h.separate text (List.mem_append_left _ ht)

end Journal.Tidy

/-- An included file is written in its place. -/
theorem Journal.written_included (file : Path) (q : FileRequest) (result : FileResult) (body j : Journal) :
    written file (.expand .included q result body :: j) = written q.path body ++ written file j :=
  written_append file [.expand .included q result body] j |>.trans (by simp [written, emissions, Entry.emissions])

/-- The text is that of firm tokens. -/
def Weave.IsFirm (w : Weave) : Prop :=
  ∃ ts, Firm ts ∧ w.text.toList = rendered ts

/-- What a file writes is firm, and so is the vertex shader that it hands back. -/
structure Expansion.IsFirm (path : Path) (e : Expansion σ) : Prop where
  /-- The tokens that are written are firm. -/
  written : Firm (Journal.written path e.journal)
  /-- The vertex shader is firm. -/
  vertex : ∀ w ∈ e.result.vertex, w.IsFirm

/-- Files that are opened without a problem write firm tokens. -/
def WriteFirm (nested : FileRequest → σ → Expansion σ) : Prop :=
  ∀ (q : FileRequest) (store : σ), Journal.Tidy q.path (nested q store).journal → (nested q store).IsFirm q.path

namespace FileContext

variable {ctx : FileContext σ} {s : FileState σ} {c : Cursor}

/-- After a step without a problem, what it has written is firm, and so is the vertex shader. -/
def Keeps (ctx : FileContext σ) (done : FileState σ × Journal) : Prop :=
  Journal.Tidy ctx.path done.2 → Firm (Journal.written ctx.path done.2) ∧ ∀ w ∈ done.1.vertex, w.IsFirm

theorem includePath_keeps (hn : WriteFirm ctx.nested) (hv : ∀ w ∈ s.vertex, w.IsFirm) (path : Path) (line : Nat) :
    ctx.Keeps (ctx.includePath path line s) := by
  by_cases visited : path ∈ s.visited
  · rw [includePath, if_pos visited]
    exact fun _ => ⟨.nil, hv⟩
  by_cases active : path ∈ ctx.active
  · rw [includePath, if_neg visited, if_pos active]
    exact fun _ => ⟨.nil, hv⟩
  · rw [ctx.includePath_of_fresh visited active]
    intro tidy
    have inner := hn _ _ tidy.of_expand
    refine ⟨?_, fun w hw => ?_⟩
    · dsimp only
      rw [Journal.written_included]
      refine inner.written.append ?_
      split <;> exact .nil
    · simp only [FileState.adopt, Option.orElse_eq_orElse, Option.orElse_eq_or, Option.mem_def,
        Option.or_eq_some_iff] at hw
      rcases hw with hw | ⟨-, hw⟩
      · exact hv w hw
      · exact inner.vertex w hw

theorem linkPath_keeps (hn : WriteFirm ctx.nested) (hv : ∀ w ∈ s.vertex, w.IsFirm) (path : Path) (line : Nat) :
    ctx.Keeps (ctx.linkPath path line s) := by
  intro tidy
  refine ⟨ctx.written_linkPath path line s ▸ .nil, ?_⟩
  by_cases active : path ∈ ctx.active
  · rw [ctx.linkPath_of_active active]
    exact hv
  · rw [ctx.linkPath_of_inactive active] at tidy ⊢
    exact (hn _ _ tidy.of_append.2.of_expand).vertex

theorem openRequest_keeps (hn : WriteFirm ctx.nested) (hv : ∀ w ∈ s.vertex, w.IsFirm) (m : Manner) (written : String)
    (line : Nat) : ctx.Keeps (ctx.openRequest m written line s) := by
  rw [openRequest]
  split
  · exact fun _ => ⟨.nil, hv⟩
  · cases ctx.provider.resolve s.store written with
    | error cause => exact fun _ => ⟨.nil, hv⟩
    | ok path =>
      cases m with
      | included => exact fun tidy => includePath_keeps hn hv path line tidy.of_cons
      | linked => exact fun tidy => linkPath_keeps hn hv path line tidy.of_cons

/-! ### Whole walks -/

/-- What a construct without a problem writes belongs to its tokens, whatever is written of the rest. -/
structure Splices (ctx : FileContext σ) (s : FileState σ) (c : Cursor) : Prop where
  /-- The vertex shader is firm. -/
  vertex : ∀ w ∈ (ctx.finish s c (ctx.read s c)).1.vertex, w.IsFirm
  /-- What is written continues what is written of the rest. -/
  spliced : ∀ us, Spliced false (c.skip ((ctx.read s c).steps + 1)).ahead us →
    Spliced (decide (c.index = 0)) c.ahead (Journal.written ctx.path (ctx.finish s c (ctx.read s c)).2 ++ us)

section Construct

variable {t : Token} {ts : List Token}

theorem splices_of_request (hn : WriteFirm ctx.nested) (hv : ∀ w ∈ s.vertex, w.IsFirm) (ahead : c.ahead = t :: ts)
    (ht : t.IsHandled) (tidy : Journal.Tidy ctx.path (ctx.finish s c (ctx.read s c)).2) {m : Manner} {expected : String}
    (read : ctx.read s c = Reader.request m expected c) : ctx.Splices s c := by
  have faults := ctx.faults_read_of_diagnostics tidy.clean
  rw [read] at faults
  obtain ⟨blanks, path, rest, meets, string⟩ := Reader.exists_meets_of_request faults
  have outcome : ctx.read s c = _ := read.trans (Reader.request_apply meets string)
  have finished : ctx.finish s c (ctx.read s c) = ((ctx.openRequest m path.text path.line s).1,
      (blanks.map .copy).map .output ++
        .request m path.text :: (ctx.openRequest m path.text path.line s).2) := by
    rw [outcome]
    rfl
  rw [finished] at tidy
  have keeps := openRequest_keeps hn hv m path.text path.line tidy.of_append.2.of_cons
  have split : c.ahead = t :: (blanks ++ path :: rest) := by
    rw [ahead, ← meets.split, ahead]
    rfl
  have left : (c.skip ((ctx.read s c).steps + 1)).ahead = rest := by
    rw [outcome, ← Cursor.skip_skip, Cursor.ahead_skip, Reader.ahead_skip_of_drop_one meets.split]
    rfl
  constructor
  · rw [finished]
    exact keeps.2
  · intro us hus
    rw [left] at hus
    have asked (j : Journal) : Journal.written ctx.path (.request m path.text :: j) = Journal.written ctx.path j := rfl
    rw [finished, split, Journal.written_append, Journal.written_map_output, writtenTokens_copy, asked]
    exact .request ht meets.blanks string keeps.1 hus

/-- **A construct without a problem is copied in part or left out, and firm tokens may be written in its place.** -/
theorem splices_of_clean (hn : WriteFirm ctx.nested) (hv : ∀ w ∈ s.vertex, w.IsFirm) (ahead : c.ahead = t :: ts)
    (legible : Legible c.ahead) (truthful : ∀ u ∈ c.ahead, u.Truthful)
    (tidy : Journal.Tidy ctx.path (ctx.finish s c (ctx.read s c)).2) : ctx.Splices s c := by
  have faults := ctx.faults_read_of_diagnostics tidy.clean
  by_cases own : t.IsOwn
  · obtain ⟨raw, rest, action, out, split, excerpt⟩ := Reader.exists_excerpt ahead truthful own faults
    have outcome : ctx.read s c = _ := read_of_excerpt excerpt split
    constructor
    · rw [outcome, finish_of_excerpt excerpt]
      exact hv
    · intro us hus
      rw [outcome, Nat.sub_add_cancel (List.length_pos_iff.2 excerpt.ne_nil), Cursor.ahead_skip, split,
        List.drop_left] at hus
      rw [outcome, finish_of_excerpt excerpt, Journal.written_map_output]
      rw [split] at legible ⊢
      exact excerpt.spliced legible hus
  · have handled : t.IsHandled := by_contra fun h => own (Token.isOwn_iff.2 h)
    cases role : t.role with
    | plain => exact absurd (.inl role) own
    | structDefinition => exact absurd (.inr (.inl role)) own
    | uniform => exact absurd (.inr (.inr role)) own
    | inclusion => exact splices_of_request hn hv ahead handled tidy (Reader.construct_of_inclusion ahead role)
    | vertexLink =>
      have read : ctx.read s c = _ := Reader.construct_of_vertexLink ahead role
      cases fragment : ctx.path.isFragment with
      | true =>
        rw [if_pos fragment] at read
        exact splices_of_request hn hv ahead handled tidy read
      | false =>
        rw [read, if_neg (by simp [fragment])] at faults
        exact absurd (Reader.faults_of_faults_bind faults) (Reader.faults_report_ne_nil _ _)
    | templateMark =>
      have read : ctx.read s c = _ := Reader.construct_of_templateMark ahead role
      rw [read] at faults
      obtain ⟨zero, filled⟩ := Reader.zero_of_faults_templateMark faults
      rw [filled, Reader.templateMark_of_zero zero] at read
      constructor
      · rw [read]
        exact hv
      · intro us hus
        rw [read, Cursor.ahead_skip, ahead] at hus
        rw [read, zero, ahead]
        exact .mark hus

end Construct

variable (ctx s c) in
/-- **What a file without a problem writes belongs to its tokens.** -/
theorem walk_spliced (hn : WriteFirm ctx.nested) (hv : ∀ w ∈ s.vertex, w.IsFirm) (legible : Legible c.ahead)
    (truthful : ∀ u ∈ c.ahead, u.Truthful) (tidy : Journal.Tidy ctx.path (ctx.walk s c).2) :
    Spliced (decide (c.index = 0)) c.ahead (Journal.written ctx.path (ctx.walk s c).2) ∧
      ∀ w ∈ (ctx.walk s c).1.vertex, w.IsFirm := by
  induction s, c using ctx.walk_induction with
  | done s c h =>
    rw [ctx.walk_of_end h, h]
    exact ⟨.nil, hv⟩
  | more s c h ih =>
    obtain ⟨t, ts, ahead⟩ := List.exists_cons_of_ne_nil h
    rw [ctx.walk_of_ahead h] at tidy ⊢
    obtain ⟨first, rest⟩ := tidy.of_append
    have splices := splices_of_clean hn hv ahead legible truthful first
    obtain ⟨spliced, vertex⟩ :=
      ih splices.vertex (legible.drop _) (fun u hu => truthful u (List.mem_of_mem_drop hu)) rest
    refine ⟨?_, vertex⟩
    dsimp only
    rw [Journal.written_append]
    exact splices.spliced _ (by simpa using spliced)

end FileContext

section Files

variable {provider : Provider σ}

/-- The first text that is loaded is that of the file. -/
theorem texts_opening (path : Path) (content : String) : Journal.texts (opening path content) = [content] :=
  view_opening Journal.texts_append (fun _ => rfl) (fun _ => rfl) path content

theorem conclude_isFirm {r : FileRequest} {s : FileState σ} {j : Journal} (firm : Firm (Journal.written r.path j))
    (hv : ∀ w ∈ s.vertex, w.IsFirm) : (r.conclude s j).IsFirm r.path where
  written := firm
  vertex w hw := by
    rw [FileRequest.conclude] at hw
    split at hw
    · obtain rfl := Option.some.inj hw
      exact ⟨_, firm, Journal.toList_text_woven r.path j⟩
    · exact hv w hw

/-- **A file without a problem writes firm tokens.** -/
theorem expandFile_writeFirm (provider : Provider σ) (depth : Nat) : WriteFirm (expandFile provider depth) := by
  induction depth with
  | zero => exact fun r store _ => ⟨.nil, by simp [expandFile, FileRequest.unread]⟩
  | succ depth ih =>
    intro r store tidy
    cases hn : r.path.namesFile with
    | false =>
      rw [expandFile, openFile_of_nameless provider _ store hn]
      exact ⟨.nil, by simp [FileRequest.unread]⟩
    | true =>
      cases hl : (provider.load store r.path).1 with
      | error cause =>
        rw [expandFile, openFile_of_unloaded provider _ hn hl]
        exact ⟨.nil, by simp [FileRequest.unread]⟩
      | ok content =>
        obtain ⟨-, closed, -, expanded⟩ := expandFile_of_clean depth hl tidy.clean
        rw [expanded] at tidy ⊢
        obtain ⟨first, rest⟩ := tidy.of_append
        have started : ∀ w ∈ (r.initial (provider.load store r.path).2).vertex, w.IsFirm := by
          simp [FileRequest.initial]
        obtain ⟨spliced, vertex⟩ := (r.context provider (expandFile provider depth)).walk_spliced _
          (.start (lex content)) ih started (legible_lex closed) (fun _ => truthful_of_mem_lex) rest
        have separate : Separate (lex content) := first.separate content (by simp [texts_opening])
        have firm := spliced.firm ⟨legible_lex closed, separate, isBlank_of_getLast?_lex content⟩
        refine conclude_isFirm ?_ vertex
        rw [written_opening_append]
        exact firm

end Files

/-- **The output of a valid program has no directive that is handled, where requests stand apart.** -/
theorem not_isHandled_of_isValid (provider : Provider σ) (entry : Path) (store : σ) :
    let p := (provider.program entry store).1
    p.isValid = true → (∀ text ∈ Journal.texts p.journal, Separate (lex text)) →
      (∀ t ∈ lex p.fragment.text, ¬ t.IsHandled) ∧ ∀ t ∈ lex p.vertex.text, ¬ t.IsHandled := by
  intro p valid separate
  have clean : Journal.diagnostics entry p.journal = [] := Provider.diagnostics_eq_nil_of_isValid valid
  obtain ⟨written, vertex⟩ :=
    expandFile_writeFirm provider (provider.reach store) (.entry entry) store ⟨clean, separate⟩
  have none : ∀ t ∈ lex Weave.empty.text, ¬ t.IsHandled := Firm.nil.not_isHandled_of_mem_lex rfl
  constructor
  · rw [Program.fragment]
    split
    · exact written.not_isHandled_of_mem_lex (Journal.toList_text_woven _ _)
    · exact none
  · rw [Program.vertex]
    cases h : p.result.vertex with
    | none => exact none
    | some w =>
      obtain ⟨ts, firm, same⟩ := vertex w h
      exact firm.not_isHandled_of_mem_lex same

/-- Two files, where the name of the second one stands right after the beginning of a directive and a request. -/
def gluingFiles (blanks : String) : MemoryFiles :=
  (MemoryFiles.empty.put "main.frag" [some ("##include" ++ blanks ++ "\"a.glsl\"include\n")]).put "a.glsl" [some ""]

/-- A blank before the path keeps the parts of a directive apart. -/
theorem not_isHandled_of_blank :
    let p := (MemoryFiles.provider.program ⟨"main.frag"⟩ (gluingFiles " ")).1
    p.isValid = true ∧ p.fragment.text = "# include\n" ∧ ∀ t ∈ lex p.fragment.text, ¬ t.IsHandled := by
  intro p
  have valid : p.isValid = true := by decide +kernel
  have separate : ∀ text ∈ Journal.texts p.journal, Separate (lex text) := by decide +kernel
  exact ⟨valid, by decide +kernel, (not_isHandled_of_isValid MemoryFiles.provider _ _ valid separate).1⟩

/-- Without a blank, a directive arises that nobody has written, in a valid program. -/
theorem exists_isHandled_of_glued :
    let p := (MemoryFiles.provider.program ⟨"main.frag"⟩ (gluingFiles "")).1
    p.isValid = true ∧ p.fragment.text = "#include\n" ∧ ∃ t ∈ lex p.fragment.text, t.IsHandled := by
  decide +kernel

end ShaderWeave
