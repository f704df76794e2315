import ShaderWeave.Proofs.Declaration.Trimming
import ShaderWeave.Proofs.Expansion.Transcript
import ShaderWeave.Provider.Memory

/-!
# Expanding a woven text again

The woven text of a file that asks for no other file declares what the file declares, but for the values that variables
start with. The main result, `reads_again`, says so of every such file without a problem: its woven text is expanded
without a problem, to the same words, and with the same declarations, all of whose values are zero. What it is expanded
to is stable: expanding that text as well declares just the same.

The woven text is cut into the words that were written (`Transcript.trimmed`, `words_lex_rendered`), and these words are
a transcript again, for the scope with zeros (`Transcript.exists_of_words`).
-/

namespace ShaderWeave

/-! ### What is written of a transcript -/

section Trimmed

variable {types : Structs} {raw ts us : List Token} {action : Action} {out : List Output}

theorem Excerpt.trimmed (h : Excerpt types raw action out) (ht : Trimmed ts us) :
    Trimmed (raw ++ ts) (writtenTokens out ++ us) := by
  cases h with
  | plain => exact ht.keep _
  | @uniform t stop raw v hr hs phrase =>
    rw [writtenTokens_copy]
    simpa using (ht.keep_append hs 2 raw).keep t
  | @struct t stop raw kept name fields hr h =>
    have newline : writtenTokens [.newline stop.line] = [Token.newline stop.line] := rfl
    rw [writtenTokens_append, writtenTokens_copy, newline]
    simpa using (h.trimmed (ht.newline stop.line)).keep t

/-- **What is written of a transcript are its tokens without initializers.** -/
theorem Transcript.trimmed {t t' : Scope} {outs : List Output} (h : Transcript t ts t' outs) :
    Trimmed ts (writtenTokens outs) := by
  induction h with
  | nil => exact .nil
  | cons h _ ih =>
    rw [writtenTokens_append]
    exact h.trimmed ih

end Trimmed

/-! ### Reading the words again -/

theorem Token.role_of_word {t u : Token} (h : t.word = u.word) : t.role = u.role := by
  rw [role, role, kind_of_word h, text_of_word h]

theorem Token.solid_of_role {t : Token} (h : t.role ≠ .plain) : t.isBlank = false := by
  cases hb : t.isBlank with
  | false => rfl
  | true => exact absurd (role_of_isBlank hb) h

/-- What a construct asks for, with zeros for all values. -/
def Action.zeroed : Action → Action
  | .declare v => .declare v.zeroed
  | .define name fields => .define name (Variable.zeroedAll fields)
  | action => action

theorem Scope.zeroed_after (t : Scope) (action : Action) : (t.after action).zeroed = t.zeroed.after action.zeroed := by
  cases action with
  | declare v => exact t.zeroed_declare v
  | define name fields => exact t.zeroed_define name fields
  | nothing => rfl
  | request => rfl

theorem Transcript.of_excerpt {t : Scope} {raw : List Token} {action : Action} {out : List Output}
    (h : Excerpt t.structs raw action out) : Transcript t raw (t.after action) out := by
  simpa using cons h (.nil _)

/-- A longer construct after blanks. -/
theorem Transcript.of_blanks {t : Scope} {blanks raw : List Token} {action : Action} {out : List Output}
    (hb : ∀ b ∈ blanks, b.isBlank = true) (h : Excerpt t.structs raw action out) :
    Transcript t (blanks ++ raw) (t.after action) (blanks.map .copy ++ out) :=
  (of_plain t fun b hm => Token.role_of_isBlank (hb b hm)).append (of_excerpt h)

section Again

variable {t : Scope} {us : List Token} {ws : List (Token.Kind × String)}

/-- The words that are written for a construct are the same construct with zeros. -/
theorem Excerpt.exists_of_words {raw : List Token} {action : Action} {out : List Output}
    (h : Excerpt t.structs raw action out) (hw : words us = words (writtenTokens out) ++ ws) :
    ∃ raw' us' out', us = raw' ++ us' ∧ words us' = ws ∧
      Transcript t.zeroed raw' (t.after action).zeroed out' ∧
        words (writtenTokens out') = words (writtenTokens out) := by
  rw [Scope.zeroed_after]
  cases h with
  | @plain u hr =>
    rw [show writtenTokens [Output.copy u] = [u] from rfl] at hw ⊢
    cases hb : u.isBlank with
    | true =>
      rw [words_cons_of_isBlank hb, words_nil] at hw ⊢
      exact ⟨[], us, [], rfl, hw, .nil _, rfl⟩
    | false =>
      rw [words_cons_of_solid hb, words_nil] at hw ⊢
      obtain ⟨blanks, u', us', rfl, hbs, solid, same, hw⟩ := exists_of_words_eq_cons hw
      have role := (Token.role_of_word same).trans hr
      refine ⟨blanks ++ [u'], us', _, by simp, hw, .of_blanks hbs (.plain role), ?_⟩
      rw [writtenTokens_append, writtenTokens_copy, words_append, words_of_isBlank hbs]
      exact (words_cons_of_solid solid []).trans (by rw [same]; rfl)
  | @uniform u stop raw v hr hs phrase =>
    have solid := Token.solid_of_role (by rw [hr]; simp)
    rw [writtenTokens_copy, words_cons_of_solid solid] at hw ⊢
    obtain ⟨blanks, u', _, rfl, hbs, solid', same, hw⟩ := exists_of_words_eq_cons hw
    obtain ⟨raw', stop', us', rfl, hw, hs', phrase', same'⟩ := Reader.exists_declaration_of_words hs phrase hw
    have role := (Token.role_of_word same).trans hr
    refine ⟨blanks ++ u' :: (raw' ++ [stop']), us', _, by simp, hw, .of_blanks hbs (.uniform role hs' phrase'), ?_⟩
    rw [writtenTokens_append, writtenTokens_copy, writtenTokens_copy, words_append, words_of_isBlank hbs,
      words_cons_of_solid solid', same, same']
    rfl
  | @struct u stop raw kept name fields hr h =>
    have solid := Token.solid_of_role (by rw [hr]; simp)
    have written (x : Token) (xs : List Token) (line : Nat) (hx : x.isBlank = false) :
        words (writtenTokens ((x :: xs).map .copy ++ [.newline line])) = x.word :: words xs := by
      rw [writtenTokens_append, writtenTokens_copy, words_append, words_cons_of_solid hx]
      exact List.append_nil _
    rw [written u kept stop.line solid] at hw ⊢
    obtain ⟨blanks, u', _, rfl, hbs, solid', same, hw⟩ := exists_of_words_eq_cons hw
    obtain ⟨raw', stop', kept', us', rfl, hw, h', same'⟩ := h.exists_of_words hw
    have role := (Token.role_of_word same).trans hr
    refine ⟨blanks ++ u' :: raw', us', _, by simp, hw, .of_blanks hbs (.struct role h'), ?_⟩
    rw [writtenTokens_append, writtenTokens_copy, words_append, words_of_isBlank hbs, written u' kept' _ solid', same,
      same']
    rfl

/-- **The words that are written for a transcript are the same transcript with zeros.** -/
theorem Transcript.exists_of_words {ts : List Token} {t' : Scope} {outs : List Output} (h : Transcript t ts t' outs)
    (hw : words us = words (writtenTokens outs)) :
    ∃ outs', Transcript t.zeroed us t'.zeroed outs' ∧ words (writtenTokens outs') = words (writtenTokens outs) := by
  induction h generalizing us with
  | nil t =>
    have blank : ∀ u ∈ us, u.role = .plain := by
      intro u hu
      have none : significant us = [] := List.map_eq_nil_iff.1 hw
      exact Token.role_of_isBlank (by simpa using List.filter_eq_nil_iff.1 none u hu)
    exact ⟨us.map .copy, .of_plain _ blank, by rw [writtenTokens_copy, hw]⟩
  | cons h _ ih =>
    rw [writtenTokens_append, words_append] at hw ⊢
    obtain ⟨raw', us', out', rfl, hw, first, same⟩ := h.exists_of_words hw
    obtain ⟨outs', rest, same'⟩ := ih hw
    exact ⟨out' ++ outs', first.append rest, by rw [writtenTokens_append, words_append, same, same']⟩

end Again

/-! ### Readings of a text -/

/-- The expansion of a file with the given text, where nothing has been declared before. -/
inductive Expansion.Reads {σ : Type} (path : Path) (text : String) : Expansion σ → Prop
  /-- The text is what is loaded for the path. -/
  | intro (provider : Provider σ) (depth : Nat) (r : FileRequest) (store : σ) (hp : r.path = path)
    (hs : r.scope = .empty) (hl : (provider.load store path).1 = .ok text) :
    Reads path text (expandFile provider (depth + 1) r store)

namespace Expansion.Reads

variable {σ : Type} {path : Path} {text : String} {e : Expansion σ}

/-- A reading of a transcript is what the transcript says. -/
theorem of_transcript (h : Reads path text e) (hn : path.namesFile = true) (hu : unclosedLines text = [])
    {t' : Scope} {outs : List Output} (ht : Transcript .empty (lex text) t' outs) :
    Journal.diagnostics path e.journal = [] ∧ e.result.scope = t' ∧
      Journal.written path e.journal = writtenTokens outs := by
  obtain ⟨provider, depth, r, store, rfl, hs, hl⟩ := h
  rw [← hs] at ht
  rw [expandFile_of_transcript depth hn hl ht]
  refine ⟨?_, rfl, ?_⟩
  · rw [FileRequest.conclude, Journal.diagnostics_append, diagnostics_opening, hu, Journal.diagnostics_map_output,
      ht.filterMap_fault?]
    rfl
  · rw [FileRequest.conclude, written_opening_append, Journal.written_map_output]

/-- A reading without a problem of a text that asks for no file is a transcript. -/
theorem exists_transcript (h : Reads path text e) (ho : ∀ t ∈ lex text, t.IsOwn)
    (hd : Journal.diagnostics path e.journal = []) :
    path.namesFile = true ∧ unclosedLines text = [] ∧ ∃ t' outs, Transcript .empty (lex text) t' outs := by
  obtain ⟨provider, depth, r, store, rfl, hs, hl⟩ := h
  rw [← hs]
  exact exists_transcript_of_clean depth hl ho hd

end Expansion.Reads

/-- Among the same words there is the same that asks for a file. -/
theorem isOwn_of_words {ts us : List Token} (hw : words us = words ts) (ho : ∀ t ∈ ts, t.IsOwn) :
    ∀ u ∈ us, u.IsOwn := by
  intro u hu
  cases hb : u.isBlank with
  | true => exact .inl (Token.role_of_isBlank hb)
  | false =>
    have mem : u.word ∈ words us := List.mem_map_of_mem (List.mem_filter.2 ⟨hu, by simp [hb]⟩)
    rw [hw] at mem
    obtain ⟨t, ht, same⟩ := List.mem_map.1 mem
    have own := ho t (List.mem_filter.1 ht).1
    rwa [Token.IsOwn, Token.role_of_word same] at own

theorem Trimmed.isOwn {ts us : List Token} (h : Trimmed ts us) (ho : ∀ t ∈ ts, t.IsOwn) : ∀ u ∈ us, u.IsOwn := by
  induction h with
  | nil => exact ho
  | keep t _ ih =>
    obtain ⟨ht, ho⟩ := List.forall_mem_cons.1 ho
    exact List.forall_mem_cons.2 ⟨ht, ih ho⟩
  | drop t _ _ ih => exact ih (List.forall_mem_cons.1 ho).2
  | newline n _ ih => exact List.forall_mem_cons.2 ⟨.inl (Token.role_of_isBlank (isBlank_newline n)), ih ho⟩

/-- **A woven text declares what the file declares.** Of a file without a problem that asks for no other file, the woven
text is expanded without a problem as well. The same words are written, the same is declared, with zeros for all values,
and the woven text of the second expansion declares just the same again. -/
theorem reads_again {σ τ : Type} {path : Path} {text : String} {e : Expansion σ} (he : e.Reads path text)
    (ho : ∀ t ∈ lex text, t.IsOwn) (hd : Journal.diagnostics path e.journal = []) {e' : Expansion τ}
    (he' : e'.Reads path (Journal.woven path e.journal).text) :
    Journal.diagnostics path e'.journal = [] ∧
      words (Journal.written path e'.journal) = words (Journal.written path e.journal) ∧
      e'.result.scope = e.result.scope.zeroed ∧
      ∀ (υ : Type) (e'' : Expansion υ), e''.Reads path (Journal.woven path e'.journal).text →
        e''.result.scope = e'.result.scope := by
  -- One step, for any text: what is left to show of it is that it applies to its own result.
  have step {σ τ : Type} {text : String} {e : Expansion σ} {e' : Expansion τ} (he : e.Reads path text)
      (ho : ∀ t ∈ lex text, t.IsOwn) (hd : Journal.diagnostics path e.journal = [])
      (he' : e'.Reads path (Journal.woven path e.journal).text) :
      Journal.diagnostics path e'.journal = [] ∧
        words (Journal.written path e'.journal) = words (Journal.written path e.journal) ∧
        e'.result.scope = e.result.scope.zeroed ∧ ∀ t ∈ lex (Journal.woven path e.journal).text, t.IsOwn := by
    obtain ⟨hn, hu, t', outs, transcript⟩ := he.exists_transcript ho hd
    obtain ⟨-, scope, written⟩ := he.of_transcript hn hu transcript
    have woven : (Journal.woven path e.journal).text = String.ofList (rendered (writtenTokens outs)) := by
      rw [← String.toList_inj, String.toList_ofList, Journal.toList_text_woven, written]
    obtain ⟨same, closed⟩ := words_lex_rendered (transcript.trimmed.legible (legible_lex hu))
    rw [woven] at he'
    obtain ⟨outs', transcript', same'⟩ := transcript.exists_of_words same
    rw [Scope.zeroed_empty] at transcript'
    obtain ⟨clean', scope', written'⟩ := he'.of_transcript hn closed transcript'
    refine ⟨clean', by rw [written', written, same'], by rw [scope', scope], ?_⟩
    rw [woven]
    exact isOwn_of_words same (transcript.trimmed.isOwn ho)
  obtain ⟨clean, same, scope, own⟩ := step he ho hd he'
  refine ⟨clean, same, scope, fun υ e'' he'' => ?_⟩
  obtain ⟨-, -, scope', -⟩ := step he' own clean he''
  rw [scope', scope, Scope.zeroed_zeroed]

/-- The only file there is, with the given text. -/
def soleFile (text : String) : MemoryFiles :=
  MemoryFiles.empty.put "a.glsl" [some text]

/-- Reads the only file. -/
def readSole (text : String) : Expansion MemoryFiles :=
  expandFile MemoryFiles.provider 1 ⟨⟨"a.glsl"⟩, false, .empty, .empty⟩ (soleFile text)

theorem reads_readSole (text : String) : (readSole text).Reads ⟨"a.glsl"⟩ text :=
  .intro MemoryFiles.provider 0 ⟨⟨"a.glsl"⟩, false, .empty, .empty⟩ (soleFile text) rfl rfl (by rfl)

/-- A struct type and a uniform lose their values, and no blank stands where the values were. -/
theorem reads_again_without_values :
    let text := "struct Lamp{float glow=0.5;};uniform Lamp lamp;\nuniform ivec2 size=(1,-2);\n"
    let text' := "struct Lamp{float glow;};\nuniform Lamp lamp;\nuniform ivec2 size;\n"
    (Journal.woven ⟨"a.glsl"⟩ (readSole text).journal).text = text' ∧
      Journal.diagnostics ⟨"a.glsl"⟩ (readSole text').journal = [] ∧
      (readSole text').result.scope = (readSole text).result.scope.zeroed ∧
      (readSole text').result.scope.uniforms["size"]? = some (.value "size" (.integer [0, 0])) := by
  intro text text'
  have own : ∀ t ∈ lex text, t.IsOwn := by decide +kernel
  have clean : Journal.diagnostics ⟨"a.glsl"⟩ (readSole text).journal = [] := by decide +kernel
  have woven : (Journal.woven ⟨"a.glsl"⟩ (readSole text).journal).text = text' := by decide +kernel
  have again : (readSole text').Reads ⟨"a.glsl"⟩ (Journal.woven ⟨"a.glsl"⟩ (readSole text).journal).text := by
    rw [woven]
    exact reads_readSole text'
  obtain ⟨clean', -, scope, -⟩ := reads_again (reads_readSole text) own clean again
  exact ⟨woven, clean', scope, by decide +kernel⟩

end ShaderWeave
