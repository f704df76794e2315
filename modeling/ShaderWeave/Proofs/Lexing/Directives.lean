import ShaderWeave.Proofs.Lexing.Mending

/-!
# Directives of a written text

A number sign starts a directive wherever it stands outside of a string, and no other lexeme goes on over one. So the
directives of a text can be told without the lexer, by the number signs and the letters after them (`directives_lex`).

Where tokens are written one after another, a directive goes on into the letters that are written after it. The
directives of the text are then those that are written, each with these letters (`directiveWords_rendered`). So one can
arise that nobody has written: `#inc` and `lude` make `#include`.

Tokens are `Firm` if this makes no directive that is handled: none of them is one, and where a token is the beginning of
one, what is written next does not begin with a letter. By `Firm.not_isHandled_of_mem_lex`, the text of firm tokens has
no directive that is handled.
-/

namespace ShaderWeave

/-! ### Directives of a text -/

/-- The directives of a text, from left to right. The flag says that a string is open. -/
def directiveWords : Bool → List Char → List (List Char)
  | _, [] => []
  | quoted, c :: cs =>
    if c = '\n' then directiveWords false cs
    else if c = '"' then directiveWords (!quoted) cs
    else if c = '#' ∧ quoted = false then ('#' :: cs.takeWhile isLetter) :: directiveWords false cs
    else directiveWords quoted cs

/-- The directives among some tokens. -/
def directives (ts : List Token) : List (List Char) :=
  (ts.filter (·.kind = .directive)).map fun t => t.text.toList

theorem directives_append (ts us : List Token) : directives (ts ++ us) = directives ts ++ directives us := by
  rw [directives, List.filter_append, List.map_append]
  rfl

section Scan

variable {cs more : List Char}

/-- Characters are passed over that are neither quotes nor newlines nor, outside of a string, number signs. -/
theorem directiveWords_append {quoted : Bool} (h : ∀ c ∈ cs, c ≠ '\n' ∧ c ≠ '"' ∧ (c = '#' → quoted = true)) :
    directiveWords quoted (cs ++ more) = directiveWords quoted more := by
  induction cs with
  | nil => rfl
  | cons c cs ih =>
    obtain ⟨⟨newline, quote, hash⟩, hcs⟩ := List.forall_mem_cons.1 h
    have passed : ¬ (c = '#' ∧ quoted = false) := fun h => by simp [hash h.1] at h
    rw [List.cons_append, directiveWords, if_neg newline, if_neg quote, if_neg passed, ih hcs]

/-- A string is passed over up to its end. -/
theorem directiveWords_string (hn : '\n' ∉ cs) (hq : '"' ∉ cs) :
    directiveWords false ('"' :: (cs ++ more)) = directiveWords true more := by
  have opened : directiveWords false ('"' :: (cs ++ more)) = directiveWords true (cs ++ more) := rfl
  rw [opened, directiveWords_append fun c hc => ⟨?_, ?_, fun _ => rfl⟩]
  · rintro rfl
    exact hn hc
  · rintro rfl
    exact hq hc

/-- Blanks are passed over. -/
theorem directiveWords_blanks (h : ∀ c ∈ cs, isBlank c = true) :
    directiveWords false (cs ++ more) = directiveWords false more := by
  induction cs with
  | nil => rfl
  | cons c cs ih =>
    obtain ⟨hc, hcs⟩ := List.forall_mem_cons.1 h
    rw [List.cons_append, directiveWords, ih hcs]
    obtain rfl | rfl | rfl := isBlank_iff.1 hc <;> rfl

/-- A word ends before a character that is not of its class. -/
theorem takeWhile_append_cons {p : Char → Bool} {c : Char} (h : p c = false) :
    (cs ++ c :: more).takeWhile p = cs.takeWhile p := by
  induction cs with
  | nil => simp [h]
  | cons d cs ih => simp [List.takeWhile_cons, ih]

theorem Ends.takeWhile_eq_nil {p : Char → Bool} (h : Ends p more) : more.takeWhile p = [] :=
  h.takeWhile_append (List.forall_mem_nil _)

/-- A directive ends with its line, and so does a string. -/
theorem directiveWords_newline (quoted : Bool) (h : '\n' ∉ cs) :
    directiveWords quoted (cs ++ '\n' :: more) = directiveWords quoted cs ++ directiveWords false more := by
  induction cs generalizing quoted with
  | nil => simp [directiveWords]
  | cons c cs ih =>
    obtain ⟨hc, hcs⟩ : '\n' ≠ c ∧ '\n' ∉ cs := by simpa using h
    rw [List.cons_append, directiveWords, directiveWords, if_neg (Ne.symm hc), if_neg (Ne.symm hc)]
    split
    · exact ih _ hcs
    · split
      · rw [takeWhile_append_cons (by decide), ih _ hcs]
        rfl
      · exact ih _ hcs

end Scan

/-! ### Directives of a lexed text -/

namespace Token.Kind

theorem ofWord_ne_directive (word : List Char) : ofWord word ≠ .directive := by
  rcases ofWord_eq word with h | h <;> simp [h]

theorem ofNumber_ne_directive (number : List Char) : ofNumber number ≠ .directive := by
  rcases ofNumber_eq number with h | h <;> simp [h]

end Token.Kind

namespace Lexeme.Cut

variable {l : Lexeme} {rest : List Char}

/-- A directive ends before what is not a letter. -/
theorem ends_of_directive (h : Cut l rest) (hk : l.kind = .directive) : Ends isLetter rest := by
  cases h with
  | directive _ he => exact he
  | word => exact absurd hk (Token.Kind.ofWord_ne_directive _)
  | number | marked => exact absurd hk (Token.Kind.ofNumber_ne_directive _)
  | single => exact absurd hk (Token.Kind.ofChar_ne (by decide) _)
  | _ => simp [whole] at hk

/-- A lexeme has no directive but itself, which goes on into the letters after it. -/
theorem directiveWords_source (h : Cut l rest) (hu : l.unclosed = false) (hn : '\n' ∉ l.source) (more : List Char) :
    directiveWords false (l.source ++ more) =
      (if l.kind = .directive then [l.text ++ more.takeWhile isLetter] else []) ++ directiveWords false more := by
  -- A lexeme of any other kind but a string is passed over.
  have passed {kind : Token.Kind} {text : List Char} (hk : kind ≠ .directive) (hs : kind ≠ .string)
      (ht : ∀ c ∈ text, c ≠ '\n' ∧ c ≠ '"' ∧ (c = '#' → false = true)) :
      directiveWords false ((whole kind text).source ++ more) =
        (if kind = .directive then [text ++ more.takeWhile isLetter] else []) ++ directiveWords false more := by
    rw [source_whole hs, directiveWords_append ht, if_neg hk, List.nil_append]
  have other {p : Char → Bool} (hp : p '\n' = false ∧ p '"' = false ∧ p '#' = false) {c : Char} (hc : p c = true) :
      c ≠ '\n' ∧ c ≠ '"' ∧ (c = '#' → false = true) := by
    refine ⟨?_, ?_, ?_⟩ <;> rintro rfl <;> simp [hp] at hc
  cases h with
  | @directive word _ hw =>
    have taken : (word ++ more).takeWhile isLetter = word ++ more.takeWhile isLetter :=
      List.takeWhile_append_of_pos hw
    rw [source_whole (by simp), List.cons_append, directiveWords, if_neg (by decide), if_neg (by decide),
      if_pos ⟨rfl, rfl⟩, taken, directiveWords_append fun c hc => other (by decide) (hw c hc)]
    rfl
  | word hc hw =>
    exact passed (Token.Kind.ofWord_ne_directive _) (Token.Kind.ofWord_ne_string _)
      (List.forall_mem_cons.2 ⟨other (by decide) hc, fun d hd => other (by decide) (hw d hd)⟩)
  | number hc hb =>
    exact passed (Token.Kind.ofNumber_ne_directive _) (Token.Kind.ofNumber_ne_string _)
      (List.forall_mem_cons.2 ⟨other (by decide) hc, fun d hd => other (by decide) (hb d hd)⟩)
  | marked hc hb =>
    refine passed (Token.Kind.ofNumber_ne_directive _) (Token.Kind.ofNumber_ne_string _)
      (List.forall_mem_cons.2 ⟨other (by decide) hc, fun d hd => ?_⟩)
    rcases List.mem_append.1 hd with hd | hd
    · exact other (by decide) (hb d hd)
    · obtain rfl := List.mem_singleton.1 hd
      decide
  | blank hc hb =>
    rw [source_whole (by simp), directiveWords_blanks (List.forall_mem_cons.2 ⟨hc, hb⟩)]
    rfl
  | @string text _ ht =>
    have source : (whole .string text).source ++ more = '"' :: (text ++ '"' :: more) := by
      simp [Lexeme.source, Lexeme.render, whole]
    have line : '\n' ∉ text := fun h => hn (by simp [Lexeme.source, Lexeme.render, whole, h])
    rw [source, directiveWords_string line ht]
    rfl
  | unclosed => simp at hu
  | single hash letter digit blank quote =>
    refine passed (Token.Kind.ofChar_ne (by decide) _) (Token.Kind.ofChar_ne (by decide) _)
      (List.forall_mem_singleton.2 ⟨?_, quote, fun h => absurd h hash⟩)
    rintro rfl
    exact absurd blank (by decide)

end Lexeme.Cut

/-- The directives of a line are among its lexemes. -/
theorem directives_lineTokens {line : List Char} (h : '\n' ∉ line) (n : Nat) :
    directives (lineTokens line n) = directiveWords false line := by
  have newline : directives [Token.newline n] = [] := rfl
  rw [lineTokens, directives_append, newline, List.append_nil]
  induction line using lexemes.induct with
  | case1 => rw [lexemes_nil]; rfl
  | case2 c cs ih =>
    obtain ⟨cut, hs⟩ := Lexeme.cut_first c cs
    rw [lexemes_cons]
    generalize Lexeme.first c cs = first at ih cut hs ⊢
    obtain ⟨l, rest⟩ := first
    dsimp only at ih cut hs ⊢
    rw [← hs, List.mem_append, not_or] at h
    have head : directives (l.token n :: (lexemes rest).map (Lexeme.token n)) =
        (if l.kind = .directive then [l.text] else []) ++ directiveWords false rest := by
      rw [← List.singleton_append, directives_append, ih h.2]
      by_cases hk : l.kind = .directive <;> simp [directives, Lexeme.token, hk]
    rw [List.map_cons, head, ← hs]
    cases hu : l.unclosed with
    | true =>
      obtain rfl := cut.rest_eq_nil hu
      cases cut with
      | @unclosed text ht =>
        have line : '\n' ∉ text := fun hm => h.1 (by simp [Lexeme.source, hm])
        have none : directiveWords false ('"' :: (text ++ [])) = directiveWords true [] := directiveWords_string line ht
        exact none.symm
      | _ => simp [Lexeme.whole] at hu
    | false =>
      rw [cut.directiveWords_source hu h.1]
      by_cases hk : l.kind = .directive
      · rw [if_pos hk, if_pos hk, (cut.ends_of_directive hk).takeWhile_eq_nil, List.append_nil]
      · rw [if_neg hk, if_neg hk]

/-- The directives of a text are those of its lines. -/
theorem flatMap_directiveWords_lines (cs : List Char) :
    ((Text.lines cs).flatMap fun line => directiveWords false (Text.content line)) = directiveWords false cs := by
  by_cases hn : '\n' ∈ cs
  · obtain ⟨line, rest, split, hl⟩ := List.eq_append_cons_of_mem hn
    have shorter : rest.length < cs.length := by
      rw [split, List.length_append, List.length_cons]
      omega
    rw [split, Text.lines_append, Text.lines_of_notMem hl, List.flatMap_append, List.flatMap_singleton,
      Text.content_ended hl [], flatMap_directiveWords_lines rest, directiveWords_newline false hl]
  · by_cases empty : cs = []
    · rw [empty]
      rfl
    · rw [Text.lines_of_notMem_of_ne_nil hn empty, List.flatMap_singleton, Text.content_of_notMem hn]
termination_by cs.length

/-- **The directives of a text are its number signs outside of strings, each with the letters after it.** -/
theorem directives_lex (text : String) : directives (lex text) = directiveWords false text.toList := by
  have lines (ls : List (List Char × Nat)) (h : ∀ line ∈ ls, '\n' ∉ line.1) :
      directives (ls.flatMap fun line => lineTokens line.1 line.2) =
        ls.flatMap fun line => directiveWords false line.1 := by
    induction ls with
    | nil => rfl
    | cons line ls ih =>
      obtain ⟨hl, hls⟩ := List.forall_mem_cons.1 h
      rw [List.flatMap_cons, directives_append, directives_lineTokens hl, ih hls, List.flatMap_cons]
  rw [lex, lines _ fun _ => newline_notMem_of_mem_numberedLines, flatMap_numberedLines, flatMap_directiveWords_lines]

/-! ### Directives of written tokens -/

/-- The directives of some tokens, each with the letters that are written after it. -/
def extendedDirectives : List Token → List (List Char)
  | [] => []
  | t :: ts =>
    (if t.kind = .directive then [t.text.toList ++ (rendered ts).takeWhile isLetter] else []) ++ extendedDirectives ts

/-- **The directives of a written text are those that are written, each with the letters after it.** -/
theorem directiveWords_rendered {ts : List Token} (h : ∀ t ∈ ts, t.Proper) :
    directiveWords false (rendered ts) = extendedDirectives ts := by
  induction ts with
  | nil => rfl
  | cons t ts ih =>
    obtain ⟨ht, hts⟩ := List.forall_mem_cons.1 h
    rw [rendered, List.flatMap_cons, ← rendered, extendedDirectives, ← ih hts]
    cases hb : t.isBlank with
    | true =>
      have kind : t.kind ≠ .directive := by simp [of_decide_eq_true hb]
      rw [Token.toList_render_of_isBlank hb, directiveWords_blanks (ht.blank hb).2, if_neg kind, List.nil_append]
    | false =>
      obtain ⟨cut, line⟩ := ht.solid hb
      rw [← Token.source_lexeme] at line ⊢
      exact cut.directiveWords_source rfl line _

/-! ### Directives that are handled -/

/-- The directives that are handled while a file is expanded. -/
def handledDirectives : List String :=
  ["#include", "#requires_implementation", "#vertex_shader"]

namespace Token

/-- The token is a directive that is handled. -/
def IsHandled (t : Token) : Prop :=
  t.kind = .directive ∧ t.text ∈ handledDirectives

instance (t : Token) : Decidable t.IsHandled :=
  inferInstanceAs (Decidable (_ ∧ _))

/-- The token is a directive that is none of those that are handled, but the beginning of one. -/
def IsStub (t : Token) : Prop :=
  t.kind = .directive ∧ t.text ∉ handledDirectives ∧ ∃ word ∈ handledDirectives, t.text.toList <+: word.toList

instance (t : Token) : Decidable t.IsStub :=
  inferInstanceAs (Decidable (_ ∧ _ ∧ _))

end Token

/-- Tokens of which none is a directive that is handled, and none goes on into one. -/
inductive Firm : List Token → Prop
  /-- There is none. -/
  | nil : Firm []
  /-- One is followed by others. -/
  | cons {t : Token} {ts : List Token} (ht : t.Proper) (hh : ¬ t.IsHandled)
    (hs : t.IsStub → ∃ u us, ts = u :: us ∧ Ends isLetter u.render.toList) (h : Firm ts) : Firm (t :: ts)

namespace Firm

variable {ts us : List Token}

theorem proper (h : Firm ts) : ∀ t ∈ ts, t.Proper := by
  induction h with
  | nil => simp
  | cons ht _ _ _ ih => exact List.forall_mem_cons.2 ⟨ht, ih⟩

theorem append (h : Firm ts) (h' : Firm us) : Firm (ts ++ us) := by
  induction h with
  | nil => exact h'
  | cons ht hh hs _ ih =>
    refine .cons ht hh (fun stub => ?_) ih
    obtain ⟨u, us', rfl, ends⟩ := hs stub
    exact ⟨u, us' ++ us, rfl, ends⟩

/-- Tokens that are no directives are firm. -/
theorem of_kind_ne_directive (proper : ∀ t ∈ ts, t.Proper) (kind : ∀ t ∈ ts, t.kind ≠ .directive) : Firm ts := by
  induction ts with
  | nil => exact .nil
  | cons t ts ih =>
    obtain ⟨ht, hts⟩ := List.forall_mem_cons.1 proper
    obtain ⟨hk, hks⟩ := List.forall_mem_cons.1 kind
    exact .cons ht (fun h => hk h.1) (fun h => absurd h.1 hk) (ih hts hks)

/-- No directive of firm tokens becomes one that is handled. -/
theorem notMem_extendedDirectives (h : Firm ts) : ∀ word ∈ handledDirectives, word.toList ∉ extendedDirectives ts := by
  intro word hw
  induction h with
  | nil => simp [extendedDirectives]
  | @cons t ts ht hh hs h ih =>
    rw [extendedDirectives, List.mem_append, not_or]
    refine ⟨fun mem => ?_, ih⟩
    split at mem
    next hk =>
      have same := List.mem_singleton.1 mem
      have other : t.text ∉ handledDirectives := fun hm => hh ⟨hk, hm⟩
      have stub : t.IsStub := ⟨hk, other, word, hw, same ▸ List.prefix_append ..⟩
      obtain ⟨u, us, rfl, ends⟩ := hs stub
      have proper : u.Proper := h.proper u List.mem_cons_self
      have ends : Ends isLetter (rendered (u :: us)) := by
        rwa [Ends, rendered, List.flatMap_cons, List.head?_append,
          Option.or_of_isSome (List.isSome_head?.2 proper.render_ne_nil)]
      rw [ends.takeWhile_eq_nil, List.append_nil, String.toList_inj] at same
      exact other (same ▸ hw)
    next => simp at mem

/-- **The text of firm tokens has no directive that is handled.** -/
theorem not_isHandled_of_mem_lex (h : Firm ts) {text : String} (same : text.toList = rendered ts) :
    ∀ t ∈ lex text, ¬ t.IsHandled := by
  rintro t ht ⟨hk, hw⟩
  have mem : t.text.toList ∈ directives (lex text) :=
    List.mem_map_of_mem (List.mem_filter.2 ⟨ht, decide_eq_true hk⟩)
  rw [directives_lex, same, directiveWords_rendered h.proper] at mem
  exact h.notMem_extendedDirectives t.text hw mem

end Firm

end ShaderWeave
