import ShaderWeave.Proofs.Lexing.Cuts
import ShaderWeave.Proofs.Reader.Sight
import ShaderWeave.Proofs.Weave.Marks

/-!
# Cutting a written text again

The text of some tokens is cut into the same words again if no token goes on into the next one. Such tokens are
`Legible`: each could be cut off a line by itself, and the first character of the next one does not continue it
(`words_lex_rendered`). The tokens of a text in which all strings are closed are legible (`legible_lex`).

Words are what is left of tokens without blanks and places. Blanks cannot be told from what is cut again, since those
that meet are cut off together.

Legible tokens may be `Trimmed`: where some are left out, a blank or a semicolon must come next, and newlines may be
added. Neither continues any token, so the tokens that are left are legible (`Trimmed.legible`).
-/

namespace ShaderWeave

/-! ### Words -/

/-- What a token is, wherever it stands. -/
def Token.word (t : Token) : Token.Kind × String :=
  (t.kind, t.text)

theorem Token.kind_of_word {t u : Token} (h : t.word = u.word) : t.kind = u.kind :=
  congrArg Prod.fst h

theorem Token.text_of_word {t u : Token} (h : t.word = u.word) : t.text = u.text :=
  congrArg Prod.snd h

/-- What is left of some tokens without blanks and places. -/
def words (ts : List Token) : List (Token.Kind × String) :=
  (significant ts).map Token.word

@[simp] theorem words_nil : words [] = [] := rfl

theorem words_append (ts us : List Token) : words (ts ++ us) = words ts ++ words us := by
  rw [words, significant_append, List.map_append]
  rfl

theorem words_cons_of_isBlank {t : Token} (h : t.isBlank = true) (ts : List Token) : words (t :: ts) = words ts := by
  simp [words, significant, h]

theorem words_cons_of_solid {t : Token} (h : t.isBlank = false) (ts : List Token) :
    words (t :: ts) = t.word :: words ts := by
  simp [words, significant, h]

/-- The first word of some tokens comes after blanks. -/
theorem exists_of_words_eq_cons {us : List Token} {w : Token.Kind × String} {ws : List (Token.Kind × String)}
    (h : words us = w :: ws) :
    ∃ blanks u us', us = blanks ++ u :: us' ∧ (∀ b ∈ blanks, b.isBlank = true) ∧ u.isBlank = false ∧ u.word = w ∧
      words us' = ws := by
  induction us with
  | nil => simp at h
  | cons u us ih =>
    cases hu : u.isBlank with
    | true =>
      rw [words_cons_of_isBlank hu] at h
      obtain ⟨blanks, t, us', rfl, hb, rest⟩ := ih h
      exact ⟨u :: blanks, t, us', rfl, List.forall_mem_cons.2 ⟨hu, hb⟩, rest⟩
    | false =>
      rw [words_cons_of_solid hu] at h
      obtain ⟨hw, hs⟩ := List.cons.inj h
      exact ⟨[], u, us, rfl, by simp, hu, hw, hs⟩

theorem words_flatMap {α : Type} (f : α → List Token) (l : List α) :
    words (l.flatMap f) = l.flatMap fun a => words (f a) := by
  induction l with
  | nil => rfl
  | cons a l ih => rw [List.flatMap_cons, words_append, ih, List.flatMap_cons]

/-- The lexemes of a line but for its blanks. -/
def lineLexemes (line : List Char) : List Lexeme :=
  (lexemes line).filter (·.kind ≠ .whitespace)

/-- The lexemes of a text but for its blanks. -/
def textLexemes (cs : List Char) : List Lexeme :=
  (Text.lines cs).flatMap fun line => lineLexemes (Text.content line)

/-- What a lexeme is as a token, wherever it stands. -/
def Lexeme.word (l : Lexeme) : Token.Kind × String :=
  (l.kind, String.ofList l.text)

theorem words_lineTokens (line : List Char) (n : Nat) :
    words (lineTokens line n) = (lineLexemes line).map Lexeme.word := by
  have solid : (fun t => !Token.isBlank t) ∘ Lexeme.token n = fun l => decide (l.kind ≠ .whitespace) := by
    funext l
    simp [Token.isBlank, Lexeme.token]
    rfl
  rw [lineTokens, words_append, words_cons_of_isBlank (by rfl), words_nil, List.append_nil, words, significant,
    List.filter_map, List.map_map, solid]
  rfl

theorem flatMap_numberedLines {α : Type} (f : List Char → List α) (text : String) :
    (numberedLines text).flatMap (fun line => f line.1) =
      (Text.lines text.toList).flatMap fun line => f (Text.content line) := by
  have lines : ((numberedLines text).map Prod.fst).flatMap f =
      (Text.lines text.toList).flatMap fun line => f (Text.content line) := by
    rw [map_fst_numberedLines, List.flatMap_map]
  rw [← lines, List.flatMap_map]

/-- The number of a line says nothing about its words. -/
theorem words_lex (text : String) : words (lex text) = (textLexemes text.toList).map Lexeme.word := by
  rw [lex, words_flatMap, textLexemes, ← flatMap_numberedLines lineLexemes, List.map_flatMap]
  simp only [words_lineTokens]

/-! ### Lexemes of a text, from its front -/

/-- The first line stands by itself. -/
theorem textLexemes_eq (cs : List Char) :
    textLexemes cs = lineLexemes (Text.content cs) ++ textLexemes ((cs.dropWhile (· ≠ '\n')).drop 1) := by
  have whole {line : List Char} (h : '\n' ∉ line) : ∀ c ∈ line, decide (c ≠ '\n') = true := by
    intro c hc
    simpa using fun heq : c = '\n' => h (heq ▸ hc)
  by_cases hn : '\n' ∈ cs
  · obtain ⟨line, rest, rfl, hl⟩ := List.eq_append_cons_of_mem hn
    have ends : Ends (fun c => decide (c ≠ '\n')) ('\n' :: rest) := by simp [Ends]
    have ends' : Ends (fun c => decide (c ≠ '\n')) ['\n'] := by simp [Ends]
    have first : Text.content (line ++ '\n' :: rest) = line := ends.takeWhile_append (whole hl)
    have alone : Text.content (line ++ ['\n']) = line := ends'.takeWhile_append (whole hl)
    rw [textLexemes, Text.lines_append, Text.lines_of_notMem hl, first, ends.dropWhile_append (whole hl)]
    simp [alone, textLexemes]
  · have ends := Ends.nil fun c => decide (c ≠ '\n')
    have first := ends.takeWhile_append (whole hn)
    have none := ends.dropWhile_append (whole hn)
    rw [List.append_nil] at first none
    have first : Text.content cs = cs := first
    rw [first, none]
    cases cs with
    | nil => simp [textLexemes, lineLexemes]
    | cons c cs =>
      rw [textLexemes, Text.lines_of_notMem_of_ne_nil hn (by simp)]
      simp [first, textLexemes]

/-- Blanks before a line are not among its lexemes. -/
theorem lineLexemes_of_isBlank {c : Char} (h : isBlank c = true) (cs : List Char) :
    lineLexemes (c :: cs) = lineLexemes cs := by
  have skip {d : Char} (hd : isBlank d = true) (ds : List Char) :
      lineLexemes (d :: ds) = lineLexemes (ds.dropWhile isBlank) := by
    rw [lineLexemes, lexemes_cons, Lexeme.first_of_isBlank hd, List.filter_cons_of_neg (by simp [Lexeme.whole])]
    rfl
  rw [skip h]
  cases cs with
  | nil => rfl
  | cons d ds =>
    cases hd : isBlank d with
    | true => rw [List.dropWhile_cons_of_pos hd, skip hd]
    | false => rw [List.dropWhile_cons_of_neg (by simp [hd])]

/-- A blank in front of a text is not among its lexemes. -/
theorem textLexemes_of_isBlank {c : Char} (h : isBlank c = true) (cs : List Char) :
    textLexemes (c :: cs) = textLexemes cs := by
  by_cases hc : c = '\n'
  · subst hc
    rw [textLexemes_eq ('\n' :: cs)]
    simp [Text.content, lineLexemes]
  · have first : Text.content (c :: cs) = c :: Text.content cs := by simp [Text.content, hc]
    rw [textLexemes_eq (c :: cs), textLexemes_eq cs, first, lineLexemes_of_isBlank h,
      List.dropWhile_cons_of_pos (by simpa)]

namespace Token.Kind

theorem eq_of_ofChar_eq_semicolon {c : Char} (h : ofChar c = .semicolon) : c = ';' := by
  simp only [ofChar] at h
  repeat' split at h
  all_goals simp_all

end Token.Kind

namespace Lexeme.Cut

variable {l : Lexeme} {rest rest' : List Char}

theorem source_ne_nil (h : Cut l rest) : l.source ≠ [] := by
  cases h with
  | word => simp [source_whole (Token.Kind.ofWord_ne_string _)]
  | number | marked => simp [source_whole (Token.Kind.ofNumber_ne_string _)]
  | single => simp [source_whole (Token.Kind.ofChar_ne (by decide) _)]
  | _ => simp [source, whole, render]

/-- Blanks are cut off as blanks. -/
theorem blank_of_kind (h : Cut l rest) (hk : l.kind = .whitespace) :
    l.text ≠ [] ∧ ∀ c ∈ l.text, ShaderWeave.isBlank c = true := by
  cases h with
  | @word c word => rcases Token.Kind.ofWord_eq (c :: word) with h | h <;> simp [whole, h] at hk
  | @number c body => rcases Token.Kind.ofNumber_eq (c :: body) with h | h <;> simp [whole, h] at hk
  | @marked c body => rcases Token.Kind.ofNumber_eq (c :: (body ++ ['f'])) with h | h <;> simp [whole, h] at hk
  | single => exact absurd hk (Token.Kind.ofChar_ne (by decide) _)
  | blank hb hbs => exact ⟨by simp [whole], List.forall_mem_cons.2 ⟨hb, hbs⟩⟩
  | _ => simp [whole] at hk

/-- A semicolon is cut off as it is. -/
theorem source_of_semicolon (h : Cut l rest) (hk : l.kind = .semicolon) : l.source = [';'] := by
  cases h with
  | @word c word => rcases Token.Kind.ofWord_eq (c :: word) with h | h <;> simp [whole, h] at hk
  | @number c body => rcases Token.Kind.ofNumber_eq (c :: body) with h | h <;> simp [whole, h] at hk
  | @marked c body => rcases Token.Kind.ofNumber_eq (c :: (body ++ ['f'])) with h | h <;> simp [whole, h] at hk
  | single =>
    rw [source_whole (Token.Kind.ofChar_ne (by decide) _), Token.Kind.eq_of_ofChar_eq_semicolon hk]
  | _ => simp [whole] at hk

/-- Of what follows a lexeme only the first character matters. -/
theorem congr_head (h : Cut l rest) (hu : l.unclosed = false) (hr : rest'.head? = rest.head?) : Cut l rest' := by
  have ends {p : Char → Bool} (hp : Ends p rest) : Ends p rest' := by rwa [Ends, hr]
  cases h with
  | directive hw he => exact .directive hw (ends he)
  | word hd hw he => exact .word hd hw (ends he)
  | number hd hb he hf => exact .number hd hb (ends he) (by rwa [hr])
  | marked hd hb => exact .marked hd hb
  | blank hb hbs he => exact .blank hb hbs (ends he)
  | string ht => exact .string ht
  | unclosed => simp at hu
  | single hash letter digit blank quote => exact .single hash letter digit blank quote

/-- A blank, a semicolon and the end of the text continue no lexeme but blanks. -/
theorem of_break (h : Cut l rest) (hu : l.unclosed = false) (hk : l.kind ≠ .whitespace)
    (hr : ∀ c ∈ rest'.head?, isBlank c = true ∨ c = ';') : Cut l rest' := by
  have cases {c : Char} (hc : c ∈ rest'.head?) : c = ' ' ∨ c = '\t' ∨ c = '\n' ∨ c = ';' := by
    have := hr c hc
    rw [isBlank_iff] at this
    simpa [or_assoc] using this
  cases h with
  | directive hw => exact .directive hw fun c hc => by rcases cases hc with rfl | rfl | rfl | rfl <;> decide
  | word hd hw => exact .word hd hw fun c hc => by rcases cases hc with rfl | rfl | rfl | rfl <;> decide
  | number hd hb =>
    refine .number hd hb (fun c hc => by rcases cases hc with rfl | rfl | rfl | rfl <;> decide) fun hf => ?_
    rcases cases hf with h | h | h | h <;> exact absurd h (by decide)
  | marked hd hb => exact .marked hd hb
  | blank => simp [whole] at hk
  | string ht => exact .string ht
  | unclosed => simp at hu
  | single hash letter digit blank quote => exact .single hash letter digit blank quote

/-- A lexeme in front of a text is its first one. -/
theorem textLexemes_source (h : Cut l rest) (hk : l.kind ≠ .whitespace) (hu : l.unclosed = false)
    (hn : '\n' ∉ l.source) : textLexemes (l.source ++ rest) = l :: textLexemes rest := by
  have front : ∀ c ∈ l.source, decide (c ≠ '\n') = true := by
    intro c hc
    simpa using fun heq : c = '\n' => hn (heq ▸ hc)
  have first : Text.content (l.source ++ rest) = l.source ++ Text.content rest :=
    List.takeWhile_append_of_pos front
  have left : (l.source ++ rest).dropWhile (fun c => decide (c ≠ '\n')) = rest.dropWhile fun c => decide (c ≠ '\n') :=
    List.dropWhile_append_of_pos front
  have cut : Cut l (Text.content rest) := by
    cases rest with
    | nil => exact h
    | cons c rest =>
      by_cases hc : c = '\n'
      · subst hc
        exact h.of_break hu hk (by simp [Text.content])
      · exact h.congr_head hu (by simp [Text.content, hc])
  have line : lineLexemes (l.source ++ Text.content rest) = l :: lineLexemes (Text.content rest) := by
    obtain ⟨c, cs, hs⟩ := List.exists_cons_of_ne_nil h.source_ne_nil
    rw [lineLexemes, hs, List.cons_append, lexemes_cons, cut.first_eq (by rw [hs, List.cons_append]),
      List.filter_cons_of_pos (by simpa using hk)]
    rfl
  rw [textLexemes_eq (l.source ++ rest), first, left, line, List.cons_append, ← textLexemes_eq rest]

end Lexeme.Cut

/-! ### Legible tokens -/

namespace Token

/-- What a token is cut out as, where a string has both its quotes. -/
def lexeme (t : Token) : Lexeme :=
  .whole t.kind t.text.toList

theorem source_lexeme (t : Token) : t.lexeme.source = t.render.toList := by
  by_cases h : t.kind = .string <;> simp [lexeme, Lexeme.source, Lexeme.render, Lexeme.whole, render, h]

/-- The token could be cut out by itself. -/
structure Proper (t : Token) : Prop where
  /-- Blanks are blanks. -/
  blank : t.isBlank = true → t.text.toList ≠ [] ∧ ∀ c ∈ t.text.toList, ShaderWeave.isBlank c = true
  /-- Anything else is cut off where nothing follows, and it is on one line. -/
  solid : t.isBlank = false → Lexeme.Cut t.lexeme [] ∧ '\n' ∉ t.render.toList

/-- The token does not go on into the one after it. -/
def Apart (t u : Token) : Prop :=
  t.isBlank = false → Lexeme.Cut t.lexeme u.render.toList

/-- The token ends any other before it. -/
def IsBreak (t : Token) : Prop :=
  t.isBlank = true ∨ t.kind = .semicolon

theorem toList_render_of_isBlank {t : Token} (h : t.isBlank = true) : t.render.toList = t.text.toList := by
  have hk : t.kind ≠ .string := by
    intro hk
    simp [isBlank, hk] at h
  rw [render, if_neg hk]

namespace Proper

variable {t u : Token}

theorem render_ne_nil (h : t.Proper) : t.render.toList ≠ [] := by
  cases hb : t.isBlank with
  | true =>
    rw [toList_render_of_isBlank hb]
    exact (h.blank hb).1
  | false =>
    rw [← source_lexeme]
    exact (h.solid hb).1.source_ne_nil

/-- A token that ends any other begins with a blank or a semicolon. -/
theorem head?_of_isBreak (h : t.Proper) (hb : t.IsBreak) :
    ∀ c ∈ t.render.toList.head?, ShaderWeave.isBlank c = true ∨ c = ';' := by
  intro c hc
  rcases hb with hb | hk
  · rw [toList_render_of_isBlank hb] at hc
    exact .inl ((h.blank hb).2 c (List.mem_of_mem_head? hc))
  · have solid : t.isBlank = false := decide_eq_false (by simp [hk])
    rw [← source_lexeme, (h.solid solid).1.source_of_semicolon hk] at hc
    exact .inr (Option.some.inj hc).symm

/-- Where a token follows that ends any other, nothing goes on. -/
theorem apart_of_isBreak (h : t.Proper) (hu : u.Proper) (hb : u.IsBreak) : t.Apart u := by
  intro ht
  exact (h.solid ht).1.of_break rfl (of_decide_eq_false ht) (hu.head?_of_isBreak hb)

end Proper

end Token

/-- Tokens of which none goes on into the next one. -/
inductive Legible : List Token → Prop
  /-- There is none. -/
  | nil : Legible []
  /-- One is followed by others. -/
  | cons {t : Token} {ts : List Token} (ht : t.Proper) (ha : ∀ u ∈ ts.head?, t.Apart u) (h : Legible ts) :
    Legible (t :: ts)

theorem Legible.proper_of_head? {ts : List Token} (h : Legible ts) : ∀ u ∈ ts.head?, u.Proper := by
  intro u hu
  cases h with
  | nil => simp at hu
  | cons ht => exact Option.some.inj hu ▸ ht

theorem Legible.proper {ts : List Token} (h : Legible ts) : ∀ t ∈ ts, t.Proper := by
  induction h with
  | nil => simp
  | cons ht _ _ ih => exact List.forall_mem_cons.2 ⟨ht, ih⟩

theorem Legible.drop {ts : List Token} (h : Legible ts) (n : Nat) : Legible (ts.drop n) := by
  induction n generalizing ts with
  | zero => exact h
  | succ n ih =>
    cases h with
    | nil => exact .nil
    | cons _ _ h => exact ih h

/-- **Legible tokens that are written are cut again as they were.** -/
theorem textLexemes_rendered {ts : List Token} (h : Legible ts) :
    textLexemes (rendered ts) = (significant ts).map Token.lexeme := by
  induction h with
  | nil => rfl
  | @cons t ts ht apart h rest =>
    rw [rendered, List.flatMap_cons, ← rendered]
    cases hb : t.isBlank with
    | true =>
      have blanks (cs : List Char) (hc : ∀ c ∈ cs, isBlank c = true) :
          textLexemes (cs ++ rendered ts) = textLexemes (rendered ts) := by
        induction cs with
        | nil => rfl
        | cons c cs ih =>
          obtain ⟨hc, hcs⟩ := List.forall_mem_cons.1 hc
          rw [List.cons_append, textLexemes_of_isBlank hc, ih hcs]
      rw [Token.toList_render_of_isBlank hb, blanks _ (ht.blank hb).2, rest]
      simp [significant, hb]
    | false =>
      have cut : Lexeme.Cut t.lexeme (rendered ts) := by
        cases ts with
        | nil => exact (ht.solid hb).1
        | cons u ts =>
          have hu : u.Proper := h.proper_of_head? u rfl
          refine (apart u rfl hb).congr_head rfl ?_
          rw [rendered, List.flatMap_cons, List.head?_append,
            Option.or_of_isSome (List.isSome_head?.2 hu.render_ne_nil)]
      have line := (ht.solid hb).2
      rw [← Token.source_lexeme] at line ⊢
      rw [cut.textLexemes_source (of_decide_eq_false hb) rfl line, rest]
      simp [significant, hb]

/-! ### Tokens of a text are legible -/

namespace Lexeme

theorem exists_cut {cs : List Char} {l : Lexeme} (h : l ∈ lexemes cs) : ∃ rest, Cut l rest := by
  induction cs using lexemes.induct with
  | case1 => simp at h
  | case2 c cs ih =>
    rw [lexemes_cons] at h
    rcases List.mem_cons.1 h with rfl | h
    · exact ⟨_, (cut_first c cs).1⟩
    · exact ih h

/-- Only strings are left open. -/
theorem Cut.kind_of_unclosed {l : Lexeme} {rest : List Char} (h : Cut l rest) (hu : l.unclosed = true) :
    l.kind = .string := by
  cases h with
  | unclosed => rfl
  | _ => simp [whole] at hu

theorem lexeme_token {l : Lexeme} (hu : l.unclosed = false) (n : Nat) : (l.token n).lexeme = l := by
  obtain ⟨kind, text, _⟩ := l
  obtain rfl : _ = false := hu
  simp [token, Token.lexeme, whole]

theorem Cut.proper {l : Lexeme} {rest : List Char} (h : Cut l rest) (hu : l.unclosed = false) (hn : '\n' ∉ l.source)
    (n : Nat) : (l.token n).Proper where
  blank hb := by
    simpa [token] using h.blank_of_kind (of_decide_eq_true hb)
  solid hb := by
    rw [← Token.source_lexeme, lexeme_token hu]
    exact ⟨h.of_break hu (of_decide_eq_false hb) (by simp), hn⟩

end Lexeme

theorem isBlank_newline (n : Nat) : (Token.newline n).isBlank = true := rfl

theorem proper_newline (n : Nat) : (Token.newline n).Proper where
  blank _ := by simp [Token.newline, isBlank]
  solid h := absurd h (by simp [isBlank_newline])

/-- The tokens of a line are legible if its strings are closed. -/
theorem legible_lineTokens {line : List Char} (n : Nat) {more : List Token} (hn : '\n' ∉ line)
    (hu : ∀ l ∈ lexemes line, l.unclosed = false) (hm : Legible more) : Legible (lineTokens line n ++ more) := by
  rw [lineTokens, List.append_assoc, List.singleton_append]
  induction line using lexemes.induct with
  | case1 =>
    rw [lexemes_nil]
    exact .cons (proper_newline n) (fun u _ hb => absurd hb (by simp [isBlank_newline])) hm
  | case2 c cs ih =>
    obtain ⟨cut, hs⟩ := Lexeme.cut_first c cs
    rw [lexemes_cons] at hu ⊢
    obtain ⟨closed, hu'⟩ := List.forall_mem_cons.1 hu
    rw [← hs, List.mem_append, not_or] at hn
    refine .cons (cut.proper closed hn.1 n) (fun u hu hb => ?_) (ih hn.2 hu')
    rw [Lexeme.lexeme_token closed]
    cases hr : (Lexeme.first c cs).2 with
    | nil =>
      rw [hr, lexemes_nil] at hu
      obtain rfl := Option.some.inj hu
      exact cut.of_break closed (of_decide_eq_false hb) (by simp [Token.newline, Token.render, isBlank])
    | cons d ds =>
      rw [hr, lexemes_cons] at hu
      obtain rfl := Option.some.inj hu
      obtain ⟨next, hd⟩ := Lexeme.cut_first d ds
      have closed' : (Lexeme.first d ds).1.unclosed = false := by
        rw [hr, lexemes_cons] at hu'
        exact hu' _ List.mem_cons_self
      rw [hr] at cut
      refine cut.congr_head closed ?_
      rw [← Token.source_lexeme, Lexeme.lexeme_token closed', ← hd, List.head?_append,
        Option.or_of_isSome (List.isSome_head?.2 next.source_ne_nil)]

/-- **The tokens of a text in which all strings are closed are legible.** -/
theorem legible_lex {text : String} (h : unclosedLines text = []) : Legible (lex text) := by
  have lines (ls : List (List Char × Nat)) (hn : ∀ line ∈ ls, '\n' ∉ line.1)
      (hu : ∀ line ∈ ls, ∀ l ∈ lexemes line.1, l.unclosed = false) :
      Legible (ls.flatMap fun line => lineTokens line.1 line.2) := by
    induction ls with
    | nil => exact .nil
    | cons line ls ih =>
      obtain ⟨hn, hns⟩ := List.forall_mem_cons.1 hn
      obtain ⟨hu, hus⟩ := List.forall_mem_cons.1 hu
      rw [List.flatMap_cons]
      exact legible_lineTokens line.2 hn hu (ih hns hus)
  refine lines _ (fun _ => newline_notMem_of_mem_numberedLines) fun line hl l hm => ?_
  have closed := List.filterMap_eq_nil_iff.1 h line hl
  cases hu : l.unclosed with
  | false => rfl
  | true =>
    rw [if_pos (List.any_eq_true.2 ⟨l, hm, hu⟩)] at closed
    simp at closed

/-- **Legible tokens that are written and cut again have the same words, and no string of theirs is left open.** -/
theorem words_lex_rendered {ts : List Token} (h : Legible ts) :
    words (lex (String.ofList (rendered ts))) = words ts ∧ unclosedLines (String.ofList (rendered ts)) = [] := by
  have lexemes := textLexemes_rendered h
  constructor
  · rw [words_lex, String.toList_ofList, lexemes, List.map_map, words]
    congr 1
    funext t
    simp [Lexeme.word, Token.lexeme, Lexeme.whole, Token.word]
  · refine List.filterMap_eq_nil_iff.2 fun line hl => if_neg fun found => ?_
    obtain ⟨l, hm, hu⟩ := List.any_eq_true.1 found
    have solid : l.kind ≠ .whitespace := by
      obtain ⟨rest, cut⟩ := Lexeme.exists_cut hm
      simp [cut.kind_of_unclosed hu]
    have mem : l ∈ textLexemes (rendered ts) := by
      have lines := flatMap_numberedLines lineLexemes (String.ofList (rendered ts))
      rw [String.toList_ofList] at lines
      rw [textLexemes, ← lines]
      exact List.mem_flatMap.2 ⟨line, hl, List.mem_filter.2 ⟨hm, by simpa using solid⟩⟩
    rw [lexemes] at mem
    obtain ⟨t, -, rfl⟩ := List.mem_map.1 mem
    simp [Token.lexeme, Lexeme.whole] at hu

/-! ### Trimming -/

/-- The second tokens are the first without some of them, and with newlines added. A token is left out only where one
comes next that ends any other. -/
inductive Trimmed : List Token → List Token → Prop
  /-- Nothing is left. -/
  | nil : Trimmed [] []
  /-- A token is kept. -/
  | keep (t : Token) {ts us : List Token} (h : Trimmed ts us) : Trimmed (t :: ts) (t :: us)
  /-- A token is left out. -/
  | drop (t : Token) {ts us : List Token} (h : Trimmed ts us) (hb : ∀ u ∈ us.head?, u.IsBreak) : Trimmed (t :: ts) us
  /-- A newline is added. -/
  | newline (n : Nat) {ts us : List Token} (h : Trimmed ts us) : Trimmed ts (.newline n :: us)

namespace Trimmed

variable {ts us : List Token}

/-- What comes first has been first before, or it ends any other. -/
theorem head? (h : Trimmed ts us) : ∀ u ∈ us.head?, ts.head? = some u ∨ u.IsBreak := by
  intro u hu
  cases h with
  | nil => simp at hu
  | keep => exact .inl hu
  | drop _ _ hb => exact .inr (hb u hu)
  | newline =>
    obtain rfl := Option.some.inj hu
    exact .inr (.inl (isBlank_newline _))

/-- **What is left of legible tokens is legible.** -/
theorem legible (h : Trimmed ts us) (hl : Legible ts) : Legible us := by
  induction h with
  | nil => exact hl
  | keep t h ih =>
    obtain ⟨⟩ | ⟨ht, apart, hl⟩ := hl
    have rest := ih hl
    refine .cons ht (fun u hu => ?_) rest
    rcases h.head? u hu with same | hb
    · exact apart u same
    · exact ht.apart_of_isBreak (rest.proper_of_head? u hu) hb
  | drop t h hb ih =>
    obtain ⟨⟩ | ⟨-, -, hl⟩ := hl
    exact ih hl
  | newline n h ih => exact .cons (proper_newline n) (fun u _ hb => absurd hb (by simp [isBlank_newline])) (ih hl)

theorem append_left (xs : List Token) (h : Trimmed ts us) : Trimmed (xs ++ ts) (xs ++ us) := by
  induction xs with
  | nil => exact h
  | cons x xs ih => exact ih.keep x

end Trimmed

end ShaderWeave
