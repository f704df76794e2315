import ShaderWeave.Proofs.Lexing.Lines
import ShaderWeave.Proofs.Lexing.Relexing

/-!
# Texts that are mended

A text is mended by a quote at the end of each line with an odd number of quotes, and by a newline at its end where its
last line lacks one. Nothing else is lost or added when a text is cut: its tokens, written one after another, are the
mended text.

A quote at the end of a line closes the string that was left open there and touches no other lexeme
(`lexemes_closeQuote`), and the lines of the mended text are the lines of the text, each closed and ended
(`numberedLines_mended`). So the mended text is cut into the very same tokens, and it needs no mending. The main result,
`LexedFile.ofText_rendered`, puts this together.
-/

namespace ShaderWeave

namespace Text

/-- A line with its last string closed. The quote stands before the newline. -/
def closeLine (line : List Char) : List Char :=
  closeQuote (content line) ++ line.dropWhile (· ≠ '\n')

/-- The text with a quote added to each line that has an odd number of them. -/
def closeQuotes (cs : List Char) : List Char :=
  (lines cs).flatMap closeLine

/-- The text with a newline at its end. A text without lines has none to end. -/
def endLast (cs : List Char) : List Char :=
  if cs.getLast?.all (· = '\n') then cs else cs ++ ['\n']

theorem endLast_newline (cs : List Char) : endLast ('\n' :: cs) = '\n' :: endLast cs := by
  cases cs with
  | nil => rfl
  | cons d cs => rw [endLast, endLast, List.getLast?_cons_cons]; split <;> rfl

theorem endLast_cons {c : Char} {cs : List Char} (h : cs ≠ []) : endLast (c :: cs) = c :: endLast cs := by
  obtain ⟨d, ds, rfl⟩ := List.exists_cons_of_ne_nil h
  rw [endLast, endLast, List.getLast?_cons_cons]
  split <;> rfl

/-- A text with a newline at its end has the same lines, each with its newline. -/
theorem lines_endLast (cs : List Char) : lines (endLast cs) = (lines cs).map fun line => content line ++ ['\n'] := by
  induction cs with
  | nil => rfl
  | cons c cs ih =>
    by_cases hc : c = '\n'
    · subst hc
      rw [endLast_newline, lines_newline, lines_newline, ih]
      rfl
    cases cs with
    | nil => simp [endLast, lines, content, hc]
    | cons d ds =>
      cases h : lines (d :: ds) with
      | nil => simp [lines_eq_nil_iff] at h
      | cons line rest =>
        rw [h] at ih
        rw [endLast_cons (by simp), lines_cons_of_eq_cons hc ih, lines_cons_of_eq_cons hc h]
        simp [content, hc]

/-- A text that is mended has its lines one by one closed and ended. -/
theorem closeQuotes_endLast (cs : List Char) :
    closeQuotes (endLast cs) = (lines cs).flatMap fun line => closeQuote (content line) ++ ['\n'] := by
  rw [closeQuotes, lines_endLast, List.flatMap_map]
  congr 1
  funext line
  have ends : Ends (fun c => decide (c ≠ '\n')) ['\n'] := by simp [Ends]
  have taken : ∀ c ∈ content line, decide (c ≠ '\n') = true := of_mem_takeWhile
  rw [closeLine, content, ends.takeWhile_append taken, ends.dropWhile_append taken]

/-- Lines that are put together, each with its newline, are the lines of what they make up. -/
theorem lines_flatMap_newline {ls : List (List Char)} (h : ∀ line ∈ ls, '\n' ∉ line) :
    lines (ls.flatMap (· ++ ['\n'])) = ls.map (· ++ ['\n']) := by
  induction ls with
  | nil => rfl
  | cons line ls ih =>
    obtain ⟨hl, hls⟩ := List.forall_mem_cons.1 h
    rw [List.flatMap_cons, List.append_assoc, List.singleton_append, lines_append, lines_of_notMem hl, ih hls]
    rfl

end Text

/-! ### Lines with an odd number of quotes -/

/-- The numbers of the lines with an odd number of quotes. -/
def oddLines (text : String) : List Nat :=
  (numberedLines text).filterMap fun line => if line.1.count '"' % 2 = 1 then some line.2 else none

theorem unclosedLines_eq_oddLines (text : String) : unclosedLines text = oddLines text := by
  simp only [unclosedLines, oddLines, any_unclosed_iff]

/-- A line has the number of its position, counted from one. -/
theorem mem_numberedLines_iff {text : String} {line : List Char} {k : Nat} :
    (line, k) ∈ numberedLines text ↔
      1 ≤ k ∧ ((Text.lines text.toList)[k - 1]?).map Text.content = some line := by
  rw [numberedLines, List.mk_mem_zipIdx_iff_le_and_getElem?_sub, List.getElem?_map]

/-- Each line with an odd number of quotes is listed once, in order. -/
theorem pairwise_oddLines (text : String) : (oddLines text).Pairwise (· < ·) := by
  have numbers : ((numberedLines text).map Prod.snd).Pairwise (· < ·) := by
    rw [numberedLines, List.zipIdx_map_snd]
    exact List.pairwise_lt_range'
  rw [oddLines, List.pairwise_filterMap]
  refine (List.pairwise_map.1 numbers).imp fun {line line'} lt k hk k' hk' => ?_
  obtain rfl := Option.some.inj (Option.ite_none_right_eq_some.1 hk).2
  obtain rfl := Option.some.inj (Option.ite_none_right_eq_some.1 hk').2
  exact lt

theorem mem_oddLines_iff {text : String} {k : Nat} :
    k ∈ oddLines text ↔ 1 ≤ k ∧ ∃ line ∈ (Text.lines text.toList)[k - 1]?, (Text.content line).count '"' % 2 = 1 := by
  simp only [oddLines, List.mem_filterMap, Prod.exists, Option.ite_none_right_eq_some, Option.some.injEq]
  constructor
  · rintro ⟨line, k, hl, odd, rfl⟩
    obtain ⟨pos, hl⟩ := mem_numberedLines_iff.1 hl
    obtain ⟨whole, hw, rfl⟩ := Option.map_eq_some_iff.1 hl
    exact ⟨pos, whole, hw, odd⟩
  · rintro ⟨pos, whole, hw, odd⟩
    exact ⟨Text.content whole, k, mem_numberedLines_iff.2 ⟨pos, by rw [hw, Option.map_some]⟩, odd, rfl⟩

theorem newline_notMem_closeQuote {line : List Char} (h : '\n' ∉ line) : '\n' ∉ closeQuote line := by
  rw [closeQuote]
  split
  · simpa using h
  · exact h

/-! ### Lexemes of a closed line -/

namespace Lexeme

/-- The lexeme with its second quote, if it lacks it. -/
def closed (l : Lexeme) : Lexeme :=
  { l with unclosed := false }

theorem head?_closeQuote (cs : List Char) : (closeQuote cs).head? = cs.head? := by
  cases cs with
  | nil => rfl
  | cons c cs =>
    rw [closeQuote]
    split <;> rfl

/-- What is cut off a line is cut off in the same way where the line is closed. -/
theorem Cut.closed {l : Lexeme} {rest : List Char} (h : Cut l rest) : Cut l.closed (closeQuote rest) := by
  cases hu : l.unclosed with
  | true =>
    cases h with
    | unclosed ht => exact .string ht
    | _ => simp [whole] at hu
  | false =>
    have same : l.closed = l := by rw [Lexeme.closed, ← hu]
    rw [same]
    exact h.congr_head hu (head?_closeQuote rest)

/-- A lexeme that is closed is written with both quotes. -/
theorem source_closed (l : Lexeme) : l.closed.source = l.render := rfl

end Lexeme

/-- **The lexemes of a line that is closed are the lexemes of the line, each closed.** -/
theorem lexemes_closeQuote (cs : List Char) : lexemes (closeQuote cs) = (lexemes cs).map Lexeme.closed := by
  induction cs using lexemes.induct with
  | case1 => rw [closeQuote, if_neg (by simp), lexemes_nil, List.map_nil]
  | case2 c cs ih =>
    obtain ⟨cut, -⟩ := Lexeme.cut_first c cs
    have split : closeQuote (c :: cs) = (Lexeme.first c cs).1.closed.source ++ closeQuote (Lexeme.first c cs).2 := by
      rw [Lexeme.source_closed, ← flatMap_render_lexemes, ← flatMap_render_lexemes, lexemes_cons,
        List.flatMap_cons]
    obtain ⟨d, ds, hd⟩ := List.exists_cons_of_ne_nil (List.append_ne_nil_of_left_ne_nil cut.closed.source_ne_nil
      (closeQuote (Lexeme.first c cs).2))
    rw [split, hd, lexemes_cons, cut.closed.first_eq hd, ih, lexemes_cons, List.map_cons]

/-! ### Lines of a mended text -/

/-- The text with its strings closed and its last line ended. -/
def mended (text : String) : String :=
  String.ofList (Text.closeQuotes (Text.endLast text.toList))

/-- The lines of the mended text are the lines of the text, each closed. -/
theorem numberedLines_mended (text : String) :
    numberedLines (mended text) = (numberedLines text).map fun line => (closeQuote line.1, line.2) := by
  have whole : Text.lines (mended text).toList =
      (Text.lines text.toList).map fun line => closeQuote (Text.content line) ++ ['\n'] := by
    have closed : ∀ line ∈ (Text.lines text.toList).map fun line => closeQuote (Text.content line), '\n' ∉ line := by
      simpa using fun line _ => newline_notMem_closeQuote (Text.newline_notMem_content line)
    have ended := Text.lines_flatMap_newline closed
    rw [List.flatMap_map, List.map_map] at ended
    rw [mended, String.toList_ofList, Text.closeQuotes_endLast]
    exact ended
  have contents : (Text.lines (mended text).toList).map Text.content =
      ((Text.lines text.toList).map Text.content).map closeQuote := by
    rw [whole, List.map_map, List.map_map]
    refine List.map_congr_left fun line _ => ?_
    exact Text.content_ended (newline_notMem_closeQuote (Text.newline_notMem_content line)) []
  rw [numberedLines, contents, List.zipIdx_map]
  rfl

/-- A mended text has the tokens of the text. -/
theorem lex_mended (text : String) : lex (mended text) = lex text := by
  rw [lex, numberedLines_mended, List.flatMap_map]
  simp only [lineTokens, lexemes_closeQuote, List.map_map]
  rfl

/-- All strings of a mended text are closed. -/
theorem unclosedLines_mended (text : String) : unclosedLines (mended text) = [] := by
  rw [unclosedLines, numberedLines_mended, List.filterMap_map, List.filterMap_eq_nil_iff]
  intro line _
  simp [lexemes_closeQuote, Lexeme.closed]

theorem rendered_lineTokens (line : List Char) (n : Nat) :
    rendered (lineTokens line n) = closeQuote line ++ ['\n'] := by
  rw [lineTokens, rendered, List.flatMap_append, List.flatMap_map, ← flatMap_render_lexemes]
  simp only [Lexeme.toList_render_token]
  simp [Token.newline, Token.render]

/-- The tokens of a text, written one after another, are the mended text. -/
theorem rendered_lex (text : String) : String.ofList (rendered (lex text)) = mended text := by
  have lines : rendered (lex text) = (numberedLines text).flatMap fun line => closeQuote line.1 ++ ['\n'] := by
    rw [lex, rendered, List.flatMap_assoc]
    congr 1
    funext line
    exact rendered_lineTokens line.1 line.2
  rw [lines, flatMap_numberedLines fun line => closeQuote line ++ ['\n'], mended, Text.closeQuotes_endLast]

/-- **Cutting a text loses nothing, and what is written of its tokens is cut into them again.** The tokens, written one
after another, are the text with a quote added at the end of each line with an odd number of them, and a newline at the
end of the last line if it lacks one. Each of these lines is reported once, under its number. The mended text has the
same tokens on the same lines, and nothing is wrong with it. -/
theorem LexedFile.ofText_rendered (file text : String) :
    let lexed := LexedFile.ofText file text
    let written := String.ofList (rendered lexed.tokens)
    written = String.ofList (Text.closeQuotes (Text.endLast text.toList)) ∧
      lexed.diagnostics = (oddLines text).map (fun k => ⟨file, k, .unclosedString⟩) ∧
      (oddLines text).Pairwise (· < ·) ∧
      (∀ k, k ∈ oddLines text ↔
        1 ≤ k ∧ ∃ line ∈ (Text.lines text.toList)[k - 1]?, (Text.content line).count '"' % 2 = 1) ∧
      LexedFile.ofText file written = ⟨true, lexed.tokens, []⟩ := by
  intro lexed written
  have same : written = mended text := rendered_lex text
  refine ⟨same, ?_, pairwise_oddLines text, fun k => mem_oddLines_iff, ?_⟩
  · rw [← unclosedLines_eq_oddLines]
    rfl
  · rw [same, LexedFile.ofText, lex_mended, unclosedLines_mended]
    rfl

end ShaderWeave
