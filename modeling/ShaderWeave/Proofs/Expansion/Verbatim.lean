import ShaderWeave.Proofs.Expansion.Transcript
import ShaderWeave.Proofs.Lexing.Mending
import ShaderWeave.Provider.Memory

/-!
# Files that are copied

A file in which no token starts a longer construct is its own expansion. What can differ is told by the text alone: a
quote is added at the end of each line with an odd number of them, and a newline at the end of the last line if it
lacks one. The main result, `expandFile_verbatim`, says so for every text, with the places of the lines and the
problems that are reported.
-/

namespace ShaderWeave

/-! ### Lines that are written -/

/-- A whole line has one place, and after it a line starts. -/
theorem lineStarts_line (fresh : Bool) {line : List Char} (h : '\n' ∉ line) (place : Place) :
    lineStarts fresh ((line ++ ['\n']).map fun c => (c, place)) = (if fresh then [place] else []) ∧
      freshAfter fresh ((line ++ ['\n']).map fun c => (c, place)) = true := by
  induction line generalizing fresh with
  | nil => simp [lineStarts, freshAfter]
  | cons c line ih =>
    have hc : ¬ c = '\n' := fun hc => h (by simp [hc])
    have rest := ih false fun hm => h (List.mem_cons_of_mem _ hm)
    simp only [List.cons_append, List.map_cons, lineStarts, freshAfter, hc, decide_false, rest]
    simp

/-- The characters of a line that is closed and ended, with its place in the file. -/
def closedMarks (file : Path) (line : List Char × Nat) : List Mark :=
  (closeQuote line.1 ++ ['\n']).map fun c => (c, ⟨file.text, line.2⟩)

theorem map_fst_closedMarks (file : Path) (line : List Char × Nat) :
    (closedMarks file line).map Prod.fst = closeQuote line.1 ++ ['\n'] := by
  rw [closedMarks, List.map_map]
  exact List.map_id _

/-- The tokens of a line write the line. -/
theorem flatMap_marks_lineTokens (file : Path) (line : List Char) (n : Nat) :
    (lineTokens line n).flatMap (Token.marks file) = closedMarks file (line, n) := by
  have lexeme (l : Lexeme) : (l.token n).marks file = l.render.map fun c => (c, ⟨file.text, n⟩) := by
    rw [Token.marks, Lexeme.toList_render_token]
    rfl
  have newline : (Token.newline n).marks file = [('\n', ⟨file.text, n⟩)] := by
    simp [Token.marks, Token.newline, Token.render]
  rw [lineTokens, List.flatMap_append, List.flatMap_map, closedMarks, List.map_append, ← flatMap_render_lexemes,
    List.map_flatMap]
  simp [lexeme, newline]

theorem flatMap_marks_lex (file : Path) (text : String) :
    (lex text).flatMap (Token.marks file) = (numberedLines text).flatMap (closedMarks file) := by
  rw [lex, List.flatMap_assoc]
  simp only [flatMap_marks_lineTokens]

/-- Whole lines have their places one by one. -/
theorem lineStarts_closedMarks (file : Path) {numbered : List (List Char × Nat)}
    (h : ∀ line ∈ numbered, '\n' ∉ line.1) :
    lineStarts true (numbered.flatMap (closedMarks file)) = numbered.map fun line => ⟨file.text, line.2⟩ := by
  induction numbered with
  | nil => rfl
  | cons line numbered ih =>
    obtain ⟨starts, fresh⟩ := lineStarts_line true (newline_notMem_closeQuote (h line List.mem_cons_self))
      ⟨file.text, line.2⟩
    have rest := ih fun other ho => h other (List.mem_cons_of_mem _ ho)
    rw [List.flatMap_cons, lineStarts_append, closedMarks, starts, fresh, rest]
    rfl

/-- All lines, closed and ended, are the text with its quotes closed and its last line ended. -/
theorem map_fst_flatMap_closedMarks (file : Path) (text : String) :
    ((numberedLines text).flatMap (closedMarks file)).map Prod.fst =
      Text.closeQuotes (Text.endLast text.toList) := by
  rw [Text.closeQuotes_endLast, List.map_flatMap]
  simp only [map_fst_closedMarks]
  rw [← List.flatMap_map Prod.fst fun line => closeQuote line ++ ['\n'], map_fst_numberedLines, List.flatMap_map]

/-- The number of a line is its position, counted from one. -/
theorem snd_of_numberedLines_get {text : String} {k : Nat} {line : List Char × Nat}
    (h : (numberedLines text)[k]? = some line) : line.2 = k + 1 := by
  rw [numberedLines, List.getElem?_zipIdx] at h
  obtain ⟨cs, -, rfl⟩ := Option.map_eq_some_iff.1 h
  exact Nat.add_comm 1 k

/-! ### The main result -/

variable {σ : Type}

/-- Nothing is written before the first construct. -/
theorem marks_opening (file path : Path) (text : String) :
    (Journal.emissions file (opening path text)).flatMap Emission.marks = [] := by
  refine List.flatMap_eq_nil_iff.2 fun x hx => ?_
  rw [Emission.marks, written?_of_mem_opening hx]
  rfl

/-- Tokens that are copied write themselves. -/
theorem marks_map_copy (file : Path) (ts : List Token) :
    (Journal.emissions file ((ts.map .copy).map .output)).flatMap Emission.marks = ts.flatMap (Token.marks file) := by
  rw [Journal.emissions_map_output, List.map_map, List.flatMap_map]
  rfl

/-- **A file in which no token starts a longer construct is copied.** Each line with an odd number of quotes gets one
more, and the last line gets a newline if it lacks one. Each line comes from the line of the same number, nothing is
declared and no file is opened, and the lines that got a quote are reported one by one. -/
theorem expandFile_verbatim (provider : Provider σ) (depth : Nat) (r : FileRequest) (store : σ) (text : String)
    (hn : r.path.namesFile = true) (hl : (provider.load store r.path).1 = .ok text)
    (hp : ∀ t ∈ lex text, t.role = .plain) :
    let e := expandFile provider (depth + 1) r store
    let woven := Journal.woven r.path e.journal
    woven.text = String.ofList (Text.closeQuotes (Text.endLast text.toList)) ∧
      woven.places.size = (Text.lines woven.text.toList).length ∧
      (∀ k, 1 ≤ k → k ≤ (Text.lines woven.text.toList).length → woven.place? k = some ⟨r.path.text, k⟩) ∧
      e.result.scope = r.scope ∧ e.result.chain = r.chain ∧
      Journal.diagnostics r.path e.journal = (oddLines text).map fun k => ⟨r.path.text, k, .unclosedString⟩ := by
  intro e woven
  have transcript : Transcript r.scope (lex text) r.scope ((lex text).map .copy) :=
    .of_plain r.scope hp
  have opened : e = r.conclude (r.initial (provider.load store r.path).2)
      (opening r.path text ++ ((lex text).map .copy).map .output) :=
    expandFile_of_transcript depth hn hl transcript
  have marks : woven = Weave.empty.write ((numberedLines text).flatMap (closedMarks r.path)) := by
    rw [← flatMap_marks_lex, show woven = Journal.woven r.path e.journal from rfl, opened, FileRequest.conclude,
      Journal.woven_eq_write, Journal.emissions_append, List.flatMap_append, marks_opening, marks_map_copy,
      List.nil_append]
  have starts : woven.places.toList = (numberedLines text).map fun line => ⟨r.path.text, line.2⟩ := by
    rw [marks, Weave.toList_places_empty_write]
    exact lineStarts_closedMarks r.path fun _ => newline_notMem_of_mem_numberedLines
  have size : woven.places.size = (Text.lines woven.text.toList).length := by
    rw [marks]
    exact Weave.size_places_empty_write _
  refine ⟨?_, size, ?_, ?_, ?_, ?_⟩
  · rw [← String.toList_inj, String.toList_ofList, marks, Weave.toList_text_empty_write, map_fst_flatMap_closedMarks]
  · intro k h1 hk
    rw [← size, ← Array.length_toList, starts, List.length_map] at hk
    have bound : k - 1 < (numberedLines text).length := by omega
    have number := snd_of_numberedLines_get (List.getElem?_eq_getElem bound)
    rw [Weave.place?, if_neg (Nat.ne_of_gt h1), ← Array.getElem?_toList, starts, List.getElem?_map,
      List.getElem?_eq_getElem bound, Option.map_some, number, Nat.sub_add_cancel h1]
  · rw [opened]
    rfl
  · rw [opened]
    rfl
  · rw [opened, FileRequest.conclude, Journal.diagnostics_append, diagnostics_opening, unclosedLines_eq_oddLines,
      Journal.diagnostics_map_output]
    simp [List.filterMap_map, Function.comp_def, Output.fault?]

/-- A file whose first line has a carriage return in a string that is left open, and whose last line has no newline. -/
def unclosedFile : MemoryFiles :=
  MemoryFiles.empty.put "a.glsl" [some "x \"y\r\n1.5f;"]

/-- The string is closed behind the carriage return. -/
theorem expandFile_verbatim_unclosed :
    let r : FileRequest := ⟨⟨"a.glsl"⟩, false, .empty, .empty⟩
    let e := expandFile MemoryFiles.provider 1 r unclosedFile
    (∀ t ∈ lex "x \"y\r\n1.5f;", t.role = .plain) ∧
      (Journal.woven r.path e.journal).text = "x \"y\r\"\n1.5f;\n" ∧
      (Journal.woven r.path e.journal).place? 2 = some ⟨"a.glsl", 2⟩ ∧ e.result.chain = .empty ∧
      Journal.diagnostics r.path e.journal = [⟨"a.glsl", 1, .unclosedString⟩] := by
  intro r e
  have plain : ∀ t ∈ lex "x \"y\r\n1.5f;", t.role = .plain := by decide +kernel
  have loaded : (MemoryFiles.provider.load unclosedFile ⟨"a.glsl"⟩).1 = .ok "x \"y\r\n1.5f;" := by rfl
  obtain ⟨text, -, places, -, chain, diagnostics⟩ :=
    expandFile_verbatim MemoryFiles.provider 0 r unclosedFile _ (by decide +kernel) loaded plain
  have text : (Journal.woven r.path e.journal).text = "x \"y\r\"\n1.5f;\n" := text.trans (by decide +kernel)
  refine ⟨plain, text, places 2 (by omega) ?_, chain, diagnostics.trans (by decide +kernel)⟩
  rw [show (Journal.woven r.path (expandFile MemoryFiles.provider (0 + 1) r unclosedFile).journal).text = _ from text]
  decide +kernel

end ShaderWeave
