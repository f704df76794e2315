import ShaderWeave.LexedFile
import ShaderWeave.Proofs.Lexing.Cuts
import Mathlib.Data.List.Basic

/-!
# Lines are cut apart from each other

A text is cut line by line, so its tokens are told from its lines one at a time. `linesFrom_ended` and `linesFrom_last`
take the first line off a text: one that is ended, and one that is not. Where a text is empty or ends its last line,
another may follow it (`linesFrom_append`), and the lines of that one only get higher numbers (`linesFrom_add`).

The main result, `LexedFile.ofText_local`, says so of tokens and diagnostics, and that those of a line are told by the
content of the line alone: a string that is left open on one line has no say in another.
-/

namespace ShaderWeave

/-! ### Lines by their numbers -/

/-- The lines of a text without their newlines, numbered from `n` on. -/
def linesFrom (n : Nat) (cs : List Char) : List (List Char × Nat) :=
  ((Text.lines cs).map Text.content).zipIdx n

namespace Text

/-- The text is empty, or its last line is ended. -/
def EndsLine (cs : List Char) : Prop :=
  cs = [] ∨ cs.getLast? = some '\n'

theorem EndsLine.cases {cs : List Char} (h : EndsLine cs) : cs = [] ∨ ∃ front, cs = front ++ ['\n'] :=
  h.imp_right List.getLast?_eq_some_iff.1

theorem content_ended {line : List Char} (h : '\n' ∉ line) (rest : List Char) :
    content (line ++ '\n' :: rest) = line := by
  have ends : Ends (fun c => decide (c ≠ '\n')) ('\n' :: rest) := by simp [Ends]
  refine ends.takeWhile_append fun c hc => ?_
  simpa using fun heq : c = '\n' => h (heq ▸ hc)

theorem content_of_notMem {line : List Char} (h : '\n' ∉ line) : content line = line := by
  have taken : ∀ c ∈ line, decide (c ≠ '\n') = true := by
    intro c hc
    simpa using fun heq : c = '\n' => h (heq ▸ hc)
  have whole := (Ends.nil _).takeWhile_append taken
  rwa [List.append_nil] at whole

/-- The lines of a text are those that a newline ends, and one more if the text does not end with a newline. -/
theorem length_lines (cs : List Char) :
    (lines cs).length = cs.count '\n' + if cs.getLast?.all (· = '\n') then 0 else 1 := by
  induction cs with
  | nil => rfl
  | cons c cs ih =>
    by_cases hc : c = '\n'
    · subst hc
      rw [lines_newline, List.length_cons, ih, List.count_cons_self, List.getLast?_cons]
      cases cs.getLast? <;> simp [Nat.add_right_comm]
    cases h : lines cs with
    | nil =>
      rw [lines_eq_nil_iff] at h
      simp [h, lines, hc]
    | cons line rest =>
      obtain ⟨d, ds, rfl⟩ : ∃ d ds, cs = d :: ds := by
        refine List.exists_cons_of_ne_nil fun hn => ?_
        simp [hn] at h
      rw [lines_cons_of_eq_cons hc h, List.length_cons, ← List.length_cons (a := line), ← h, ih,
        List.count_cons_of_ne hc, List.getLast?_cons_cons]

/-- There are as many lines as newlines if the last line is ended. -/
theorem length_lines_of_endsLine {cs : List Char} (h : EndsLine cs) : (lines cs).length = cs.count '\n' := by
  rw [length_lines]
  obtain rfl | h := h
  · rfl
  · simp [h]

end Text

/-- The first line of a text that ends it. -/
theorem linesFrom_ended (n : Nat) {line : List Char} (h : '\n' ∉ line) (rest : List Char) :
    linesFrom n (line ++ '\n' :: rest) = (line, n) :: linesFrom (n + 1) rest := by
  rw [linesFrom, Text.lines_append, Text.lines_of_notMem h, List.singleton_append, List.map_cons,
    Text.content_ended h, List.zipIdx_cons]
  rfl

/-- The only line of a text that does not end it. -/
theorem linesFrom_last (n : Nat) {line : List Char} (h : '\n' ∉ line) (hl : line ≠ []) :
    linesFrom n line = [(line, n)] := by
  rw [linesFrom, Text.lines_of_notMem_of_ne_nil h hl, List.map_singleton, Text.content_of_notMem h]
  rfl

/-- A text that ends its last line keeps its lines apart from those of a text that follows. -/
theorem linesFrom_append (n : Nat) {cs : List Char} (h : Text.EndsLine cs) (ds : List Char) :
    linesFrom n (cs ++ ds) = linesFrom n cs ++ linesFrom (n + cs.count '\n') ds := by
  obtain rfl | ⟨front, rfl⟩ := h.cases
  · rfl
  · rw [← Text.length_lines_of_endsLine h, linesFrom, linesFrom, linesFrom, List.append_assoc, List.singleton_append,
      Text.lines_append, List.map_append, List.zipIdx_append, List.length_map]

/-- The lines of a text do not depend on the number of its first one. -/
theorem linesFrom_add (n m : Nat) (cs : List Char) :
    linesFrom (n + m) cs = (linesFrom n cs).map fun line => (line.1, line.2 + m) := by
  rw [linesFrom, linesFrom]
  induction (Text.lines cs).map Text.content generalizing n with
  | nil => rfl
  | cons line ls ih => rw [List.zipIdx_cons, List.zipIdx_cons, List.map_cons, Nat.add_right_comm, ih]

/-! ### Tokens and diagnostics by lines -/

/-- The token, so many lines further down. -/
def Token.down (n : Nat) (t : Token) : Token :=
  { t with line := t.line + n }

/-- The diagnostic, so many lines further down. -/
def Diagnostic.down (n : Nat) (d : Diagnostic) : Diagnostic :=
  { d with line := d.line + n }

/-- What is wrong with one line of a file. -/
def lineDiagnostics (file : String) (line : List Char) (number : Nat) : List Diagnostic :=
  if (lexemes line).any Lexeme.unclosed then [⟨file, number, .unclosedString⟩] else []

theorem tokens_ofText (file text : String) :
    (LexedFile.ofText file text).tokens = (linesFrom 1 text.toList).flatMap fun line => lineTokens line.1 line.2 := rfl

theorem diagnostics_ofText (file text : String) :
    (LexedFile.ofText file text).diagnostics =
      (linesFrom 1 text.toList).flatMap fun line => lineDiagnostics file line.1 line.2 := by
  rw [LexedFile.ofText, unclosedLines, List.map_filterMap, List.filterMap_eq_flatMap_toList]
  refine congrArg (List.flatMap · _) (funext fun line => ?_)
  rw [lineDiagnostics]
  split <;> rfl

theorem lineTokens_add (line : List Char) (n m : Nat) :
    lineTokens line (n + m) = (lineTokens line n).map (Token.down m) := by
  simp only [lineTokens, List.map_append, List.map_map]
  rfl

theorem lineDiagnostics_add (file : String) (line : List Char) (n m : Nat) :
    lineDiagnostics file line (n + m) = (lineDiagnostics file line n).map (Diagnostic.down m) := by
  simp only [lineDiagnostics]
  split <;> rfl

theorem line_of_mem_lineTokens {line : List Char} {n : Nat} {t : Token} (h : t ∈ lineTokens line n) : t.line = n := by
  rcases List.mem_append.1 h with h | h
  · obtain ⟨l, -, rfl⟩ := List.mem_map.1 h
    rfl
  · rw [List.mem_singleton.1 h]
    rfl

theorem line_of_mem_lineDiagnostics {file : String} {line : List Char} {n : Nat} {d : Diagnostic}
    (h : d ∈ lineDiagnostics file line n) : d.line = n := by
  rw [lineDiagnostics] at h
  split at h
  · rw [List.mem_singleton.1 h]
  · exact absurd h List.not_mem_nil

section Parts

/-! What is told line by line, such as tokens and diagnostics. -/

variable {α : Type} {part : List Char → Nat → List α} {number : α → Nat} {down : Nat → α → α}

/-- What is told line by line of a text that follows another is the same further down. -/
theorem flatMap_linesFrom_append (add : ∀ line n m, part line (n + m) = (part line n).map (down m)) (n : Nat)
    {cs : List Char} (h : Text.EndsLine cs) (ds : List Char) :
    (linesFrom n (cs ++ ds)).flatMap (fun line => part line.1 line.2) =
      (linesFrom n cs).flatMap (fun line => part line.1 line.2) ++
        ((linesFrom n ds).flatMap fun line => part line.1 line.2).map (down (cs.count '\n')) := by
  rw [linesFrom_append n h, List.flatMap_append, linesFrom_add, List.flatMap_map, List.map_flatMap]
  simp only [add]

/-- What is told of one line is found under its number. -/
theorem filter_flatMap_linesFrom (here : ∀ line n, ∀ a ∈ part line n, number a = n) (n k : Nat) (cs : List Char) :
    ((linesFrom n cs).flatMap fun line => part line.1 line.2).filter (fun a => number a = n + k) =
      (((Text.lines cs)[k]?).map Text.content).toList.flatMap fun line => part line (n + k) := by
  rw [linesFrom, ← List.getElem?_map]
  induction (Text.lines cs).map Text.content generalizing n k with
  | nil => rfl
  | cons line ls ih =>
    rw [List.zipIdx_cons, List.flatMap_cons, List.filter_append]
    cases k with
    | zero =>
      have this : (part line n).filter (fun a => number a = n + 0) = part line n :=
        List.filter_eq_self.2 fun a ha => by simpa using here line n a ha
      have others : ((ls.zipIdx (n + 1)).flatMap fun line => part line.1 line.2).filter
          (fun a => number a = n + 0) = [] := by
        refine List.filter_eq_nil_iff.2 fun a ha => ?_
        obtain ⟨other, ho, ha⟩ := List.mem_flatMap.1 ha
        have below := (List.mem_zipIdx ho).1
        rw [here _ _ a ha, decide_eq_true_iff]
        omega
      rw [this, others]
      simp
    | succ k =>
      have this : (part line n).filter (fun a => number a = n + (k + 1)) = [] := by
        refine List.filter_eq_nil_iff.2 fun a ha => ?_
        rw [here line n a ha, decide_eq_true_iff]
        omega
      have others := ih (n + 1) k
      rw [Nat.add_right_comm, Nat.add_assoc] at others
      rw [this, others]
      rfl

end Parts

/-! ### The main result -/

/-- The content of the line with the given number. -/
def lineAt (text : String) : Nat → Option (List Char)
  | 0 => none
  | k + 1 => ((Text.lines text.toList)[k]?).map Text.content

section Numbered

variable {α : Type} {part : List Char → Nat → List α} {number : α → Nat}

/-- What is told under a number is told of the line with that number. -/
theorem filter_numbered (here : ∀ line n, ∀ a ∈ part line n, number a = n) (text : String) (k : Nat) :
    ((linesFrom 1 text.toList).flatMap fun line => part line.1 line.2).filter (fun a => number a = k) =
      (lineAt text k).toList.flatMap fun line => part line k := by
  cases k with
  | zero =>
    refine List.filter_eq_nil_iff.2 fun a ha => ?_
    obtain ⟨line, hl, ha⟩ := List.mem_flatMap.1 ha
    have below := (List.mem_zipIdx hl).1
    rw [here _ _ a ha, decide_eq_true_iff]
    omega
  | succ k =>
    have here := filter_flatMap_linesFrom here 1 k text.toList
    rwa [Nat.add_comm 1 k] at here

end Numbered

/-- **Lines are cut apart from each other.** Where a text is empty or ends its last line, another that follows it is
cut as it is by itself: its tokens and diagnostics come after those of the first, as many lines further down as the
first has newlines. And the tokens and diagnostics of a line are told by the content of that line, so no other line has
a say in them. -/
theorem LexedFile.ofText_local (file : String) :
    (∀ s t : String, Text.EndsLine s.toList →
      let n := s.toList.count '\n'
      (ofText file (s ++ t)).tokens = (ofText file s).tokens ++ (ofText file t).tokens.map (Token.down n) ∧
        (ofText file (s ++ t)).diagnostics =
          (ofText file s).diagnostics ++ (ofText file t).diagnostics.map (Diagnostic.down n)) ∧
      ∀ (s t : String) (k : Nat), lineAt s k = lineAt t k →
        (ofText file s).tokens.filter (fun u => u.line = k) = (ofText file t).tokens.filter (fun u => u.line = k) ∧
          (ofText file s).diagnostics.filter (fun d => d.line = k) =
            (ofText file t).diagnostics.filter (fun d => d.line = k) := by
  constructor
  · intro s t ends n
    simp only [tokens_ofText, diagnostics_ofText, String.toList_append]
    exact ⟨flatMap_linesFrom_append lineTokens_add 1 ends t.toList,
      flatMap_linesFrom_append (lineDiagnostics_add file) 1 ends t.toList⟩
  · intro s t k same
    simp only [tokens_ofText, diagnostics_ofText]
    have tokens : ∀ line n, ∀ u ∈ lineTokens line n, u.line = n := fun _ _ _ => line_of_mem_lineTokens
    have diagnostics : ∀ line n, ∀ d ∈ lineDiagnostics file line n, d.line = n :=
      fun _ _ _ => line_of_mem_lineDiagnostics
    rw [filter_numbered tokens, filter_numbered tokens, filter_numbered diagnostics, filter_numbered diagnostics, same]
    exact ⟨rfl, rfl⟩

/-- A string that is left open at the end of the first text touches nothing of the second, nor of a line that another
text has too. -/
theorem LexedFile.ofText_local_of_unclosed :
    Text.EndsLine "a \"b\n".toList ∧
      (ofText "f" ("a \"b\n" ++ "c\nd")).tokens =
        (ofText "f" "a \"b\n").tokens ++ (ofText "f" "c\nd").tokens.map (Token.down 1) ∧
      lineAt "a \"b\nc" 2 = lineAt "b a\nc" 2 ∧
      (ofText "f" "a \"b\nc").tokens.filter (fun u => u.line = 2) =
        (ofText "f" "b a\nc").tokens.filter (fun u => u.line = 2) :=
  ⟨.inr rfl, ((ofText_local "f").1 "a \"b\n" "c\nd" (.inr rfl)).1, rfl,
    ((ofText_local "f").2 "a \"b\nc" "b a\nc" 2 rfl).1⟩

end ShaderWeave
