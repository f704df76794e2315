/-!
# Lines of a text

A line is ended by a newline character, which belongs to it. The last line may lack one.

* `lines_flatten`: the lines of a text, joined, are the text.
* `lines_append`: where a text ends with a newline, another text may follow it without touching its lines.
-/

namespace ShaderWeave.Text

/-- The lines of a text, each with the newline that ends it. No line is empty. -/
def lines : List Char → List (List Char)
  | [] => []
  | c :: cs =>
    if c = '\n' then [c] :: lines cs
    else
      match lines cs with
      | [] => [[c]]
      | line :: rest => (c :: line) :: rest

/-- A line without the newline that ends it. -/
def content (line : List Char) : List Char :=
  line.takeWhile (· ≠ '\n')

@[simp] theorem lines_nil : lines [] = [] := rfl

@[simp] theorem lines_newline (cs : List Char) : lines ('\n' :: cs) = ['\n'] :: lines cs := by
  simp [lines]

/-- Any other character goes on with the first line. -/
theorem lines_cons_of_eq_cons {c : Char} (hc : c ≠ '\n') {cs line : List Char} {rest : List (List Char)}
    (h : lines cs = line :: rest) : lines (c :: cs) = (c :: line) :: rest := by
  rw [lines, if_neg hc, h]

/-- A line that is ended is one line. -/
theorem lines_of_notMem {line : List Char} (h : '\n' ∉ line) : lines (line ++ ['\n']) = [line ++ ['\n']] := by
  induction line with
  | nil => rfl
  | cons c line ih =>
    have hc : c ≠ '\n' := fun hc => h (by simp [hc])
    exact lines_cons_of_eq_cons hc (ih fun hm => h (List.mem_cons_of_mem _ hm))

/-- A line that is not ended is one line unless it is empty. -/
theorem lines_of_notMem_of_ne_nil {line : List Char} (h : '\n' ∉ line) (hl : line ≠ []) : lines line = [line] := by
  induction line with
  | nil => exact absurd rfl hl
  | cons c line ih =>
    have hc : c ≠ '\n' := fun hc => h (by simp [hc])
    cases line with
    | nil => simp [lines, hc]
    | cons d line => exact lines_cons_of_eq_cons hc (ih (fun hm => h (List.mem_cons_of_mem _ hm)) (by simp))

theorem lines_eq_nil_iff {cs : List Char} : lines cs = [] ↔ cs = [] := by
  cases cs with
  | nil => simp
  | cons c cs =>
    simp only [lines, reduceCtorEq, iff_false]
    split
    · simp
    · split <;> simp

theorem lines_flatten (cs : List Char) : (lines cs).flatten = cs := by
  induction cs with
  | nil => rfl
  | cons c cs ih =>
    simp only [lines]
    split
    · simp [ih]
    · split
      · next h => simp [lines_eq_nil_iff.1 h]
      · next h => rw [h] at ih; simp [← ih]

/-- No line is empty. -/
theorem nil_notMem_lines (cs : List Char) : [] ∉ lines cs := by
  induction cs with
  | nil => simp
  | cons c cs ih =>
    simp only [lines]
    split
    · simp [ih]
    · split
      · simp
      · next h =>
        rw [h] at ih
        simp at ih
        simp [ih]

/-- The newline that ends the first text keeps the lines of the second apart from it. -/
theorem lines_append (cs ds : List Char) : lines (cs ++ '\n' :: ds) = lines (cs ++ ['\n']) ++ lines ds := by
  induction cs with
  | nil => simp
  | cons c cs ih =>
    simp only [List.cons_append, lines, ih]
    split
    · rfl
    · cases h : lines (cs ++ ['\n']) with
      | nil => simp [lines_eq_nil_iff] at h
      | cons line rest => rfl

end ShaderWeave.Text
