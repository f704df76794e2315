import ShaderWeave.Proofs.Lexing.Lines
import ShaderWeave.Proofs.Weave.Marks

/-!
# How weaves are built

A weave is built by pushing texts and by appending weaves that have been built in the same way. `Weaving` is the record
of these operations. What each of them contributes is a list of marks: a text that is pushed has one place for all its
characters, and a weave that is appended gives each character the place of its line (`Weave.marks`).

The two lists that a weave keeps, its text and the places of its lines, are both read off these marks
(`Weaving.weave_eq_write`). `Weaving.represents` spells out what this means for the text, the lines and their places.
-/

namespace ShaderWeave

/-! ### Lines and where they start -/

namespace Text

/-- The position of the character that starts the line with `k` lines before it. -/
def lineStart (cs : List Char) (k : Nat) : Nat :=
  ((lines cs).take k).flatten.length

theorem lineStart_of_length_le {cs : List Char} {k : Nat} (h : (lines cs).length ≤ k) : lineStart cs k = cs.length := by
  rw [lineStart, List.take_of_length_le h, lines_flatten]

end Text

/-- A character starts a line if it is the first one or comes after a newline. -/
theorem freshAfter_eq_true_iff {ms : List Mark} :
    freshAfter true ms = true ↔ ms = [] ∨ (ms.map Prod.fst).getLast? = some '\n' := by
  rcases List.eq_nil_or_concat ms with rfl | ⟨before, m, rfl⟩
  · simp [freshAfter]
  · simp [freshAfter_append, freshAfter]

namespace Weave

/-! ### What an appended weave contributes -/

/-- The characters of a weave, each with the place of its line. -/
def marks (w : Weave) : List Mark :=
  ((Text.lines w.text.toList).zip w.places.toList).flatMap fun line => line.1.map fun c => (c, line.2)

/-- A line is written like its characters, all with its place. -/
theorem writePiece_of_mem_lines {cs line : List Char} (h : line ∈ Text.lines cs) (w : Weave) (place : Place) :
    w.writePiece line place = w.write (line.map fun c => (c, place)) := by
  induction cs generalizing line w with
  | nil => simp at h
  | cons c cs ih =>
    by_cases hc : c = '\n'
    · subst hc
      rw [Text.lines_newline] at h
      rcases List.mem_cons.1 h with rfl | h
      · exact w.writePiece_newline place
      · exact ih h w
    cases hl : Text.lines cs with
    | nil =>
      rw [Text.lines_eq_nil_iff] at hl
      obtain rfl : line = [c] := by simpa [hl, Text.lines, hc] using h
      exact writePiece_single hc w place
    | cons first rest =>
      rw [Text.lines_cons_of_eq_cons hc hl] at h
      rcases List.mem_cons.1 h with rfl | h
      · have mem : first ∈ Text.lines cs := by simp [hl]
        have filled : first ≠ [] := fun none => Text.nil_notMem_lines cs (none ▸ mem)
        rw [writePiece_cons hc filled w place place, ih mem, List.map_cons, ← write_cons]
      · exact ih (by simp [hl, h]) w

/-- **To append a weave is to write its characters with the places of their lines.** -/
theorem append_eq_write_marks (w other : Weave) : w.append other = w.write other.marks := by
  have pieces (ps : List (List Char × Place)) (h : ∀ p ∈ ps, p.1 ∈ Text.lines other.text.toList) (w : Weave) :
      w.writeAll ps = w.write (ps.flatMap fun line => line.1.map fun c => (c, line.2)) := by
    induction ps generalizing w with
    | nil => simp
    | cons p ps ih =>
      obtain ⟨hp, hps⟩ := List.forall_mem_cons.1 h
      rw [writeAll_cons, writePiece_of_mem_lines hp, ih hps, List.flatMap_cons, write_append]
  exact pieces _ (fun p hp => (List.of_mem_zip hp).1) w

/-- Where every line has a place, no character is lost. -/
theorem map_fst_marks {w : Weave} (h : w.places.size = (Text.lines w.text.toList).length) :
    w.marks.map Prod.fst = w.text.toList := by
  have chars (line : List Char × Place) : (line.1.map fun c => (c, line.2)).map Prod.fst = line.1 := by
    simp [Function.comp_def]
  rw [marks, List.map_flatMap]
  simp only [chars]
  rw [List.flatMap_def, List.map_fst_zip (by simp [h]), Text.lines_flatten]

end Weave

/-! ### Records of operations -/

/-- The operations by which a weave has been built. -/
inductive Weaving where
  /-- Nothing has been written. -/
  | start
  /-- A text that comes from one place has been pushed. -/
  | push (before : Weaving) (text : String) (place : Place)
  /-- Another weave has been appended, maybe a copy of the same. -/
  | append (before other : Weaving)

namespace Weaving

/-- The weave that the operations build. -/
def weave : Weaving → Weave
  | start => .empty
  | push before text place => before.weave.push text place
  | append before other => before.weave.append other.weave

/-- The texts that have been pushed, in order, also into the weaves that were appended. -/
def texts : Weaving → List String
  | start => []
  | push before text _ => before.texts ++ [text]
  | append before other => before.texts ++ other.texts

/-- The characters that the operations contribute, each with the place that was given for it: with the text, or by its
line in the weave that was appended. -/
def contributed : Weaving → List Mark
  | start => []
  | push before text place => before.contributed ++ text.toList.map fun c => (c, place)
  | append before other => before.contributed ++ other.weave.marks

/-- **What is built is what the operations contribute.** -/
theorem weave_eq_write (b : Weaving) : b.weave = Weave.empty.write b.contributed := by
  induction b with
  | start => rw [contributed, Weave.write_nil, weave]
  | push before text place ih => rw [weave, contributed, Weave.push_eq_write, ih, Weave.write_append]
  | append before other ih _ => rw [weave, contributed, Weave.append_eq_write_marks, ih, Weave.write_append]

/-- Every line has a place, however a weave has been built. -/
theorem size_places (b : Weaving) : b.weave.places.size = (Text.lines b.weave.text.toList).length := by
  rw [weave_eq_write]
  exact Weave.size_places_empty_write b.contributed

theorem map_fst_contributed (b : Weaving) : b.contributed.map Prod.fst = b.weave.text.toList := by
  rw [weave_eq_write, Weave.toList_text_empty_write]

/-- The text is what has been pushed. -/
theorem toList_text (b : Weaving) : b.weave.text.toList = b.texts.flatMap String.toList := by
  rw [← map_fst_contributed]
  induction b with
  | start => rfl
  | push before text place ih => simp [contributed, texts, ih, Function.comp_def]
  | append before other ih ih' =>
    rw [contributed, List.map_append, ih, Weave.map_fst_marks other.size_places, ← map_fst_contributed, ih', texts,
      List.flatMap_append]

end Weaving

/-- The text of a weave is made of the given texts, and the characters have been contributed with the given places. -/
structure Weave.Represents (w : Weave) (texts : List String) (ms : List Mark) : Prop where
  /-- The text is all the texts, one after another. -/
  text : w.text.toList = texts.flatMap String.toList
  /-- Each character has been contributed with a place. -/
  chars : w.text.toList = ms.map Prod.fst
  /-- There are as many places as lines: those that a newline ends, and one more if the text does not end with one. -/
  size : w.places.size =
    w.text.toList.count '\n' + if w.text.toList.getLast?.all (· = '\n') then 0 else 1
  /-- The next character starts a line if there is none before it, or a newline. -/
  fresh : w.freshLine = true ↔ w.text = "" ∨ w.text.toList.getLast? = some '\n'
  /-- A line has the place with which its first character was contributed. -/
  place : ∀ k, w.place? (k + 1) = (ms[Text.lineStart w.text.toList k]?).map Prod.snd
  /-- Just the lines of the text have a place, counted from one. -/
  inside : ∀ n, (w.place? n).isSome ↔ 1 ≤ n ∧ n ≤ (Text.lines w.text.toList).length

/-- **A weave represents what has been written, however it has been built.** -/
theorem Weaving.represents (b : Weaving) : b.weave.Represents b.texts b.contributed where
  text := b.toList_text
  chars := b.map_fst_contributed.symm
  size := by rw [b.size_places, Text.length_lines]
  fresh := by
    have fresh : b.weave.freshLine = freshAfter true b.contributed := by rw [b.weave_eq_write]; rfl
    have none : b.weave.text = "" ↔ b.contributed = [] := by
      rw [← String.toList_eq_nil_iff, ← b.map_fst_contributed, List.map_eq_nil_iff]
    rw [fresh, none, ← b.map_fst_contributed, freshAfter_eq_true_iff]
  place k := by
    have line : b.weave.place? (k + 1) = b.weave.places[k]? := by simp [Weave.place?]
    rw [line]
    cases h : b.weave.places[k]? with
    | none =>
      have beyond : (Text.lines b.weave.text.toList).length ≤ k := by
        rw [← b.size_places]
        exact Array.getElem?_eq_none_iff.1 h
      rw [Text.lineStart_of_length_le beyond, ← b.map_fst_contributed, List.length_map]
      simp
    | some place =>
      rw [b.weave_eq_write] at h
      obtain ⟨before, m, after, split, rfl, start⟩ := Weave.exists_mark_of_places_get h
      rw [← b.weave_eq_write] at start
      rw [Text.lineStart, ← start, split]
      simp
  inside n := by
    rw [← b.size_places, Weave.place?]
    cases n with
    | zero => simp
    | succ k =>
      rw [if_neg (Nat.succ_ne_zero k), Nat.add_sub_cancel, isSome_getElem?]
      omega

end ShaderWeave
