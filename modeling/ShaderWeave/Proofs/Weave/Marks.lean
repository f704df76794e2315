import ShaderWeave.Journal

/-!
# The characters of a weave

Each character of a weave comes from a place. A `Mark` is a character with its place, and `Weave.write` adds marks one
by one: the characters make up the text, and a line gets the place of its first character.

Both ways to write to a weave amount to this. To push a text is to write its characters, all with the one place
(`push_eq_write`); to append another weave is to write the marks it was made from (`append_eq_write`), so it does not
matter how a weave was put together. What is written during an expansion is thus told by the `Emission`s of its journal
alone, what is put out from which file, in order (`woven_eq_write`).

`exists_mark_of_places_get` says which place a line has: that of the mark with which it starts.
-/

namespace ShaderWeave

/-- A character and the place it comes from. -/
abbrev Mark := Char × Place

/-! ### Where lines start -/

/-- The places of the characters that start a line. The first one does if `fresh` says so. -/
def lineStarts : Bool → List Mark → List Place
  | _, [] => []
  | fresh, m :: ms => (if fresh then [m.2] else []) ++ lineStarts (m.1 = '\n') ms

/-- Whether the next character starts a line, after some others have been written. -/
def freshAfter : Bool → List Mark → Bool
  | fresh, [] => fresh
  | _, m :: ms => freshAfter (m.1 = '\n') ms

theorem lineStarts_append (fresh : Bool) (ms ns : List Mark) :
    lineStarts fresh (ms ++ ns) = lineStarts fresh ms ++ lineStarts (freshAfter fresh ms) ns := by
  induction ms generalizing fresh with
  | nil => rfl
  | cons m ms ih => simp [lineStarts, freshAfter, ih]

theorem freshAfter_append (fresh : Bool) (ms ns : List Mark) :
    freshAfter fresh (ms ++ ns) = freshAfter (freshAfter fresh ms) ns := by
  induction ms generalizing fresh with
  | nil => rfl
  | cons m ms ih => simp [freshAfter, ih]

/-- Only the first character has to know whether it starts a line. -/
theorem lineStarts_true_cons (m : Mark) (ms : List Mark) :
    lineStarts true (m :: ms) = m.2 :: lineStarts false (m :: ms) := by
  simp [lineStarts]

/-- There are as many places as lines, but for a line that has been started before. -/
theorem length_lineStarts (fresh : Bool) (ms : List Mark) :
    (lineStarts fresh ms).length = (Text.lines (ms.map Prod.fst)).length - (if fresh then 0 else 1) := by
  induction ms generalizing fresh with
  | nil => simp [lineStarts]
  | cons m ms ih =>
    rw [lineStarts, List.length_append, ih, List.map_cons, Text.lines]
    by_cases hm : m.1 = '\n'
    · cases fresh <;> simp [hm, Nat.add_comm]
    · cases hl : Text.lines (ms.map Prod.fst) <;> cases fresh <;> simp [hm, Nat.add_comm]

/-- The place of a line is that of the mark with which it starts: before it stand the lines before, and nothing else. -/
theorem exists_mark_of_lineStarts_get {fresh : Bool} {ms : List Mark} {k : Nat} {place : Place}
    (h : (lineStarts fresh ms)[k]? = some place) :
    ∃ before m after, ms = before ++ m :: after ∧ m.2 = place ∧
      before.map Prod.fst = ((Text.lines (ms.map Prod.fst)).take (if fresh then k else k + 1)).flatten := by
  induction ms generalizing fresh k with
  | nil => simp [lineStarts] at h
  | cons m ms ih =>
    -- a line that starts further on has the same lines before it, and those are one more with `m`
    have further {j : Nat} (hj : (lineStarts (m.1 = '\n') ms)[j]? = some place) :
        ∃ before n after, m :: ms = before ++ n :: after ∧ n.2 = place ∧
          before.map Prod.fst = ((Text.lines ((m :: ms).map Prod.fst)).take (j + 1)).flatten := by
      obtain ⟨before, n, after, rfl, hn, hb⟩ := ih hj
      refine ⟨m :: before, n, after, rfl, hn, ?_⟩
      rw [List.map_cons, hb, List.map_cons, Text.lines]
      by_cases hm : m.1 = '\n'
      · simp [hm]
      · cases hl : Text.lines ((before ++ n :: after).map Prod.fst) with
        | nil => simp [Text.lines_eq_nil_iff] at hl
        | cons line rest => simp [hm]
    rw [lineStarts] at h
    cases fresh with
    | false => exact further (by simpa using h)
    | true =>
      cases k with
      | zero => exact ⟨[], m, ms, rfl, by simpa using h, by simp⟩
      | succ k => exact further (by simpa using h)

namespace Weave

/-! ### Writing marks -/

/-- Writes characters, each with its place. -/
def write (w : Weave) (ms : List Mark) : Weave :=
  ⟨w.text ++ String.ofList (ms.map Prod.fst), w.places ++ (lineStarts w.freshLine ms).toArray,
    freshAfter w.freshLine ms⟩

@[simp] theorem write_nil (w : Weave) : w.write [] = w := by
  simp [write, lineStarts, freshAfter]

@[simp] theorem write_append (w : Weave) (ms ns : List Mark) : w.write (ms ++ ns) = (w.write ms).write ns := by
  simp [write, lineStarts_append, freshAfter_append, String.append_assoc]

theorem write_cons (w : Weave) (m : Mark) (ms : List Mark) : w.write (m :: ms) = (w.write [m]).write ms :=
  write_append w [m] ms

theorem toList_text_empty_write (ms : List Mark) : (empty.write ms).text.toList = ms.map Prod.fst := by
  simp [write, empty]

theorem toList_places_empty_write (ms : List Mark) : (empty.write ms).places.toList = lineStarts true ms := by
  simp [write, empty]

/-- The newline that ends a line is a piece of its own. -/
theorem writePiece_newline (w : Weave) (place : Place) : w.writePiece ['\n'] place = w.write [('\n', place)] := by
  cases h : w.freshLine <;> simp [writePiece, write, lineStarts, freshAfter, h]

/-- A piece of a line is written like its first character and the rest of it. -/
theorem writePiece_cons {c : Char} (hc : c ≠ '\n') {piece : List Char} (hp : piece ≠ []) (w : Weave)
    (place other : Place) : w.writePiece (c :: piece) place = (w.write [(c, place)]).writePiece piece other := by
  have last : (c :: piece).getLast? = piece.getLast? := by
    cases piece with
    | nil => exact absurd rfl hp
    | cons d piece => rfl
  have text : w.text ++ (String.singleton c ++ String.ofList piece) = w.text.push c ++ String.ofList piece := by
    rw [← String.append_assoc, String.append_singleton]
  cases h : w.freshLine <;> simp [writePiece, write, lineStarts, freshAfter, h, hc, last, text]

theorem writePiece_single {c : Char} (hc : c ≠ '\n') (w : Weave) (place : Place) :
    w.writePiece [c] place = w.write [(c, place)] := by
  cases h : w.freshLine <;> simp [writePiece, write, lineStarts, freshAfter, h, hc]

@[simp] theorem writeAll_nil (w : Weave) : w.writeAll [] = w := rfl

@[simp] theorem writeAll_cons (w : Weave) (piece : List Char) (place : Place)
    (pieces : List (List Char × Place)) :
    w.writeAll ((piece, place) :: pieces) = (w.writePiece piece place).writeAll pieces := rfl

/-- **Lines with the places of their first characters are as good as all characters with their places.** -/
theorem writeAll_lines (w : Weave) (ms : List Mark) :
    w.writeAll ((Text.lines (ms.map Prod.fst)).zip (lineStarts true ms)) = w.write ms := by
  induction ms generalizing w with
  | nil => simp [lineStarts]
  | cons m ms ih =>
    obtain ⟨c, place⟩ := m
    rw [write_cons, ← ih, List.map_cons, Text.lines]
    by_cases hc : c = '\n'
    · simp [hc, lineStarts, writePiece_newline]
    cases ms with
    | nil => simp [hc, lineStarts, writePiece_single hc]
    | cons n ms =>
      -- the next character goes on with the line, so the line takes its place from this one
      rw [lineStarts_true_cons n ms]
      cases hl : Text.lines ((n :: ms).map Prod.fst) with
      | nil => simp [Text.lines_eq_nil_iff] at hl
      | cons line rest =>
        have hline : line ≠ [] := by
          rintro rfl
          exact Text.nil_notMem_lines ((n :: ms).map Prod.fst) (by rw [hl]; simp)
        simp [hc, lineStarts, writePiece_cons hc hline w place n.2]

/-- To push a text is to write its characters. -/
theorem push_eq_write (w : Weave) (text : String) (place : Place) :
    w.push text place = w.write (text.toList.map fun c => (c, place)) := by
  have chars (cs : List Char) : (cs.map fun c => (c, place)).map Prod.fst = cs := by
    simp [Function.comp_def]
  have places (cs : List Char) : (Text.lines cs).map (fun piece => (piece, place)) =
      (Text.lines cs).zip (lineStarts true (cs.map fun c => (c, place))) := by
    have all : lineStarts true (cs.map fun c => (c, place)) = List.replicate (Text.lines cs).length place := by
      refine List.eq_replicate_iff.2 ⟨by rw [length_lineStarts, chars]; simp, fun p hp => ?_⟩
      obtain ⟨k, hk⟩ := List.mem_iff_getElem?.1 hp
      obtain ⟨before, m, after, hms, rfl, -⟩ := exists_mark_of_lineStarts_get hk
      have hm : m ∈ cs.map fun c => (c, place) := by rw [hms]; simp
      obtain ⟨c, -, rfl⟩ := List.mem_map.1 hm
      rfl
    rw [all]
    refine List.ext_getElem (by simp) fun i _ _ => ?_
    simp
  rw [push, places, ← writeAll_lines w (text.toList.map fun c => (c, place)), chars]

/-- To append a weave is to write the marks it was made from. -/
theorem append_eq_write (w : Weave) (ms : List Mark) : w.append (empty.write ms) = w.write ms := by
  rw [append, toList_text_empty_write, toList_places_empty_write, writeAll_lines]

/-- The place of a line is that of the mark with which it starts. -/
theorem exists_mark_of_places_get {ms : List Mark} {k : Nat} {place : Place}
    (h : (empty.write ms).places[k]? = some place) :
    ∃ before m after, ms = before ++ m :: after ∧ m.2 = place ∧
      before.map Prod.fst = ((Text.lines (empty.write ms).text.toList).take k).flatten := by
  rw [← Array.getElem?_toList, toList_places_empty_write] at h
  rw [toList_text_empty_write]
  exact exists_mark_of_lineStarts_get h

/-- Every line has a place. -/
theorem size_places_empty_write (ms : List Mark) :
    (empty.write ms).places.size = (Text.lines (empty.write ms).text.toList).length := by
  rw [← Array.length_toList, toList_places_empty_write, toList_text_empty_write, length_lineStarts]
  simp

end Weave

/-- The places of lines are among the places of characters, in the same order. -/
theorem lineStarts_sublist (fresh : Bool) (ms : List Mark) : (lineStarts fresh ms).Sublist (ms.map Prod.snd) := by
  induction ms generalizing fresh with
  | nil => exact List.Sublist.refl []
  | cons m ms ih =>
    rw [lineStarts, List.map_cons]
    cases fresh with
    | true => exact (ih _).cons_cons m.2
    | false => exact (ih _).cons m.2

/-! ### Emissions -/

/-- The token that is written, if one is. A newline that is added is written like the one that ends a line. -/
def Output.written? : Output → Option Token
  | .copy t => some t
  | .newline line => some (.newline line)
  | _ => none

/-- The characters of a token as it is written from a file. -/
def Token.marks (file : Path) (t : Token) : List Mark :=
  t.render.toList.map fun c => (c, ⟨file.text, t.line⟩)

/-- Something that is put out from a file. -/
structure Emission where
  /-- The file. -/
  file : Path
  /-- What is put out. -/
  output : Output

/-- The characters that are written. -/
def Emission.marks (x : Emission) : List Mark :=
  (x.output.written?.map (Token.marks x.file)).getD []

mutual

/-- What an entry of the journal of a file puts out for its woven text. -/
def Entry.emissions (file : Path) : Entry → List Emission
  | .output o => [⟨file, o⟩]
  | .expand .included request _ body => Journal.emissions request.path body
  | _ => []

/-- What is put out for the woven text of a file, in order. -/
def Journal.emissions (file : Path) : List Entry → List Emission
  | [] => []
  | e :: j => Entry.emissions file e ++ Journal.emissions file j

end

namespace Journal

theorem isView_emissions (file : Path) : IsView (emissions file) (Entry.emissions file) :=
  ⟨rfl, fun _ _ => rfl⟩

@[simp] theorem emissions_append (file : Path) (j k : Journal) :
    emissions file (j ++ k) = emissions file j ++ emissions file k :=
  (isView_emissions file).append j k

theorem emissions_map_output (file : Path) (os : List Output) :
    emissions file (os.map .output) = os.map fun o => ⟨file, o⟩ :=
  ((isView_emissions file).map_output os).trans List.map_eq_flatMap.symm

end Journal

theorem Weave.push_render (w : Weave) (file : Path) (t : Token) :
    w.push t.render ⟨file.text, t.line⟩ = w.write (t.marks file) :=
  push_eq_write w _ _

mutual

theorem Entry.write_eq (file : Path) (w : Weave) :
    ∀ e : Entry, Entry.write file w e = w.write ((Entry.emissions file e).flatMap Emission.marks)
  | .output (.copy t) => by simp [Entry.write, Entry.emissions, Emission.marks, Output.written?, Weave.push_render]
  | .output (.newline line) => by
    have h : w.push "\n" ⟨file.text, line⟩ = w.write ((Token.newline line).marks file) :=
      w.push_render file (.newline line)
    simp [Entry.write, Entry.emissions, Emission.marks, Output.written?, h]
  | .expand .included request _ body => by
    rw [Entry.write, Journal.write_eq request.path .empty body, Weave.append_eq_write, Entry.emissions]
  | .expand .linked _ _ _ => by simp [Entry.write, Entry.emissions]
  | .output (.problem _ _) | .output (.misread _) => by
    simp [Entry.write, Entry.emissions, Emission.marks, Output.written?]
  | .request _ _ | .resolve _ _ | .load _ _ | .lexed _ | .abandon _ | .skip _ | .tooDeep _ => by
    simp [Entry.write, Entry.emissions]

/-- What a journal writes is what is put out. -/
theorem Journal.write_eq (file : Path) (w : Weave) :
    ∀ j : List Entry, Journal.write file w j = w.write ((Journal.emissions file j).flatMap Emission.marks)
  | [] => by simp [Journal.write, Journal.emissions]
  | e :: j => by
    rw [Journal.write, Entry.write_eq file w e, Journal.write_eq file _ j, Journal.emissions, List.flatMap_append,
      Weave.write_append]

end

/-- **The woven text of a file is what is put out for it, and its lines have the places with which they start.** -/
theorem Journal.woven_eq_write (file : Path) (j : Journal) :
    Journal.woven file j = Weave.empty.write ((Journal.emissions file j).flatMap Emission.marks) :=
  Journal.write_eq file .empty j

/-! ### Written tokens -/

/-- The tokens that are written, in order. -/
def writtenTokens (outs : List Output) : List Token :=
  outs.filterMap Output.written?

@[simp] theorem writtenTokens_nil : writtenTokens [] = [] := rfl

@[simp] theorem writtenTokens_cons (o : Output) (outs : List Output) :
    writtenTokens (o :: outs) = o.written?.toList ++ writtenTokens outs := by
  rw [writtenTokens, List.filterMap_cons]
  cases o.written? <;> rfl

theorem writtenTokens_eq_nil {outs : List Output} (h : ∀ o ∈ outs, o.written? = none) : writtenTokens outs = [] :=
  List.filterMap_eq_nil_iff.2 h

theorem writtenTokens_append (outs outs' : List Output) :
    writtenTokens (outs ++ outs') = writtenTokens outs ++ writtenTokens outs' :=
  List.filterMap_append

@[simp] theorem writtenTokens_copy (ts : List Token) : writtenTokens (ts.map .copy) = ts := by
  simp [writtenTokens, List.filterMap_map, Function.comp_def, Output.written?]

/-- The tokens that are written to the woven text of a file, in order. -/
def Journal.written (file : Path) (j : Journal) : List Token :=
  writtenTokens ((emissions file j).map Emission.output)

theorem Journal.written_append (file : Path) (j k : Journal) :
    written file (j ++ k) = written file j ++ written file k := by
  rw [written, emissions_append, List.map_append, writtenTokens_append]
  rfl

theorem Journal.written_map_output (file : Path) (os : List Output) :
    written file (os.map .output) = writtenTokens os := by
  rw [written, emissions_map_output, List.map_map]
  exact congrArg writtenTokens (List.map_id os)

/-- The characters of some tokens. -/
def rendered (ts : List Token) : List Char :=
  ts.flatMap fun t => t.render.toList

/-- The woven text is what is written. -/
theorem Journal.toList_text_woven (file : Path) (j : Journal) :
    (woven file j).text.toList = rendered (written file j) := by
  rw [woven_eq_write, Weave.toList_text_empty_write, written]
  induction emissions file j with
  | nil => rfl
  | cons x xs ih =>
    rw [List.flatMap_cons, List.map_append, ih, List.map_cons]
    cases h : x.output.written? with
    | none => simp [Emission.marks, writtenTokens, h]
    | some t => simp [Emission.marks, writtenTokens, rendered, Token.marks, h, Function.comp_def]

end ShaderWeave
