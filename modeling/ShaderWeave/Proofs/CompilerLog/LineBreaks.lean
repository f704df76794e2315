import ShaderWeave.Proofs.CompilerLog.Relocation

/-!
# Line breaks of a compiler's log

A location takes up white space: that between `ERROR:` and the source string, or that after the line in parentheses.
White space may be a newline, and what a location takes up is thrown away where the location is replaced
(`TakesBreak`). So `0(1)` and `0(2)` on two lines become one line, `main.frag(1)common.glsl(4)`.

This is the only way in which a line break is lost, and none is ever added. `count_relocateForm` says so of one pass,
and `relocate_line_breaks` of both. The second pass is about the log that the first one has written. Where the names of
the files are plain, the two logs have the same locations of the second form (`takesBreak_relocateForm_colon`), and it
can be told from the log alone whether a line break is lost.
-/

namespace ShaderWeave.CompilerLog

/-! ### Line breaks that a location takes up -/

/-- A line of the log starts with a location of the form that is inside the woven text and takes up a newline. The flag
says that a line starts at the start of the log. -/
def TakesBreak (form : Form) (woven : Weave) (fresh : Bool) (log : List Char) : Prop :=
  ∃ before found line rest place, log = before ++ (found ++ rest) ∧ freshAt fresh before = true ∧
    Names form found line rest ∧ (lineNumber? line).bind woven.place? = some place ∧ '\n' ∈ found

theorem freshAt_append (fresh : Bool) (before after : List Char) :
    freshAt fresh (before ++ after) = freshAt (freshAt fresh before) after := by
  induction before generalizing fresh with
  | nil => rfl
  | cons c before ih => exact ih _

section Form

variable {form : Form} {woven : Weave}

theorem not_takesBreak_nil (fresh : Bool) : ¬ TakesBreak form woven fresh [] := by
  rintro ⟨before, found, line, rest, place, split, -, named, -, -⟩
  have empty : before = [] ∧ found = [] ∧ rest = [] := by simpa using split
  exact named.ne_nil empty.2.1

/-- A character where no location starts does not matter. -/
theorem takesBreak_cons {fresh : Bool} {c : Char} {cs : List Char} (h : fresh = true → ¬ Starts form (c :: cs)) :
    TakesBreak form woven fresh (c :: cs) ↔ TakesBreak form woven (c = '\n') cs := by
  constructor
  · rintro ⟨before, found, line, rest, place, split, starts, named, inside, taken⟩
    cases before with
    | nil => exact absurd ⟨found, line, rest, split, named⟩ (h starts)
    | cons b before =>
      obtain ⟨rfl, more⟩ := List.cons.inj split
      exact ⟨before, found, line, rest, place, more, starts, named, inside, taken⟩
  · rintro ⟨before, found, line, rest, place, rfl, starts, more⟩
    exact ⟨c :: before, found, line, rest, place, rfl, starts, more⟩

theorem takesBreak_append_of_opens {before : List Char} (h : ∀ c ∈ before, form.opens c = false) (fresh : Bool)
    (cs : List Char) :
    TakesBreak form woven fresh (before ++ cs) ↔ TakesBreak form woven (freshAt fresh before) cs := by
  induction before generalizing fresh with
  | nil => rfl
  | cons c before ih =>
    obtain ⟨hc, hb⟩ := List.forall_mem_cons.1 h
    have unnamed : ¬ Starts form (c :: (before ++ cs)) := fun hs => by
      have := hs.opens
      rw [hc] at this
      cases this
    rw [List.cons_append, takesBreak_cons fun _ => unnamed, ih hb, freshAt]

theorem takesBreak_append_of_notMem {before : List Char} (h : '\n' ∉ before) (cs : List Char) :
    TakesBreak form woven false (before ++ cs) ↔ TakesBreak form woven false cs := by
  induction before with
  | nil => rfl
  | cons c before ih =>
    obtain ⟨hc, hb⟩ : '\n' ≠ c ∧ '\n' ∉ before := by simpa using h
    rw [List.cons_append, takesBreak_cons (by simp), decide_eq_false (Ne.symm hc), ih hb]

/-- Behind the first character of a location no other one of the form starts, before the location has ended. -/
theorem Names.takesBreak_tail {d : Char} {tail line rest : List Char} (h : Names form (d :: tail) line rest)
    (cs : List Char) :
    TakesBreak form woven (d = '\n') (tail ++ cs) ↔
      TakesBreak form woven ((d :: tail).getLast? = some '\n') cs := by
  rw [← freshAt_of_ne_nil h.ne_nil true, freshAt]
  generalize found : d :: tail = text at h
  cases h with
  | @colon blanks string _ _ hb hs hl =>
    -- The only `E` of the location is the first character of the mark.
    have spelled : mark = 'E' :: ['R', 'R', 'O', 'R', ':'] := by decide
    rw [spelled, List.cons_append] at found
    obtain ⟨-, rfl⟩ := List.cons.inj found
    have noE : ∀ c ∈ ['R', 'R', 'O', 'R', ':'] ++ (blanks ++ (string ++ ':' :: line)), Form.colon.opens c = false := by
      intro c hc
      refine decide_eq_false ?_
      rintro rfl
      have parts : 'E' ∈ blanks ∨ 'E' ∈ string ∨ 'E' ∈ line := by simpa using hc
      rcases parts with hc | hc | hc
      · exact absurd (hb _ hc) (by decide)
      · exact absurd (hs.2 _ hc) (by decide)
      · exact absurd (hl.2 _ hc) (by decide)
    exact takesBreak_append_of_opens noE _ cs
  | @paren string _ blanks _ hs hl hb =>
    -- Up to the closing parenthesis there is no newline, and behind it no digit.
    obtain ⟨e, ds, rfl, -⟩ := hs.exists_eq_cons
    rw [List.cons_append] at found
    obtain ⟨rfl, rfl⟩ := List.cons.inj found
    obtain ⟨hd, hn⟩ : '\n' ≠ d ∧ '\n' ∉ ds := by simpa using hs.newline_notMem
    have oneLine : '\n' ∉ ds ++ '(' :: (line ++ [')']) := by simp [hn, hl.newline_notMem]
    have noDigit : ∀ c ∈ blanks, Form.paren.opens c = false := fun c hc =>
      Form.opens_of_isWhiteSpace (hb c hc) .paren
    have parts : ds ++ '(' :: (line ++ ')' :: blanks) = (ds ++ '(' :: (line ++ [')'])) ++ blanks := by simp
    have fresh : freshAt false (ds ++ '(' :: (line ++ [')'])) = false := by
      rw [freshAt_of_ne_nil (by simp), decide_eq_false_iff_not]
      exact fun last => oneLine (List.mem_of_getLast? last)
    rw [decide_eq_false hd.symm, parts, List.append_assoc, takesBreak_append_of_notMem oneLine,
      takesBreak_append_of_opens noDigit, freshAt_append, fresh]

/-- A location takes up a newline itself, or a later one does. -/
theorem Names.takesBreak_iff {found line rest : List Char} (h : Names form found line rest) :
    TakesBreak form woven true (found ++ rest) ↔
      ((∃ place, (lineNumber? line).bind woven.place? = some place) ∧ '\n' ∈ found) ∨
        TakesBreak form woven (found.getLast? = some '\n') rest := by
  obtain ⟨d, tail, rfl⟩ := List.exists_cons_of_ne_nil h.ne_nil
  rw [← h.takesBreak_tail]
  constructor
  · rintro ⟨before, found', line', rest', place, split, starts, named, inside, taken⟩
    cases before with
    | nil =>
      rw [List.nil_append] at split
      have same := h.location?_eq
      rw [split, named.location?_eq, Option.some.injEq, Location.mk.injEq] at same
      obtain ⟨rfl, size⟩ := same
      obtain ⟨rfl, -⟩ := List.append_inj split size.symm
      exact .inl ⟨⟨place, inside⟩, taken⟩
    | cons b before =>
      obtain ⟨rfl, more⟩ := List.cons.inj split
      exact .inr ⟨before, found', line', rest', place, more, starts, named, inside, taken⟩
  · rintro (⟨⟨place, inside⟩, taken⟩ | ⟨before, found', line', rest', place, split, starts, more⟩)
    · exact ⟨[], d :: tail, line, rest, place, rfl, rfl, h, inside, taken⟩
    · refine ⟨d :: before, found', line', rest', place, ?_, starts, more⟩
      rw [List.cons_append, split, List.cons_append]

/-! ### One pass -/

/-- What a pass meets at the start of a log: a location at the start of a line, or a character where there is none. -/
theorem starts_or_not (form : Form) (fresh : Bool) (c : Char) (cs : List Char) :
    (fresh = true ∧ ∃ found line rest, c :: cs = found ++ rest ∧ Names form found line rest ∧
      rest.length < (c :: cs).length) ∨ (fresh = true → ¬ Starts form (c :: cs)) := by
  by_cases hs : fresh = true → ¬ Starts form (c :: cs)
  · exact .inr hs
  obtain ⟨rfl, found, line, rest, split, named⟩ := by simpa [Starts] using hs
  have some := List.length_pos_iff.2 named.ne_nil
  refine .inl ⟨rfl, found, line, rest, split, named, ?_⟩
  rw [split, List.length_append]
  omega

/-- **One pass** never adds a line break, and loses none exactly if no location takes one up. -/
theorem count_relocateForm (form : Form) (oneLine : ∀ place ∈ woven.places, '\n' ∉ place.file.toList) (fresh : Bool)
    (log : List Char) :
    (relocateForm form woven fresh log).count '\n' ≤ log.count '\n' ∧
      ((relocateForm form woven fresh log).count '\n' = log.count '\n' ↔ ¬ TakesBreak form woven fresh log) := by
  induction hn : log.length using Nat.strongRecOn generalizing log fresh with
  | ind n ih =>
  subst hn
  cases log with
  | nil => exact ⟨by simp [relocateForm], by simp [relocateForm, not_takesBreak_nil]⟩
  | cons c cs =>
    rcases starts_or_not form fresh c cs with ⟨rfl, found, line, rest, split, named, shorter⟩ | unnamed
    · obtain ⟨le, eq⟩ := ih _ shorter (found.getLast? = some '\n') rest rfl
      rw [split, relocateForm_of_names form woven named, named.takesBreak_iff, List.count_append, List.count_append]
      cases inside : (lineNumber? line).bind woven.place? with
      | none =>
        have left : replacement? woven ⟨line, found.length⟩ = none := by simp [replacement?, inside]
        rw [left, Option.getD_none]
        refine ⟨by omega, ?_⟩
        rw [Nat.add_left_cancel_iff, eq]
        simp
      | some place =>
        have shown : replacement? woven ⟨line, found.length⟩ = some place.render.toList := by
          simp [replacement?, inside]
        obtain ⟨n, -, origin⟩ := Option.bind_eq_some_iff.1 inside
        have mem : place ∈ woven.places := Array.mem_of_getElem? (Option.ite_none_left_eq_some.1 origin).2
        have none := List.count_eq_zero.2 (Place.newline_notMem_render (oneLine place mem))
        rw [shown, Option.getD_some, none, not_or, ← eq]
        have zero : '\n' ∉ found ↔ found.count '\n' = 0 := List.count_eq_zero.symm
        simp only [Option.some.injEq, exists_eq', true_and, zero]
        omega
    · obtain ⟨le, eq⟩ := ih cs.length (by simp) (c = '\n') cs rfl
      rw [relocateForm_cons form woven unnamed, takesBreak_cons unnamed, List.count_cons, List.count_cons, ← eq]
      omega

end Form

/-! ### Both passes -/

variable {woven : Weave}

/-- What the first pass leaves of its locations has none of the second form. -/
theorem Names.takesBreak_paren {found line rest : List Char} (h : Names .colon found line rest) (cs : List Char) :
    TakesBreak .paren woven true (found ++ cs) ↔ TakesBreak .paren woven false cs := by
  obtain ⟨before, d, ds, rfl, noDigit, hd, oneLine, unnamed⟩ := h.exists_unnamed
  rw [List.append_assoc, takesBreak_append_of_opens noDigit, List.cons_append, takesBreak_cons fun _ => unnamed cs,
    decide_eq_false hd, takesBreak_append_of_notMem oneLine]

section Plain

variable (plain : ∀ place ∈ woven.places, place.IsPlain)

include plain

/-- What the first pass writes for a location starts none of the second form. -/
theorem takesBreak_paren_render {place : Place} (mem : place ∈ woven.places) (cs : List Char) :
    TakesBreak .paren woven true (place.render.toList ++ cs) ↔ TakesBreak .paren woven false cs := by
  have oneLine := Place.newline_notMem_render (plain place mem).oneLine
  obtain ⟨c, rest, hr, digit, -⟩ := (plain place mem).exists_render_eq_cons
  rw [hr] at oneLine ⊢
  obtain ⟨hc, hn⟩ : '\n' ≠ c ∧ '\n' ∉ rest := by simpa using oneLine
  have unnamed : ¬ Starts .paren (c :: (rest ++ cs)) := fun hs => by
    have := hs.opens
    rw [Form.opens, digit] at this
    cases this
  rw [List.cons_append, takesBreak_cons fun _ => unnamed, decide_eq_false hc.symm, takesBreak_append_of_notMem hn]

/-- The first pass does not change which line breaks the locations of the second form take up. -/
theorem takesBreak_relocateForm_colon (fresh : Bool) (log : List Char) :
    TakesBreak .paren woven fresh (relocateForm .colon woven fresh log) ↔ TakesBreak .paren woven fresh log := by
  induction hn : log.length using Nat.strongRecOn generalizing log fresh with
  | ind n ih =>
  subst hn
  cases log with
  | nil => rw [relocateForm]
  | cons c cs =>
    rcases starts_or_not .colon fresh c cs with ⟨rfl, found, line, rest, split, named, shorter⟩ | unnamed
    · have more := ih _ shorter false rest rfl
      rw [split, relocateForm_of_names .colon woven named, decide_eq_false named.getLast?_ne, named.takesBreak_paren]
      cases shown : replacement? woven ⟨line, found.length⟩ with
      | none => rw [Option.getD_none, named.takesBreak_paren, more]
      | some text =>
        obtain ⟨place, mem, rfl⟩ := exists_of_replacement? shown
        rw [Option.getD_some, takesBreak_paren_render plain mem, more]
    rcases starts_or_not .paren fresh c cs with ⟨rfl, found, line, rest, split, named, shorter⟩ | unnamed'
    · have more := ih _ shorter (found.getLast? = some '\n') rest rfl
      have named' := named.relocateForm_colon plain (found.getLast? = some '\n')
      rw [split, named.relocateForm_colon_append, named'.takesBreak_iff, named.takesBreak_iff, more]
    · have more := ih cs.length (by simp) (c = '\n') cs rfl
      rw [relocateForm_cons .colon woven unnamed, takesBreak_cons fun hf hs => unnamed' hf hs.of_relocateForm,
        takesBreak_cons unnamed', more]

end Plain

/-- **Line breaks of a relocated log.** Where the names of the files are on one line, no line break is added to a log.
One is lost if and only if a location that is replaced takes it up: a location of the first form in the log, or one of
the second form in the log that the first pass has written. If the names also start with neither a digit nor white
space, it does not matter that the second pass reads what the first one has written. -/
theorem relocate_line_breaks {woven : Weave} (oneLine : ∀ place ∈ woven.places, '\n' ∉ place.file.toList)
    (log : String) :
    (relocate woven log).toList.count '\n' ≤ log.toList.count '\n' ∧
      ((relocate woven log).toList.count '\n' = log.toList.count '\n' ↔
        ¬ TakesBreak .colon woven true log.toList ∧
          ¬ TakesBreak .paren woven true (relocateForm .colon woven true log.toList)) ∧
      ((∀ place ∈ woven.places, place.IsPlain) →
        ((relocate woven log).toList.count '\n' = log.toList.count '\n' ↔
          ∀ form, ¬ TakesBreak form woven true log.toList)) := by
  obtain ⟨firstLe, firstEq⟩ := count_relocateForm .colon oneLine true log.toList
  obtain ⟨secondLe, secondEq⟩ :=
    count_relocateForm .paren oneLine true (relocateForm .colon woven true log.toList)
  have both : (relocate woven log).toList.count '\n' = log.toList.count '\n' ↔
      ¬ TakesBreak .colon woven true log.toList ∧
        ¬ TakesBreak .paren woven true (relocateForm .colon woven true log.toList) := by
    rw [← firstEq, ← secondEq, relocate, String.toList_ofList]
    omega
  refine ⟨?_, both, fun plain => ?_⟩
  · rw [relocate, String.toList_ofList]
    exact Nat.le_trans secondLe firstLe
  · rw [both, takesBreak_relocateForm_colon plain]
    constructor
    · rintro ⟨colon, paren⟩ (_ | _)
      · exact colon
      · exact paren
    · intro neither
      exact ⟨neither .colon, neither .paren⟩

/-- A log keeps its lines if there is a message behind each location that is replaced, and it does not matter what is
behind one outside the text. -/
theorem relocate_line_breaks_kept :
    (∀ place ∈ twoLines.weave.places, '\n' ∉ place.file.toList) ∧ (∀ place ∈ twoLines.weave.places, place.IsPlain) ∧
      relocate twoLines.weave "ERROR: 0:2: syntax error\n0(1) : bad version\n0(3)\n" =
        "common.glsl(4): syntax error\nmain.frag(1): bad version\n0(3)\n" ∧
      ∀ form, ¬ TakesBreak form twoLines.weave true
        "ERROR: 0:2: syntax error\n0(1) : bad version\n0(3)\n".toList := by
  have oneLine : ∀ place ∈ twoLines.weave.places, '\n' ∉ place.file.toList := fun place mem =>
    (isPlain_twoLines place mem).oneLine
  refine ⟨oneLine, isPlain_twoLines, by decide +kernel, ?_⟩
  exact ((relocate_line_breaks oneLine _).2.2 isPlain_twoLines).1 (by decide +kernel)

/-- Two lines that consist of a location each become one. -/
theorem relocate_joins_lines :
    (∀ place ∈ twoLines.weave.places, '\n' ∉ place.file.toList) ∧
      relocate twoLines.weave "0(1)\n0(2)\n" = "main.frag(1)common.glsl(4)" ∧
      (relocate twoLines.weave "0(1)\n0(2)\n").toList.count '\n' ≠ "0(1)\n0(2)\n".toList.count '\n' := by
  decide +kernel

end ShaderWeave.CompilerLog
