import ShaderWeave.CompilerLog
import ShaderWeave.Proofs.Lexing.Cuts
import ShaderWeave.Proofs.Weave.Building

/-!
# One scan of a compiler's log

A log is relocated in two passes, and the second one reads what the first one has written. `Relocated` describes a
single scan instead: it goes over the log from left to right, and wherever a line starts with a location of either form
(`Names`), the location is replaced if it is inside the woven text, and kept if it is not; all other characters are
kept.

The two come to the same (`relocate_eq_iff`) where the names of files are on one line and start with neither a digit nor
white space. What the first pass writes then starts no location of the second form, and does not take part in one
(`exists_append_of_relocateForm`), and the white space that a location takes up ends where it did before.
-/

namespace ShaderWeave

/-! ### Digits and white space -/

namespace Text

/-- No digit is white space. -/
theorem isWhiteSpace_of_isDecimalDigit {c : Char} (h : isDecimalDigit c = true) : isWhiteSpace c = false := by
  have apart : ∀ first ∈ digitZeros, 0x30 ≤ first ∧ (first + 10 ≤ 0x85 ∨ 0xA0 < first) ∧
      (first + 10 ≤ 0x1680 ∨ 0x1680 < first) ∧ (first + 10 ≤ 0x2000 ∨ 0x3000 < first) := by decide
  obtain ⟨first, hf, low, high⟩ := isDecimalDigit_iff.1 h
  have := apart first hf
  simp only [isWhiteSpace, Bool.or_eq_false_iff, Bool.and_eq_false_iff, decide_eq_false_iff_not]
  omega

end Text

/-- The name of the file is on one line, and starts with neither a digit nor white space. -/
structure Place.IsPlain (p : Place) : Prop where
  /-- It has no newline. -/
  oneLine : '\n' ∉ p.file.toList
  /-- Its first character, if there is one, is neither a digit nor white space. -/
  start : ∀ c ∈ p.file.toList.head?, Text.isDecimalDigit c = false ∧ Text.isWhiteSpace c = false

/-- A place is shown on one line if the name of its file is on one. -/
theorem Place.newline_notMem_render {p : Place} (oneLine : '\n' ∉ p.file.toList) : '\n' ∉ p.render.toList := by
  have digits : '\n' ∉ Nat.toDigits 10 p.line := fun hm =>
    absurd (Nat.isDigit_of_mem_toDigits (by omega) (by omega) hm) (by decide)
  simp [render, oneLine, digits]

namespace Place.IsPlain

variable {p : Place}

/-- What is shown of a place with a plain name starts like a name. -/
theorem exists_render_eq_cons (h : p.IsPlain) : ∃ c cs, p.render.toList = c :: cs ∧
    Text.isDecimalDigit c = false ∧ Text.isWhiteSpace c = false := by
  cases hf : p.file.toList with
  | nil => exact ⟨'(', (toString p.line).toList ++ [')'], by simp [Place.render, hf], by decide, by decide⟩
  | cons c cs =>
    exact ⟨c, cs ++ '(' :: ((toString p.line).toList ++ [')']), by simp [Place.render, hf], h.start c (by simp [hf])⟩

end Place.IsPlain

namespace CompilerLog

/-! ### Locations -/

/-- Digits, of which there is at least one. -/
def IsNumber (cs : List Char) : Prop :=
  cs ≠ [] ∧ ∀ c ∈ cs, Text.isDecimalDigit c = true

/-- The text `found`, at the start of a line and before `rest`, is a location of the form, and `line` are the digits of
its line. It takes up as much as it can. -/
inductive Names : Form → List Char → List Char → List Char → Prop
  /-- White space may stand before the source string. -/
  | colon {blanks string line rest : List Char} (hb : ∀ c ∈ blanks, Text.isWhiteSpace c = true) (hs : IsNumber string)
    (hl : IsNumber line) (ends : Ends Text.isDecimalDigit rest) :
    Names .colon (mark ++ (blanks ++ (string ++ ':' :: line))) line rest
  /-- White space may stand after the line. -/
  | paren {string line blanks rest : List Char} (hs : IsNumber string) (hl : IsNumber line)
    (hb : ∀ c ∈ blanks, Text.isWhiteSpace c = true) (ends : Ends Text.isWhiteSpace rest) :
    Names .paren (string ++ '(' :: (line ++ ')' :: blanks)) line rest

namespace IsNumber

variable {ds rest : List Char}

theorem newline_notMem (h : IsNumber ds) : '\n' ∉ ds :=
  fun hm => absurd (h.2 _ hm) (by decide)

/-- A number starts with a digit. -/
theorem exists_eq_cons (h : IsNumber ds) : ∃ c cs, ds = c :: cs ∧ Text.isDecimalDigit c = true := by
  obtain ⟨c, cs, rfl⟩ := List.exists_cons_of_ne_nil h.1
  exact ⟨c, cs, rfl, h.2 c List.mem_cons_self⟩

theorem digits?_append (h : IsNumber ds) (ends : Ends Text.isDecimalDigit rest) : digits? (ds ++ rest) = some ds := by
  rw [digits?, ends.takeWhile_append h.2]
  exact if_neg h.1

end IsNumber

theorem exists_of_digits? {cs ds : List Char} (h : digits? cs = some ds) :
    ∃ rest, cs = ds ++ rest ∧ IsNumber ds ∧ Ends Text.isDecimalDigit rest := by
  obtain ⟨filled, rfl⟩ : cs.takeWhile Text.isDecimalDigit ≠ [] ∧ cs.takeWhile Text.isDecimalDigit = ds := by
    simpa [digits?] using h
  exact ⟨_, List.takeWhile_append_dropWhile.symm, ⟨filled, of_mem_takeWhile⟩, ends_dropWhile _ _⟩

/-- What starts with a character that is not of the class. -/
theorem ends_cons {p : Char → Bool} {c : Char} (h : p c = false) (cs : List Char) : Ends p (c :: cs) := by
  simpa [Ends] using h

/-- A text is cut where its characters stop being of a class. -/
theorem exists_takeWhile (p : Char → Bool) (cs : List Char) :
    ∃ taken rest, cs = taken ++ rest ∧ (∀ c ∈ taken, p c = true) ∧ Ends p rest :=
  ⟨_, _, List.takeWhile_append_dropWhile.symm, of_mem_takeWhile, ends_dropWhile p cs⟩

namespace Names

variable {form : Form} {found line rest : List Char}

/-- **A location is found.** -/
theorem location?_eq (h : Names form found line rest) : form.location? (found ++ rest) = some ⟨line, found.length⟩ := by
  cases h with
  | @colon blanks string _ _ hb hs hl ends =>
    have white : (blanks ++ (string ++ ':' :: (line ++ rest))).takeWhile Text.isWhiteSpace = blanks := by
      refine Ends.takeWhile_append hb ?_
      obtain ⟨d, ds, rfl, hd⟩ := hs.exists_eq_cons
      exact ends_cons (Text.isWhiteSpace_of_isDecimalDigit hd) _
    have number : digits? (string ++ ':' :: (line ++ rest)) = some string := hs.digits?_append (ends_cons (by decide) _)
    have marked : mark.isPrefixOf (mark ++ (blanks ++ (string ++ ':' :: (line ++ rest)))) = true :=
      List.isPrefixOf_iff_prefix.2 (List.prefix_append _ _)
    simp [Form.location?, colonLocation?, marked, white, number, hl.digits?_append ends, -List.drop_drop]
    omega
  | @paren string _ blanks _ hs hl hb ends =>
    have number : digits? (string ++ '(' :: (line ++ ')' :: (blanks ++ rest))) = some string :=
      hs.digits?_append (ends_cons (by decide) _)
    have second : digits? (line ++ ')' :: (blanks ++ rest)) = some line := hl.digits?_append (ends_cons (by decide) _)
    have after : ('(' :: (line ++ ')' :: (blanks ++ rest))).drop (1 + line.length) = ')' :: (blanks ++ rest) := by
      rw [Nat.add_comm, List.drop_succ_cons, List.drop_left]
    simp only [Form.location?, parenLocation?, List.append_assoc, List.cons_append, number, Option.bind_eq_bind,
      Option.bind_some, List.drop_left, List.head?_cons, if_pos, List.drop_one, List.tail_cons, second, after,
      ends.takeWhile_append hb, Option.some.injEq, Location.mk.injEq, true_and, List.length_append, List.length_cons]
    omega

/-- **What is found is a location.** -/
theorem of_location? {cs : List Char} {location : Location} (h : form.location? cs = some location) :
    ∃ found rest, cs = found ++ rest ∧ Names form found location.line rest ∧ location.size = found.length := by
  suffices named : ∃ found line rest, cs = found ++ rest ∧ Names form found line rest by
    obtain ⟨found, line, rest, rfl, named⟩ := named
    obtain rfl := Option.some.inj (named.location?_eq.symm.trans h)
    exact ⟨found, rest, rfl, named, rfl⟩
  cases form with
  | colon =>
    change colonLocation? cs = some location at h
    simp only [colonLocation?, Option.bind_eq_bind, Option.bind_none, Option.bind_some] at h
    obtain ⟨before, h⟩ := Option.ite_none_right_eq_some.1 h
    obtain ⟨after, rfl⟩ := List.isPrefixOf_iff_prefix.1 before
    rw [List.drop_left] at h
    obtain ⟨blanks, after, rfl, hb, ends⟩ := exists_takeWhile Text.isWhiteSpace after
    rw [ends.takeWhile_append hb, List.drop_left] at h
    obtain ⟨string, number, h⟩ := Option.bind_eq_some_iff.1 h
    obtain ⟨after, rfl, hs, -⟩ := exists_of_digits? number
    rw [List.drop_left] at h
    obtain ⟨first, h⟩ := Option.ite_none_right_eq_some.1 h
    obtain ⟨after, rfl⟩ := List.head?_eq_some_iff.1 first
    obtain ⟨line, second, h⟩ := Option.bind_eq_some_iff.1 h
    obtain ⟨rest, rfl, hl, ends⟩ := exists_of_digits? second
    exact ⟨_, line, rest, by simp, .colon hb hs hl ends⟩
  | paren =>
    change parenLocation? cs = some location at h
    simp only [parenLocation?, Option.bind_eq_bind, Option.bind_none] at h
    obtain ⟨string, number, h⟩ := Option.bind_eq_some_iff.1 h
    obtain ⟨after, rfl, hs, -⟩ := exists_of_digits? number
    rw [List.drop_left] at h
    obtain ⟨first, h⟩ := Option.ite_none_right_eq_some.1 h
    obtain ⟨after, rfl⟩ := List.head?_eq_some_iff.1 first
    obtain ⟨line, second, h⟩ := Option.bind_eq_some_iff.1 h
    obtain ⟨after, rfl, hl, -⟩ := exists_of_digits? second
    rw [Nat.add_comm, List.drop_succ_cons, List.drop_left] at h
    obtain ⟨last, -⟩ := Option.ite_none_right_eq_some.1 h
    obtain ⟨after, rfl⟩ := List.head?_eq_some_iff.1 last
    obtain ⟨blanks, rest, rfl, hb, ends⟩ := exists_takeWhile Text.isWhiteSpace after
    exact ⟨_, line, rest, by simp, .paren hs hl hb ends⟩

theorem ne_nil (h : Names form found line rest) : found ≠ [] := by
  cases h with
  | colon => exact List.append_ne_nil_of_left_ne_nil (by decide) _
  | paren => simp

end Names

/-- A location of the form starts here. -/
def Starts (form : Form) (cs : List Char) : Prop :=
  ∃ found line rest, cs = found ++ rest ∧ Names form found line rest

theorem location?_eq_none_iff {form : Form} {cs : List Char} : form.location? cs = none ↔ ¬ Starts form cs := by
  constructor
  · rintro none ⟨found, line, rest, rfl, named⟩
    rw [named.location?_eq] at none
    cases none
  · intro unnamed
    cases h : form.location? cs with
    | none => rfl
    | some location =>
      obtain ⟨found, rest, rfl, named, -⟩ := Names.of_location? h
      exact absurd ⟨found, _, rest, rfl, named⟩ unnamed

/-- A character that a location of the form can start with. -/
def Form.opens : Form → Char → Bool
  | .colon, c => c = 'E'
  | .paren, c => Text.isDecimalDigit c

theorem Starts.opens {form : Form} {c : Char} {cs : List Char} (h : Starts form (c :: cs)) : form.opens c = true := by
  obtain ⟨found, line, rest, split, named⟩ := h
  cases named with
  | colon =>
    obtain rfl : c = 'E' := (List.cons.inj split).1
    rfl
  | paren hs =>
    obtain ⟨d, ds, rfl, hd⟩ := hs.exists_eq_cons
    obtain rfl : c = d := (List.cons.inj split).1
    exact hd

/-- No location starts with white space. -/
theorem Form.opens_of_isWhiteSpace {c : Char} (h : Text.isWhiteSpace c = true) (form : Form) :
    form.opens c = false := by
  cases form with
  | colon =>
    refine decide_eq_false ?_
    rintro rfl
    exact absurd h (by decide)
  | paren =>
    refine Bool.eq_false_iff.2 fun digit => ?_
    rw [Text.isWhiteSpace_of_isDecimalDigit digit] at h
    cases h

/-- The source string of a location of the form `paren` is not followed by a colon. -/
theorem not_starts_paren_of_colon {string : List Char} (h : IsNumber string) (cs : List Char) :
    ¬ Starts .paren (string ++ ':' :: cs) := by
  rw [← location?_eq_none_iff]
  have number : digits? (string ++ ':' :: cs) = some string := h.digits?_append (ends_cons (by decide) _)
  change parenLocation? _ = none
  simp [parenLocation?, number, -List.head?_drop]

/-! ### One pass -/

/-- Whether a line starts after the text, if it is known whether one starts before it. -/
def freshAt : Bool → List Char → Bool
  | fresh, [] => fresh
  | _, c :: cs => freshAt (c = '\n') cs

theorem freshAt_of_ne_nil {cs : List Char} (h : cs ≠ []) (fresh : Bool) :
    freshAt fresh cs = decide (cs.getLast? = some '\n') := by
  induction cs generalizing fresh with
  | nil => exact absurd rfl h
  | cons c cs ih =>
    cases cs with
    | nil => simp [freshAt]
    | cons d ds => rw [freshAt, ih (by simp), List.getLast?_cons_cons]

variable (form : Form) (woven : Weave)

/-- At a location, the pass writes what replaces it, and goes on after it. -/
theorem relocateForm_of_names {found line rest : List Char} (h : Names form found line rest) :
    relocateForm form woven true (found ++ rest) =
      (replacement? woven ⟨line, found.length⟩).getD found ++
        relocateForm form woven (found.getLast? = some '\n') rest := by
  have location := h.location?_eq
  obtain ⟨c, cs, rfl⟩ := List.exists_cons_of_ne_nil h.ne_nil
  rw [List.cons_append] at location ⊢
  rw [relocateForm, if_pos rfl, location]
  simp

/-- Where no location starts, the character is kept. -/
theorem relocateForm_cons {fresh : Bool} {c : Char} {cs : List Char} (h : fresh = true → ¬ Starts form (c :: cs)) :
    relocateForm form woven fresh (c :: cs) = c :: relocateForm form woven (c = '\n') cs := by
  have none : (if fresh = true then form.location? (c :: cs) else none) = none := by
    cases fresh with
    | false => rfl
    | true => exact location?_eq_none_iff.2 (h rfl)
  rw [relocateForm, none]

/-- A text in which no location of the form can start is kept. -/
theorem relocateForm_append_of_opens {before : List Char} (h : ∀ c ∈ before, form.opens c = false) (fresh : Bool)
    (cs : List Char) :
    relocateForm form woven fresh (before ++ cs) = before ++ relocateForm form woven (freshAt fresh before) cs := by
  induction before generalizing fresh with
  | nil => rfl
  | cons c before ih =>
    obtain ⟨hc, hb⟩ := List.forall_mem_cons.1 h
    have unnamed : ¬ Starts form (c :: (before ++ cs)) := fun hs => by
      have := hs.opens
      rw [hc] at this
      cases this
    rw [List.cons_append, relocateForm_cons form woven fun _ => unnamed, ih hb, freshAt, List.cons_append]

/-- The rest of a line is kept. -/
theorem relocateForm_append_of_notMem {before : List Char} (h : '\n' ∉ before) (cs : List Char) :
    relocateForm form woven false (before ++ cs) = before ++ relocateForm form woven false cs := by
  induction before with
  | nil => rfl
  | cons c before ih =>
    obtain ⟨hc, hb⟩ : '\n' ≠ c ∧ '\n' ∉ before := by simpa using h
    rw [List.cons_append, relocateForm_cons form woven (by simp), decide_eq_false (Ne.symm hc), ih hb,
      List.cons_append]

/-- What the pass leaves on the rest of a line has been there before. -/
theorem exists_append_of_relocateForm {cs before after : List Char} (h : '\n' ∉ before)
    (hr : relocateForm form woven false cs = before ++ after) : ∃ after', cs = before ++ after' := by
  induction before generalizing cs with
  | nil => exact ⟨cs, rfl⟩
  | cons c before ih =>
    obtain ⟨hc, hb⟩ : '\n' ≠ c ∧ '\n' ∉ before := by simpa using h
    cases cs with
    | nil => simp [relocateForm] at hr
    | cons d cs =>
      rw [relocateForm_cons form woven (by simp), List.cons_append, List.cons.injEq] at hr
      obtain ⟨rfl, hr⟩ := hr
      rw [decide_eq_false (Ne.symm hc)] at hr
      obtain ⟨after', rfl⟩ := ih hb hr
      exact ⟨after', rfl⟩

/-- A place of the text is replaced by where it comes from. -/
theorem replacement?_eq_some {woven : Weave} {line : List Char} {n : Nat} {place : Place}
    (number : lineNumber? line = some n) (origin : woven.place? n = some place) (size : Nat) :
    replacement? woven ⟨line, size⟩ = some place.render.toList := by
  simp [replacement?, number, origin]

theorem exists_of_replacement? {woven : Weave} {location : Location} {cs : List Char}
    (h : replacement? woven location = some cs) : ∃ place ∈ woven.places, cs = place.render.toList := by
  obtain ⟨place, origin, rfl⟩ := Option.map_eq_some_iff.1 h
  obtain ⟨n, -, origin⟩ := Option.bind_eq_some_iff.1 origin
  obtain ⟨-, origin⟩ := Option.ite_none_left_eq_some.1 origin
  exact ⟨place, Array.mem_of_getElem? origin, rfl⟩

variable {woven : Weave} (plain : ∀ place ∈ woven.places, place.IsPlain)

include plain in
/-- White space ends in the log that the first pass writes where it ends in the log it reads. -/
theorem ends_relocateForm {rest : List Char} (h : Ends Text.isWhiteSpace rest) (fresh : Bool) :
    Ends Text.isWhiteSpace (relocateForm form woven fresh rest) := by
  cases rest with
  | nil => simpa [relocateForm] using Ends.nil _
  | cons c cs =>
    have hc : Text.isWhiteSpace c = false := h c (by simp)
    by_cases hs : fresh = true → ¬ Starts form (c :: cs)
    · rw [relocateForm_cons form woven hs]
      exact ends_cons hc _
    obtain ⟨rfl, found, line, after, split, named⟩ := by simpa using hs
    rw [split, relocateForm_of_names form woven named]
    cases hr : replacement? woven ⟨line, found.length⟩ with
    | none =>
      obtain ⟨d, ds, rfl⟩ := List.exists_cons_of_ne_nil named.ne_nil
      obtain rfl : c = d := (List.cons.inj split).1
      exact ends_cons hc _
    | some shown =>
      obtain ⟨place, hp, rfl⟩ := exists_of_replacement? hr
      obtain ⟨d, ds, hd, -, white⟩ := (plain place hp).exists_render_eq_cons
      rw [Option.getD_some, hd]
      exact ends_cons white _

/-! ### One scan -/

/-- **The one scan**, from left to right. The flag says that a line starts here. -/
inductive Relocated (woven : Weave) : Bool → List Char → List Char → Prop
  /-- The log has ended. -/
  | done (fresh : Bool) : Relocated woven fresh [] []
  /-- A location inside the text: where its line comes from is written instead. -/
  | moved {form : Form} {found line rest out : List Char} {n : Nat} {place : Place} (named : Names form found line rest)
      (number : lineNumber? line = some n) (inside : 1 ≤ n ∧ n ≤ (Text.lines woven.text.toList).length)
      (origin : woven.place? n = some place) (more : Relocated woven (found.getLast? = some '\n') rest out) :
      Relocated woven true (found ++ rest) (place.render.toList ++ out)
  /-- A location outside the text: it is kept. -/
  | kept {form : Form} {found line rest out : List Char} (named : Names form found line rest)
      (outside : ∀ n, lineNumber? line = some n → ¬ (1 ≤ n ∧ n ≤ (Text.lines woven.text.toList).length))
      (more : Relocated woven (found.getLast? = some '\n') rest out) :
      Relocated woven true (found ++ rest) (found ++ out)
  /-- No location starts here: the character is kept. -/
  | other {fresh : Bool} {c : Char} {rest out : List Char} (unnamed : fresh = true → ∀ form, ¬ Starts form (c :: rest))
      (more : Relocated woven (c = '\n') rest out) : Relocated woven fresh (c :: rest) (c :: out)

variable (lines : ∀ n, (woven.place? n).isSome ↔ 1 ≤ n ∧ n ≤ (Text.lines woven.text.toList).length)

include lines in
/-- A location outside the text is not replaced. -/
theorem replacement?_eq_none {line : List Char}
    (outside : ∀ n, lineNumber? line = some n → ¬ (1 ≤ n ∧ n ≤ (Text.lines woven.text.toList).length)) (size : Nat) :
    replacement? woven ⟨line, size⟩ = none := by
  rw [replacement?, Option.map_eq_none_iff, Option.bind_eq_none_iff]
  intro n number
  rw [← Option.not_isSome_iff_eq_none, lines]
  exact outside n number

include lines in
/-- The scan goes through every log. -/
theorem exists_relocated (log : List Char) (fresh : Bool) : ∃ out, Relocated woven fresh log out := by
  induction hn : log.length using Nat.strongRecOn generalizing log fresh with
  | ind n ih =>
  subst hn
  cases log with
  | nil => exact ⟨[], .done fresh⟩
  | cons c cs =>
    by_cases hs : fresh = true → ∀ form, ¬ Starts form (c :: cs)
    · obtain ⟨out, more⟩ := ih _ (by simp) cs (c = '\n') rfl
      exact ⟨c :: out, .other hs more⟩
    obtain ⟨rfl, form, found, line, rest, split, named⟩ := by simpa [Starts] using hs
    have shorter : rest.length < (c :: cs).length := by
      have := List.length_pos_iff.2 named.ne_nil
      rw [split, List.length_append]
      omega
    obtain ⟨out, more⟩ := ih _ shorter rest (found.getLast? = some '\n') rfl
    rw [split]
    by_cases inside : ∃ n, lineNumber? line = some n ∧ 1 ≤ n ∧ n ≤ (Text.lines woven.text.toList).length
    · obtain ⟨n, number, inside⟩ := inside
      obtain ⟨place, origin⟩ := Option.isSome_iff_exists.1 ((lines n).2 inside)
      exact ⟨_, .moved named number inside origin more⟩
    · exact ⟨_, .kept named (fun n number inside' => inside ⟨n, number, inside'⟩) more⟩

/-- The first pass keeps the locations of the second form. -/
theorem Names.relocateForm_colon_append {found line rest : List Char} (h : Names .paren found line rest)
    (cs : List Char) :
    relocateForm .colon woven true (found ++ cs) =
      found ++ relocateForm .colon woven (found.getLast? = some '\n') cs := by
  rw [← freshAt_of_ne_nil h.ne_nil true]
  refine relocateForm_append_of_opens .colon woven (fun c hc => decide_eq_false ?_) true cs
  rintro rfl
  cases h with
  | @paren string _ blanks _ hs hl hb =>
    have parts : 'E' ∈ string ∨ 'E' ∈ line ∨ 'E' ∈ blanks := by simpa using hc
    rcases parts with hc | hc | hc
    · exact absurd (hs.2 _ hc) (by decide)
    · exact absurd (hl.2 _ hc) (by decide)
    · exact absurd (hb _ hc) (by decide)

/-- A location of the first form ends on a digit. -/
theorem Names.getLast?_ne {found line rest : List Char} (h : Names .colon found line rest) :
    found.getLast? ≠ some '\n' := by
  cases h with
  | colon hb hs hl =>
    obtain ⟨c, cs, rfl, -⟩ := hl.exists_eq_cons
    simpa [List.getLast?_append, List.getLast?_cons_cons] using fun h => hl.newline_notMem (List.mem_of_getLast? h)

/-- In a location of the first form none of the second form starts: before its source string there is no digit, and the
source string is followed by a colon. -/
theorem Names.exists_unnamed {found line rest : List Char} (h : Names .colon found line rest) :
    ∃ before d ds, found = before ++ d :: ds ∧ (∀ c ∈ before, Form.paren.opens c = false) ∧ d ≠ '\n' ∧ '\n' ∉ ds ∧
      ∀ cs, ¬ Starts .paren (d :: (ds ++ cs)) := by
  cases h with
  | @colon blanks string _ _ hb hs hl =>
    have inMark : ∀ c ∈ mark, Form.paren.opens c = false := by
      have all : mark.all (fun c => !Form.paren.opens c) = true := by decide
      simpa using all
    have noDigit : ∀ c ∈ mark ++ blanks, Form.paren.opens c = false := by
      intro c hc
      rcases List.mem_append.1 hc with hc | hc
      · exact inMark c hc
      · exact Form.opens_of_isWhiteSpace (hb c hc) .paren
    obtain ⟨d, ds, rfl, -⟩ := hs.exists_eq_cons
    obtain ⟨hd, hn⟩ : '\n' ≠ d ∧ '\n' ∉ ds := by simpa using hs.newline_notMem
    have oneLine : '\n' ∉ ds ++ ':' :: line := by simp [hn, hl.newline_notMem]
    have unnamed (cs : List Char) : ¬ Starts .paren (d :: (ds ++ ':' :: line ++ cs)) := by
      rw [List.append_assoc]
      exact not_starts_paren_of_colon hs _
    exact ⟨mark ++ blanks, d, ds ++ ':' :: line, by simp, noDigit, hd.symm, oneLine, unnamed⟩

/-- The second pass keeps what the first one has left of its locations. -/
theorem Names.relocateForm_paren_append {found line rest : List Char} (h : Names .colon found line rest)
    (cs : List Char) :
    relocateForm .paren woven true (found ++ cs) = found ++ relocateForm .paren woven false cs := by
  obtain ⟨before, d, ds, rfl, noDigit, hd, oneLine, unnamed⟩ := h.exists_unnamed
  rw [List.append_assoc, relocateForm_append_of_opens .paren woven noDigit, List.cons_append,
    relocateForm_cons .paren woven fun _ => unnamed cs, decide_eq_false hd,
    relocateForm_append_of_notMem .paren woven oneLine, List.append_assoc, List.cons_append]

include plain in
/-- A location of the second form takes up as much after the first pass. -/
theorem Names.relocateForm_colon {found line rest : List Char} (h : Names .paren found line rest) (fresh : Bool) :
    Names .paren found line (relocateForm .colon woven fresh rest) := by
  cases h with
  | paren hs hl hb ends => exact .paren hs hl hb (ends_relocateForm .colon plain ends fresh)

/-- No location of the second form starts after the first pass where none has started before. -/
theorem Starts.of_relocateForm {form : Form} {c : Char} {cs : List Char}
    (h : Starts .paren (c :: relocateForm form woven (c = '\n') cs)) : Starts .paren (c :: cs) := by
  obtain ⟨found, line, rest, split, named⟩ := h
  cases named with
  | @paren string _ blanks _ hs hl hb ends =>
    obtain ⟨d, ds, rfl, hd⟩ := hs.exists_eq_cons
    obtain ⟨rfl, more⟩ := List.cons.inj split
    have oneLine : '\n' ∉ ds ++ '(' :: (line ++ [')']) := by
      simpa [hl.newline_notMem] using fun h' => hs.newline_notMem (List.mem_cons_of_mem c h')
    have hc : c ≠ '\n' := by
      rintro rfl
      exact hs.newline_notMem List.mem_cons_self
    rw [decide_eq_false hc] at more
    have copied : relocateForm form woven false cs = (ds ++ '(' :: (line ++ [')'])) ++ (blanks ++ rest) := by
      simpa using more
    obtain ⟨after, rfl⟩ := exists_append_of_relocateForm form woven oneLine copied
    obtain ⟨blanks, rest, rfl, hb, ends⟩ := exists_takeWhile Text.isWhiteSpace after
    exact ⟨_, line, rest, by simp, .paren hs hl hb ends⟩

section Passes

include plain

/-- What the first pass writes for a location is passed over by the second. -/
theorem relocateForm_paren_render_append {place : Place} (hp : place ∈ woven.places) (cs : List Char) :
    relocateForm .paren woven true (place.render.toList ++ cs) =
      place.render.toList ++ relocateForm .paren woven false cs := by
  have oneLine := Place.newline_notMem_render (plain place hp).oneLine
  obtain ⟨c, rest, hr, digit, -⟩ := (plain place hp).exists_render_eq_cons
  rw [hr] at oneLine ⊢
  obtain ⟨hc, hn⟩ : '\n' ≠ c ∧ '\n' ∉ rest := by simpa using oneLine
  have unnamed : ¬ Starts .paren (c :: (rest ++ cs)) := fun hs => by
    have := hs.opens
    rw [Form.opens, digit] at this
    cases this
  rw [List.cons_append, relocateForm_cons .paren woven fun _ => unnamed, decide_eq_false (Ne.symm hc),
    relocateForm_append_of_notMem .paren woven hn, List.cons_append]

include lines in
/-- **The two passes do what the one scan does.** -/
theorem Relocated.eq {fresh : Bool} {log out : List Char} (h : Relocated woven fresh log out) :
    relocateForm .paren woven fresh (relocateForm .colon woven fresh log) = out := by
  induction h with
  | done fresh => simp [relocateForm]
  | @moved form found line rest out n place named number inside origin more ih =>
    have mem : place ∈ woven.places := Array.mem_of_getElem? (Option.ite_none_left_eq_some.1 origin).2
    have shown := replacement?_eq_some number origin found.length
    cases form with
    | colon =>
      rw [decide_eq_false named.getLast?_ne] at ih
      rw [relocateForm_of_names .colon woven named, shown, Option.getD_some, decide_eq_false named.getLast?_ne,
        relocateForm_paren_render_append plain mem, ih]
    | paren =>
      have named' := named.relocateForm_colon plain (found.getLast? = some '\n')
      rw [named.relocateForm_colon_append, relocateForm_of_names .paren woven named', shown, Option.getD_some, ih]
  | @kept form found line rest out named outside more ih =>
    have left := replacement?_eq_none lines outside found.length
    cases form with
    | colon =>
      rw [decide_eq_false named.getLast?_ne] at ih
      rw [relocateForm_of_names .colon woven named, left, Option.getD_none, decide_eq_false named.getLast?_ne,
        named.relocateForm_paren_append, ih]
    | paren =>
      have named' := named.relocateForm_colon plain (found.getLast? = some '\n')
      rw [named.relocateForm_colon_append, relocateForm_of_names .paren woven named', left, Option.getD_none, ih]
  | @other fresh c rest out unnamed more ih =>
    rw [relocateForm_cons .colon woven fun hf => unnamed hf .colon,
      relocateForm_cons .paren woven fun hf hs => unnamed hf .paren hs.of_relocateForm, ih]

end Passes

/-- **To relocate a log is one scan.** Each location of either form is replaced if its line is a line of the text, and
kept if it is not, and all else is kept. -/
theorem relocate_eq_iff (b : Weaving) (plain : ∀ place ∈ b.weave.places, place.IsPlain) (log out : String) :
    relocate b.weave log = out ↔ Relocated b.weave true log.toList out.toList := by
  have lines := b.represents.inside
  constructor
  · rintro rfl
    obtain ⟨cs, scan⟩ := exists_relocated lines log.toList true
    rw [relocate, scan.eq plain lines, String.toList_ofList]
    exact scan
  · intro scan
    rw [relocate, scan.eq plain lines, String.ofList_toList]

/-- Two lines of two files. -/
def twoLines : Weaving :=
  .push (.push .start "#version 330\n" ⟨"main.frag", 1⟩) "float helper();\n" ⟨"common.glsl", 4⟩

theorem isPlain_twoLines : ∀ place ∈ twoLines.weave.places, place.IsPlain := by
  have places : twoLines.weave.places = #[⟨"main.frag", 1⟩, ⟨"common.glsl", 4⟩] := by decide +kernel
  intro place hp
  rw [places] at hp
  obtain rfl | rfl : place = ⟨"main.frag", 1⟩ ∨ place = ⟨"common.glsl", 4⟩ := by simpa using hp
  · exact ⟨by decide, fun c hc => by obtain rfl : 'm' = c := Option.some.inj hc; decide⟩
  · exact ⟨by decide, fun c hc => by obtain rfl : 'c' = c := Option.some.inj hc; decide⟩

/-- The names of both files are plain, and a log with both forms has a location outside the text. -/
theorem relocated_both_forms :
    (∀ place ∈ twoLines.weave.places, place.IsPlain) ∧ Relocated twoLines.weave true
      "ERROR: 0:2: syntax error\n0(1) : bad version\n0(3) : end of file".toList
      "common.glsl(4): syntax error\nmain.frag(1): bad version\n0(3) : end of file".toList :=
  ⟨isPlain_twoLines, (relocate_eq_iff _ isPlain_twoLines _ _).1 (by decide +kernel)⟩

end CompilerLog

end ShaderWeave
