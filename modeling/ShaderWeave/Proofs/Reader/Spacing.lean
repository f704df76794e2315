import ShaderWeave.Proofs.Lexing.Relexing

/-!
# Tokens with other blanks between them

Two sequences of tokens have the same words if they differ in blanks and lines alone. A reader only looks at the token
under the cursor and at those that are no blanks beyond it, so what it sees of the two is the same: `Cursor.Respaced`
says this of two cursors. Moving on keeps it (`Respaced.advance`), and so does moving to the next semicolon
(`Respaced.abandon`), since a semicolon is no blank.
-/

namespace ShaderWeave

/-! ### Blanks of a text -/

/-- A token that is a blank is made of nothing else. -/
def Token.Clear (t : Token) : Prop :=
  t.isBlank = true → ∀ c ∈ t.text.toList, ShaderWeave.isBlank c = true

/-- The characters of a text but for its blanks. -/
def unspaced (cs : List Char) : List Char :=
  cs.filter fun c => !isBlank c

theorem unspaced_append (cs ds : List Char) : unspaced (cs ++ ds) = unspaced cs ++ unspaced ds :=
  List.filter_append cs ds

/-- The blanks of a text are blanks. -/
theorem clear_of_mem_lex {text : String} {t : Token} (h : t ∈ lex text) : t.Clear := by
  refine forall_mem_lex (fun c cs number hb => ?_) (fun number _ d hd => ?_) text t h
  · rw [Lexeme.token, String.toList_ofList]
    exact ((Lexeme.cut_first c cs).1.blank_of_kind (of_decide_eq_true hb)).2
  · obtain rfl : d = '\n' := by simpa [Token.newline] using hd
    rfl

/-- Nothing is left of blanks. -/
theorem unspaced_rendered_of_isBlank {ts : List Token} (h : ∀ t ∈ ts, t.isBlank = true) (hc : ∀ t ∈ ts, t.Clear) :
    unspaced (rendered ts) = [] := by
  refine List.filter_eq_nil_iff.2 fun c hm => ?_
  obtain ⟨t, ht, hm⟩ := List.mem_flatMap.1 hm
  rw [Token.toList_render_of_isBlank (h t ht)] at hm
  simp [hc t ht (h t ht) c hm]

/-- A token is written as its word says. -/
theorem Token.render_of_word {t t' : Token} (h : t'.word = t.word) : t'.render = t.render := by
  rw [render, render, kind_of_word h, text_of_word h]

/-! ### What is left after blanks -/

theorem dropWhile_of_words_nil {ts : List Token} (h : words ts = []) : ts.dropWhile Token.isBlank = [] := by
  induction ts with
  | nil => rfl
  | cons t ts ih =>
    cases ht : t.isBlank with
    | true =>
      rw [words_cons_of_isBlank ht] at h
      rw [List.dropWhile_cons_of_pos ht, ih h]
    | false => simp [words_cons_of_solid ht] at h

/-- The first token after the blanks is the first word. -/
theorem dropWhile_of_words_cons {ts : List Token} {w : Token.Kind × String} {ws : List (Token.Kind × String)}
    (h : words ts = w :: ws) : ∃ t us, ts.dropWhile Token.isBlank = t :: us ∧ t.word = w ∧ words us = ws := by
  obtain ⟨blanks, t, us, rfl, hb, solid, hw, rest⟩ := exists_of_words_eq_cons h
  refine ⟨t, us, ?_, hw, rest⟩
  rw [List.dropWhile_append_of_pos hb, List.dropWhile_cons_of_neg (by simp [solid])]

/-- Up to a token that is no blank, blanks are passed like any others. -/
theorem significant_dropWhile_of {p : Token → Bool} (hp : ∀ t, t.isBlank = true → p t = true) (ts : List Token) :
    significant (ts.dropWhile p) = (significant ts).dropWhile p := by
  induction ts with
  | nil => rfl
  | cons t ts ih =>
    by_cases hb : t.isBlank
    · have skipped : significant (t :: ts) = significant ts := by simp [significant, hb]
      rw [List.dropWhile_cons_of_pos (hp t hb), skipped, ih]
    · have kept (us : List Token) : significant (t :: us) = t :: significant us := by simp [significant, hb]
      cases h : p t with
      | true => rw [List.dropWhile_cons_of_pos h, kept, List.dropWhile_cons_of_pos h, ih]
      | false => rw [List.dropWhile_cons_of_neg (by simp [h]), kept, List.dropWhile_cons_of_neg (by simp [h])]

/-- All that is seen, in order. -/
def View.all (v : View) : List Token :=
  v.under.toList ++ v.upcoming

/-- The first token is significant if it is no blank. -/
theorem head?_significant {ts : List Token} (h : ∀ t ∈ ts.head?, t.isBlank = false) :
    (significant ts).head? = ts.head? := by
  cases ts with
  | nil => rfl
  | cons t ts => simp [significant, h t rfl]

/-- The token is not the semicolon with which a declaration ends. -/
def Token.goesOn (t : Token) : Bool :=
  t.kind ≠ .semicolon

theorem Token.goesOn_of_isBlank {t : Token} (h : t.isBlank = true) : t.goesOn = true := by
  have kind : t.kind = .whitespace := of_decide_eq_true h
  simp [goesOn, kind]

/-- What is ahead from the next semicolon on is what is seen from there on. -/
theorem significant_dropWhile_goesOn (c : Cursor) :
    significant (c.ahead.dropWhile Token.goesOn) = c.view.all.dropWhile Token.goesOn := by
  cases ha : c.ahead with
  | nil => simp [View.all, Cursor.view, ha, significant]
  | cons t ts =>
    have all : c.view.all = t :: significant ts := by simp [View.all, Cursor.view, ha]
    rw [all]
    cases h : t.goesOn with
    | true =>
      rw [List.dropWhile_cons_of_pos h, List.dropWhile_cons_of_pos h]
      exact significant_dropWhile_of (fun _ => Token.goesOn_of_isBlank) ts
    | false =>
      have solid : t.isBlank = false := by
        cases hb : t.isBlank with
        | false => rfl
        | true => rw [Token.goesOn_of_isBlank hb] at h; simp at h
      rw [List.dropWhile_cons_of_neg (by simp [h]), List.dropWhile_cons_of_neg (by simp [h])]
      simp [significant, solid]

/-- Where reading is abandoned, the next semicolon is seen, and what comes after it. -/
theorem view_abandon (c : Cursor) :
    (c.skip (c.ahead.takeWhile Token.goesOn).length).view =
      ⟨(c.view.all.dropWhile Token.goesOn).head?, (c.view.all.dropWhile Token.goesOn).tail⟩ := by
  have ahead : (c.skip (c.ahead.takeWhile Token.goesOn).length).ahead = c.ahead.dropWhile Token.goesOn :=
    drop_length_takeWhile _ _
  have solid : ∀ t ∈ (c.ahead.dropWhile Token.goesOn).head?, t.isBlank = false := by
    intro t ht
    have stops := List.head?_dropWhile_not Token.goesOn c.ahead
    rw [ht] at stops
    cases hb : t.isBlank with
    | false => rfl
    | true => simp [Token.goesOn_of_isBlank hb] at stops
  rw [← significant_dropWhile_goesOn, head?_significant solid, ← significant_drop_one solid, Cursor.view, ahead]

namespace Cursor

/-- What is seen from two cursors are the same words, and all blanks ahead are blanks. -/
structure Respaced (c c' : Cursor) : Prop where
  /-- The same word is under them. -/
  under : c'.view.under.map Token.word = c.view.under.map Token.word
  /-- The same words come next. -/
  upcoming : c'.view.upcoming.map Token.word = c.view.upcoming.map Token.word
  /-- The blanks ahead of the first one are blanks. -/
  clear : ∀ t ∈ c.ahead, t.Clear
  /-- Those ahead of the second one are. -/
  clear' : ∀ t ∈ c'.ahead, t.Clear

namespace Respaced

variable {c c' : Cursor}

theorem nextKind (h : c.Respaced c') : c'.nextKind = c.nextKind := by
  have first := congrArg List.head? h.upcoming
  rw [List.head?_map, List.head?_map] at first
  have kinds := congrArg (Option.map Prod.fst) first
  rw [Option.map_map, Option.map_map] at kinds
  rw [nextKind_eq, nextKind_eq]
  exact kinds

theorem skip {m n : Nat} (h : c.Respaced c')
    (under : (c'.skip n).view.under.map Token.word = (c.skip m).view.under.map Token.word)
    (upcoming : (c'.skip n).view.upcoming.map Token.word = (c.skip m).view.upcoming.map Token.word) :
    (c.skip m).Respaced (c'.skip n) :=
  ⟨under, upcoming, fun t ht => h.clear t (List.mem_of_mem_drop ht), fun t ht => h.clear' t (List.mem_of_mem_drop ht)⟩

theorem advance (h : c.Respaced c') :
    (c.skip (Reader.advance c).steps).Respaced (c'.skip (Reader.advance c').steps) := by
  refine h.skip ?_ ?_
  · rw [Reader.view_advance, Reader.view_advance, ← List.head?_map, ← List.head?_map, h.upcoming]
  · rw [Reader.view_advance, Reader.view_advance, List.map_tail, List.map_tail, h.upcoming]

theorem all (h : c.Respaced c') : c'.view.all.map Token.word = c.view.all.map Token.word := by
  rw [View.all, View.all, List.map_append, List.map_append, h.upcoming, ← Option.toList_map, h.under,
    Option.toList_map]

theorem abandon (h : c.Respaced c') :
    (c.skip (c.ahead.takeWhile Token.goesOn).length).Respaced (c'.skip (c'.ahead.takeWhile Token.goesOn).length) := by
  have dropped (ts : List Token) : (ts.dropWhile Token.goesOn).map Token.word =
      (ts.map Token.word).dropWhile fun w => w.1 ≠ .semicolon := by
    rw [List.dropWhile_map]
    rfl
  refine h.skip ?_ ?_
  · rw [view_abandon, view_abandon, ← List.head?_map, ← List.head?_map, dropped, dropped, h.all]
  · rw [view_abandon, view_abandon, List.map_tail, List.map_tail, dropped, dropped, h.all]

end Respaced

end Cursor

end ShaderWeave
