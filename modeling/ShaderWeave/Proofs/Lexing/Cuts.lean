import ShaderWeave.Proofs.Lexing.Kinds

/-!
# How a line is cut

`Cut l rest` says that a line goes on with `rest` after the lexeme `l`: the characters of the lexeme are of its class,
and the first one of the rest does not continue it. By `first_eq_iff` the lexer cuts off exactly what can be cut off in
this way, so a lexeme can be told without the lexer, and the same lexeme is cut off wherever the rest begins alike.

* `flatMap_source_lexemes`: the lexemes of a line are the line, cut into pieces.
* `flatMap_render_lexemes`: written with both quotes they are the line with its last string closed. A string is left
  open just where the line has an odd number of quotes.
-/

namespace ShaderWeave

/-! ### Classes of characters -/

theorem isLetter_of_isDigit {c : Char} (h : c.isDigit = true) : isLetter c = false := by
  have digit : 48 ≤ c.val.toNat ∧ c.val.toNat ≤ 57 := by
    change (decide (48 ≤ c.val) && decide (c.val ≤ 57)) = true at h
    rwa [Bool.and_eq_true, decide_eq_true_iff, decide_eq_true_iff, UInt32.le_iff_toNat_le, UInt32.le_iff_toNat_le] at h
  have alpha : c.isAlpha = false := by
    change (decide (65 ≤ c.val ∧ c.val ≤ 90) || (decide (97 ≤ c.val) && decide (c.val ≤ 122))) = false
    rw [Bool.or_eq_false_iff, Bool.and_eq_false_iff, decide_eq_false_iff_not, decide_eq_false_iff_not,
      decide_eq_false_iff_not]
    simp only [UInt32.le_iff_toNat_le]
    change ¬ (65 ≤ c.val.toNat ∧ c.val.toNat ≤ 90) ∧ (¬ 97 ≤ c.val.toNat ∨ ¬ c.val.toNat ≤ 122)
    omega
  have bar : c ≠ '_' := by
    rintro rfl
    revert h
    decide
  simp [isLetter, alpha, bar]

theorem isBlank_iff {c : Char} : isBlank c = true ↔ c = ' ' ∨ c = '\t' ∨ c = '\n' := by
  simp [isBlank, or_assoc]

/-- A character of a word or a number. -/
def isWordPart (c : Char) : Bool :=
  isLetter c || c.isDigit

/-- A character of a number. -/
def isNumberPart (c : Char) : Bool :=
  c.isDigit || c = '.'

/-- The text is empty or begins with a character that is not of the class. -/
def Ends (p : Char → Bool) (rest : List Char) : Prop :=
  ∀ c ∈ rest.head?, p c = false

theorem Ends.nil (p : Char → Bool) : Ends p [] := by
  simp [Ends]

theorem ends_dropWhile (p : Char → Bool) (cs : List Char) : Ends p (cs.dropWhile p) := by
  intro c hc
  have := List.head?_dropWhile_not p cs
  rw [hc] at this
  simpa using this

theorem Ends.takeWhile_append {p : Char → Bool} {taken rest : List Char} (ht : ∀ c ∈ taken, p c = true)
    (h : Ends p rest) : (taken ++ rest).takeWhile p = taken := by
  rw [List.takeWhile_append_of_pos ht]
  cases rest with
  | nil => simp
  | cons c rest => simp [h c rfl]

theorem Ends.dropWhile_append {p : Char → Bool} {taken rest : List Char} (ht : ∀ c ∈ taken, p c = true)
    (h : Ends p rest) : (taken ++ rest).dropWhile p = rest := by
  rw [List.dropWhile_append_of_pos ht]
  cases rest with
  | nil => rfl
  | cons c rest => simp [h c rfl]

theorem of_mem_takeWhile {p : Char → Bool} {cs : List Char} : ∀ c ∈ cs.takeWhile p, p c = true := by
  intro c hc
  exact List.all_eq_true.1 List.all_takeWhile c hc

namespace Token.Kind

theorem ofWord_eq (word : List Char) : ofWord word = .boolean ∨ ofWord word = .keyword := by
  rw [ofWord]
  split <;> simp

theorem ofWord_ne_string (word : List Char) : ofWord word ≠ .string := by
  rcases ofWord_eq word with h | h <;> simp [h]

theorem ofNumber_ne_string (number : List Char) : ofNumber number ≠ .string := by
  rcases ofNumber_eq number with h | h <;> simp [h]

end Token.Kind

namespace Lexeme

/-- The text of a lexeme as it is written, where a string has both its quotes. -/
def render (l : Lexeme) : List Char :=
  if l.kind = .string then '"' :: (l.text ++ ['"']) else l.text

/-- The text that is cut out for a lexeme. A string may lack its second quote. -/
def source (l : Lexeme) : List Char :=
  if l.unclosed then '"' :: l.text else l.render

theorem toList_render_token (n : Nat) (l : Lexeme) : (l.token n).render.toList = l.render := by
  by_cases h : l.kind = .string
  · simp [token, Token.render, render, h]
  · simp [token, Token.render, render, h]

theorem source_whole {kind : Token.Kind} (h : kind ≠ .string) (text : List Char) : (whole kind text).source = text := by
  simp [source, whole, render, h]

/-- The lexeme can be cut off a line that goes on with `rest`. -/
inductive Cut : Lexeme → List Char → Prop where
  /-- A number sign takes the letters after it. -/
  | directive {word rest : List Char} : (∀ c ∈ word, isLetter c = true) → Ends isLetter rest →
    Cut (whole .directive ('#' :: word)) rest
  /-- A word goes on with letters and digits. -/
  | word {c : Char} {word rest : List Char} : isLetter c = true → (∀ d ∈ word, isWordPart d = true) →
    Ends isWordPart rest → Cut (whole (.ofWord (c :: word)) (c :: word)) rest
  /-- A number goes on with digits and dots. -/
  | number {c : Char} {body rest : List Char} : c.isDigit = true → (∀ d ∈ body, isNumberPart d = true) →
    Ends isNumberPart rest → rest.head? ≠ some 'f' → Cut (whole (.ofNumber (c :: body)) (c :: body)) rest
  /-- One letter `f` belongs to the number before it, whatever follows. -/
  | marked {c : Char} {body rest : List Char} : c.isDigit = true → (∀ d ∈ body, isNumberPart d = true) →
    Cut (whole (.ofNumber (c :: (body ++ ['f']))) (c :: (body ++ ['f']))) rest
  /-- Blanks go on with blanks. -/
  | blank {c : Char} {blanks rest : List Char} : isBlank c = true → (∀ d ∈ blanks, isBlank d = true) →
    Ends isBlank rest → Cut (whole .whitespace (c :: blanks)) rest
  /-- A string ends with a quote. -/
  | string {text rest : List Char} : '"' ∉ text → Cut (whole .string text) rest
  /-- A string without its second quote ends with the line. -/
  | unclosed {text : List Char} : '"' ∉ text → Cut ⟨.string, text, true⟩ []
  /-- Any other character stands alone. -/
  | single {c : Char} {rest : List Char} : c ≠ '#' → isLetter c = false → c.isDigit = false → isBlank c = false →
    c ≠ '"' → Cut (whole (.ofChar c) [c]) rest

/-! ### The first lexeme -/

theorem first_hash (cs : List Char) :
    first '#' cs = (whole .directive ('#' :: cs.takeWhile isLetter), cs.dropWhile isLetter) := by
  rw [first, if_pos rfl]

theorem first_of_isLetter {c : Char} (h : isLetter c = true) (cs : List Char) :
    first c cs = (whole (.ofWord (c :: cs.takeWhile isWordPart)) (c :: cs.takeWhile isWordPart),
      cs.dropWhile isWordPart) := by
  have hash : c ≠ '#' := by
    rintro rfl
    exact absurd h (by decide)
  rw [first, if_neg hash, if_pos h]
  rfl

theorem first_of_isDigit {c : Char} (h : c.isDigit = true) (cs : List Char) :
    first c cs = (whole (.ofNumber (c :: numberPart cs)) (c :: numberPart cs), cs.drop (numberPart cs).length) := by
  have hash : c ≠ '#' := by
    rintro rfl
    exact absurd h (by decide)
  rw [first, if_neg hash, if_neg (by simp [isLetter_of_isDigit h]), if_pos h]

theorem first_of_isBlank {c : Char} (h : isBlank c = true) (cs : List Char) :
    first c cs = (whole .whitespace (c :: cs.takeWhile isBlank), cs.dropWhile isBlank) := by
  obtain rfl | rfl | rfl := isBlank_iff.1 h <;> rfl

theorem first_quote_of_mem {text : List Char} (ht : '"' ∉ text) (rest : List Char) :
    first '"' (text ++ '"' :: rest) = (whole .string text, rest) := by
  have taken : ∀ c ∈ text, decide (c ≠ '"') = true := by
    intro c hc
    simpa using fun h : c = '"' => ht (h ▸ hc)
  have ends : Ends (fun c => decide (c ≠ '"')) ('"' :: rest) := by simp [Ends]
  have parts : first '"' (text ++ '"' :: rest) = (⟨.string, (text ++ '"' :: rest).takeWhile (· ≠ '"'),
    '"' ∉ text ++ '"' :: rest⟩, ((text ++ '"' :: rest).dropWhile (· ≠ '"')).drop 1) := rfl
  rw [parts, ends.takeWhile_append taken, ends.dropWhile_append taken]
  simp [whole]

theorem first_quote_of_notMem {cs : List Char} (h : '"' ∉ cs) : first '"' cs = (⟨.string, cs, true⟩, []) := by
  have taken : ∀ c ∈ cs, decide (c ≠ '"') = true := by
    intro c hc
    simpa using fun h' : c = '"' => h (h' ▸ hc)
  have parts : first '"' cs = (⟨.string, cs.takeWhile (· ≠ '"'), '"' ∉ cs⟩, (cs.dropWhile (· ≠ '"')).drop 1) := rfl
  have all := (Ends.nil _).takeWhile_append taken
  have none := (Ends.nil _).dropWhile_append taken
  rw [List.append_nil] at all none
  rw [parts, all, none]
  simp [h]

theorem first_of_single {c : Char} (hash : c ≠ '#') (letter : isLetter c = false) (digit : c.isDigit = false)
    (blank : isBlank c = false) (quote : c ≠ '"') (cs : List Char) : first c cs = (whole (.ofChar c) [c], cs) := by
  simp [first, hash, letter, digit, blank, quote]

/-- The part of a number after its first digit. -/
theorem numberPart_of_ends {body rest : List Char} (hb : ∀ d ∈ body, isNumberPart d = true)
    (hr : Ends isNumberPart rest) :
    numberPart (body ++ rest) = if rest.head? = some 'f' then body ++ ['f'] else body := by
  have taken : (body ++ rest).takeWhile (fun c => c.isDigit || c = '.') = body := hr.takeWhile_append hb
  have left : (body ++ rest).dropWhile (fun c => c.isDigit || c = '.') = rest := hr.dropWhile_append hb
  simp only [numberPart, taken, left]

/-- What the lexer cuts off can be cut off. -/
theorem cut_first (c : Char) (cs : List Char) :
    Cut (first c cs).1 (first c cs).2 ∧ (first c cs).1.source ++ (first c cs).2 = c :: cs := by
  by_cases hash : c = '#'
  · subst hash
    rw [first_hash, source_whole (by simp), List.cons_append, List.takeWhile_append_dropWhile]
    exact ⟨.directive of_mem_takeWhile (ends_dropWhile _ _), rfl⟩
  by_cases letter : isLetter c = true
  · rw [first_of_isLetter letter, source_whole (Token.Kind.ofWord_ne_string _), List.cons_append,
      List.takeWhile_append_dropWhile]
    exact ⟨.word letter of_mem_takeWhile (ends_dropWhile _ _), rfl⟩
  by_cases digit : c.isDigit = true
  · rw [first_of_isDigit digit, source_whole (Token.Kind.ofNumber_ne_string _)]
    obtain ⟨body, rest, rfl, hb, hr⟩ : ∃ body rest, cs = body ++ rest ∧ (∀ d ∈ body, isNumberPart d = true) ∧
        Ends isNumberPart rest :=
      ⟨_, _, List.takeWhile_append_dropWhile.symm, of_mem_takeWhile, ends_dropWhile _ _⟩
    rw [numberPart_of_ends hb hr]
    by_cases hf : rest.head? = some 'f'
    · obtain ⟨ds, rfl⟩ := List.head?_eq_some_iff.1 hf
      rw [if_pos hf, List.append_cons body 'f' ds, List.drop_left]
      exact ⟨.marked digit hb, by simp⟩
    · rw [if_neg hf, List.drop_left]
      exact ⟨.number digit hb hr hf, rfl⟩
  by_cases blank : isBlank c = true
  · rw [first_of_isBlank blank, source_whole (by simp), List.cons_append, List.takeWhile_append_dropWhile]
    exact ⟨.blank blank of_mem_takeWhile (ends_dropWhile _ _), rfl⟩
  by_cases quote : c = '"'
  · subst quote
    by_cases hq : '"' ∈ cs
    · obtain ⟨text, rest, rfl, ht⟩ := List.eq_append_cons_of_mem hq
      rw [first_quote_of_mem ht]
      exact ⟨.string ht, by simp [source, whole, render]⟩
    · rw [first_quote_of_notMem hq]
      exact ⟨.unclosed hq, by simp [source]⟩
  · rw [first_of_single hash (by simpa using letter) (by simpa using digit) (by simpa using blank) quote,
      source_whole (Token.Kind.ofChar_ne (by decide) c)]
    exact ⟨.single hash (by simpa using letter) (by simpa using digit) (by simpa using blank) quote, rfl⟩

/-- What can be cut off is what the lexer cuts off. -/
theorem Cut.first_eq {l : Lexeme} {rest : List Char} (h : Cut l rest) {c : Char} {cs : List Char}
    (hs : l.source ++ rest = c :: cs) : first c cs = (l, rest) := by
  cases h with
  | directive hw hr =>
    rw [source_whole (by simp), List.cons_append, List.cons.injEq] at hs
    obtain ⟨rfl, rfl⟩ := hs
    rw [first_hash, hr.takeWhile_append hw, hr.dropWhile_append hw]
  | word hd hw hr =>
    rw [source_whole (Token.Kind.ofWord_ne_string _), List.cons_append, List.cons.injEq] at hs
    obtain ⟨rfl, rfl⟩ := hs
    rw [first_of_isLetter hd, hr.takeWhile_append hw, hr.dropWhile_append hw]
  | number hd hb hr hf =>
    rw [source_whole (Token.Kind.ofNumber_ne_string _), List.cons_append, List.cons.injEq] at hs
    obtain ⟨rfl, rfl⟩ := hs
    rw [first_of_isDigit hd, numberPart_of_ends hb hr, if_neg hf, List.drop_left]
  | @marked d body _ hd hb =>
    rw [source_whole (Token.Kind.ofNumber_ne_string _), List.cons_append, List.cons.injEq, List.append_assoc,
      List.singleton_append] at hs
    obtain ⟨rfl, rfl⟩ := hs
    have ends : Ends isNumberPart ('f' :: rest) := by
      intro e he
      obtain rfl : 'f' = e := by simpa using he
      decide
    rw [first_of_isDigit hd, numberPart_of_ends hb ends, List.head?_cons, if_pos rfl, List.append_cons body 'f' rest,
      List.drop_left]
  | blank hb hbs hr =>
    rw [source_whole (by simp), List.cons_append, List.cons.injEq] at hs
    obtain ⟨rfl, rfl⟩ := hs
    rw [first_of_isBlank hb, hr.takeWhile_append hbs, hr.dropWhile_append hbs]
  | @string text _ ht =>
    have hs : '"' :: (text ++ '"' :: rest) = c :: cs := by simpa [source, whole, render] using hs
    obtain ⟨rfl, rfl⟩ := List.cons.inj hs
    exact first_quote_of_mem ht rest
  | @unclosed text ht =>
    have hs : '"' :: text = c :: cs := by simpa [source] using hs
    obtain ⟨rfl, rfl⟩ := List.cons.inj hs
    exact first_quote_of_notMem ht
  | single hash letter digit blank quote =>
    rw [source_whole (Token.Kind.ofChar_ne (by decide) _), List.singleton_append, List.cons.injEq] at hs
    obtain ⟨rfl, rfl⟩ := hs
    exact first_of_single hash letter digit blank quote rest

/-- **The lexer cuts off just what can be cut off.** -/
theorem first_eq_iff {c : Char} {cs rest : List Char} {l : Lexeme} :
    first c cs = (l, rest) ↔ Cut l rest ∧ l.source ++ rest = c :: cs := by
  constructor
  · intro h
    have cut := cut_first c cs
    rwa [h] at cut
  · rintro ⟨cut, hs⟩
    exact cut.first_eq hs

/-! ### Quotes -/

namespace Cut

variable {l : Lexeme} {rest : List Char}

theorem rest_eq_nil (h : Cut l rest) (hu : l.unclosed = true) : rest = [] := by
  cases h with
  | unclosed => rfl
  | _ => simp [whole] at hu

/-- A closed string has two quotes, an open one has one, and no other lexeme has any. -/
theorem count_source (h : Cut l rest) : l.source.count '"' % 2 = if l.unclosed then 1 else 0 := by
  have none {kind : Token.Kind} {text : List Char} (hk : kind ≠ .string) (ht : '"' ∉ text) :
      (whole kind text).source.count '"' % 2 = 0 := by
    rw [source_whole hk, List.count_eq_zero.2 ht]
  cases h with
  | directive hw =>
    refine none (by simp) fun hq => ?_
    have := hw '"' (by simpa using hq)
    exact absurd this (by decide)
  | word hd hw =>
    refine none (Token.Kind.ofWord_ne_string _) fun hq => ?_
    obtain rfl | hq := List.mem_cons.1 hq
    · exact absurd hd (by decide)
    · exact absurd (hw _ hq) (by decide)
  | number hd hb =>
    refine none (Token.Kind.ofNumber_ne_string _) fun hq => ?_
    obtain rfl | hq := List.mem_cons.1 hq
    · exact absurd hd (by decide)
    · exact absurd (hb _ hq) (by decide)
  | marked hd hb =>
    refine none (Token.Kind.ofNumber_ne_string _) fun hq => ?_
    obtain rfl | hq := List.mem_cons.1 hq
    · exact absurd hd (by decide)
    · exact absurd (hb '"' (by simpa using hq)) (by decide)
  | blank hb hbs =>
    refine none (by simp) fun hq => ?_
    obtain rfl | hq := List.mem_cons.1 hq
    · exact absurd hb (by decide)
    · exact absurd (hbs _ hq) (by decide)
  | string ht => simp [source, whole, render, List.count_eq_zero.2 ht]
  | unclosed ht => simp [source, List.count_eq_zero.2 ht]
  | single _ _ _ _ quote => exact none (Token.Kind.ofChar_ne (by decide) _) (by simpa using quote.symm)

/-- A lexeme is written as it was cut out, but for a string that lacks its quote. -/
theorem render_eq (h : Cut l rest) : l.render = l.source ++ if l.unclosed then ['"'] else [] := by
  cases h with
  | unclosed => simp [render, source]
  | _ => simp [source, whole]

end Cut

end Lexeme

/-! ### Whole lines -/

/-- **The lexemes of a line are the line.** -/
theorem flatMap_source_lexemes (cs : List Char) : (lexemes cs).flatMap Lexeme.source = cs := by
  induction cs using lexemes.induct with
  | case1 => simp
  | case2 c cs ih =>
    rw [lexemes_cons, List.flatMap_cons, ih]
    exact (Lexeme.cut_first c cs).2

/-- A string is left open on a line just where the number of quotes is odd. -/
theorem any_unclosed_iff (cs : List Char) : (lexemes cs).any Lexeme.unclosed = true ↔ cs.count '"' % 2 = 1 := by
  induction cs using lexemes.induct with
  | case1 => simp
  | case2 c cs ih =>
    obtain ⟨cut, hs⟩ := Lexeme.cut_first c cs
    have count := cut.count_source
    rw [lexemes_cons, List.any_cons, Bool.or_eq_true, ih, ← hs, List.count_append]
    cases hu : (Lexeme.first c cs).1.unclosed with
    | true =>
      rw [hu, if_pos rfl] at count
      rw [cut.rest_eq_nil hu]
      simp [count]
    | false =>
      rw [hu, if_neg (by simp)] at count
      simp only [Bool.false_eq_true, false_or]
      omega

/-- A line with its last string closed. -/
def closeQuote (line : List Char) : List Char :=
  if line.count '"' % 2 = 1 then line ++ ['"'] else line

/-- **The lexemes of a line, written with both quotes, are the line with its last string closed.** -/
theorem flatMap_render_lexemes (cs : List Char) : (lexemes cs).flatMap Lexeme.render = closeQuote cs := by
  have closed : (lexemes cs).flatMap Lexeme.render =
      cs ++ if (lexemes cs).any Lexeme.unclosed then ['"'] else [] := by
    induction cs using lexemes.induct with
    | case1 => simp
    | case2 c cs ih =>
      obtain ⟨cut, hs⟩ := Lexeme.cut_first c cs
      rw [lexemes_cons, List.flatMap_cons, ih, List.any_cons, cut.render_eq, ← hs]
      cases hu : (Lexeme.first c cs).1.unclosed with
      | true =>
        rw [cut.rest_eq_nil hu]
        simp
      | false => simp
  rw [closed, closeQuote]
  simp only [any_unclosed_iff]
  split <;> simp

/-! ### Whole texts -/

theorem Text.newline_notMem_content (line : List Char) : '\n' ∉ content line := by
  intro h
  simpa using of_mem_takeWhile '\n' h

theorem map_fst_numberedLines (text : String) :
    (numberedLines text).map Prod.fst = (Text.lines text.toList).map Text.content := by
  rw [numberedLines, List.zipIdx_map_fst]

theorem newline_notMem_of_mem_numberedLines {text : String} {line : List Char × Nat} (h : line ∈ numberedLines text) :
    '\n' ∉ line.1 := by
  have mem : line.1 ∈ (numberedLines text).map Prod.fst := List.mem_map_of_mem h
  rw [map_fst_numberedLines, List.mem_map] at mem
  obtain ⟨whole, -, heq⟩ := mem
  rw [← heq]
  exact Text.newline_notMem_content whole

end ShaderWeave
