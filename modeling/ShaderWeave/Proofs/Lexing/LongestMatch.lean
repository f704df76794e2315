import ShaderWeave.Proofs.Lexing.Lines
import Mathlib.Computability.Language

/-!
# Lines are cut by longest match

The tokens of a text, told without the lexer. There are six rules, each a regular language over classes of characters. A
line is cut from left to right, and each piece is the longest beginning of what is left that any of the rules matches.
`Segments` says how a line is cut in this way, and `Tokenizes` which tokens a text has.

No two rules match texts with the same first character (`Rule.eq_of_mem_texts`), so it never matters which rule is
tried first, and a line is cut in one way at most (`Rule.Cuts.unique`). What can be cut off a line is what a rule cuts
off (`Cut.exists_cuts`). The main result, `lex_eq_iff`, is that the lexer gives these tokens and no others.
-/

namespace ShaderWeave

open scoped Computability

/-! ### Classes of characters -/

/-- A character in `[A-Za-z_]`. -/
def InWord (c : Char) : Prop :=
  ('A' ≤ c ∧ c ≤ 'Z') ∨ ('a' ≤ c ∧ c ≤ 'z') ∨ c = '_'

/-- A character in `[0-9]`. -/
def InNumber (c : Char) : Prop :=
  '0' ≤ c ∧ c ≤ '9'

/-- A character in `[ \t]`. -/
def InBlanks (c : Char) : Prop :=
  c = ' ' ∨ c = '\t'

instance (c : Char) : Decidable (InWord c) :=
  inferInstanceAs (Decidable (_ ∨ _))

instance (c : Char) : Decidable (InNumber c) :=
  inferInstanceAs (Decidable (_ ∧ _))

instance (c : Char) : Decidable (InBlanks c) :=
  inferInstanceAs (Decidable (_ ∨ _))

theorem isLetter_iff {c : Char} : isLetter c = true ↔ InWord c := by
  have alpha : c.isAlpha = true ↔ ('A' ≤ c ∧ c ≤ 'Z') ∨ ('a' ≤ c ∧ c ≤ 'z') := by
    change (decide (65 ≤ c.val ∧ c.val ≤ 90) || (decide (97 ≤ c.val) && decide (c.val ≤ 122))) = true ↔ _
    rw [Bool.or_eq_true, Bool.and_eq_true, decide_eq_true_iff, decide_eq_true_iff, decide_eq_true_iff]
    exact Iff.rfl
  simp only [isLetter, Bool.or_eq_true, alpha, decide_eq_true_eq, InWord, or_assoc]

theorem isDigit_iff {c : Char} : c.isDigit = true ↔ InNumber c := by
  simp only [Char.isDigit, Bool.and_eq_true, decide_eq_true_eq]
  exact Iff.rfl

theorem isBlank_iff_inBlanks {c : Char} (h : c ≠ '\n') : isBlank c = true ↔ InBlanks c := by
  simp [isBlank_iff, InBlanks, h]

namespace Lexeme

/-! ### Rules -/

/-- The rules by which a line is cut. -/
inductive Rule where
  /-- `#[A-Za-z_]*`. -/
  | directive
  /-- `[A-Za-z_][A-Za-z0-9_]*`. -/
  | word
  /-- `[0-9][0-9.]*f?`. -/
  | number
  /-- `[ \t]+`. -/
  | blanks
  /-- A quote, what follows up to the next quote, and that quote if there is one. -/
  | string
  /-- Any other character alone. -/
  | single
  deriving DecidableEq

/-- The texts of one character that is of the class. -/
def oneOf (p : Char → Prop) : Language Char :=
  {text | ∃ c, p c ∧ text = [c]}

namespace Rule

/-- The texts that a rule matches. -/
def texts : Rule → Language Char
  | directive => oneOf (· = '#') * (oneOf InWord)∗
  | word => oneOf InWord * (oneOf fun c => InWord c ∨ InNumber c)∗
  | number => oneOf InNumber * (oneOf fun c => InNumber c ∨ c = '.')∗ * (1 + oneOf (· = 'f'))
  | blanks => oneOf InBlanks * (oneOf InBlanks)∗
  | string => oneOf (· = '"') * (oneOf (· ≠ '"'))∗ * (1 + oneOf (· = '"'))
  | single => oneOf fun c => ¬ (c = '#' ∨ InWord c ∨ InNumber c ∨ InBlanks c ∨ c = '"')

/-- The characters with a kind of their own. -/
def punctuation : List (Char × Token.Kind) :=
  [('{', .openCurly), ('}', .closeCurly), ('(', .openParen), (')', .closeParen), (';', .semicolon), (',', .comma),
    ('=', .equals), ('-', .minus)]

/-- The kind of a text that a rule matches. -/
def kind : Rule → List Char → Token.Kind
  | directive, _ => .directive
  | word, text => if text = "true".toList ∨ text = "false".toList then .boolean else .keyword
  | number, text => if '.' ∈ text then .float else .integer
  | blanks, _ => .whitespace
  | string, _ => .string
  | single, text => (text.head?.bind fun c => List.lookup c punctuation).getD .other

/-- The text of the token for a text that a rule matches. A string loses its quotes. -/
def content : Rule → List Char → List Char
  | string, text => text.filter (· ≠ '"')
  | _, text => text

/-- The token for a text that a rule matches, on a line. -/
def token (number : Nat) (piece : Rule × List Char) : Token :=
  ⟨piece.1.kind piece.2, String.ofList (piece.1.content piece.2), number⟩

/-- The rule cuts `piece` off a text that goes on with `rest`: it matches, and no rule matches more. -/
structure Cuts (rule : Rule) (piece rest : List Char) : Prop where
  /-- The rule matches. -/
  matched : piece ∈ rule.texts
  /-- No longer beginning of the text is matched by any rule. -/
  longest : ∀ (other : Rule) (text : List Char), text ∈ other.texts → text <+: piece ++ rest →
    text.length ≤ piece.length

end Rule

/-- A line is cut from left to right, each time by the longest match. -/
inductive Segments : List Char → List (Rule × List Char) → Prop where
  /-- Nothing is left. -/
  | done : Segments [] []
  /-- A rule cuts off a piece, and the rest is cut. -/
  | next {rule : Rule} {piece rest : List Char} {pieces : List (Rule × List Char)} (h : rule.Cuts piece rest)
    (more : Segments rest pieces) : Segments (piece ++ rest) ((rule, piece) :: pieces)

end Lexeme

open Lexeme in
/-- The tokens of a text whose first line has the given number. Each line is segmented, and a newline token ends its
tokens. -/
inductive Tokenizes : Nat → List Char → List Token → Prop where
  /-- No line is left, also behind the newline that ends the last one. -/
  | done (n : Nat) : Tokenizes n [] []
  /-- The last line lacks its newline. -/
  | last {n : Nat} {line : List Char} {pieces : List (Rule × List Char)} (hn : '\n' ∉ line) (hl : line ≠ [])
    (h : Segments line pieces) : Tokenizes n line (pieces.map (Rule.token n) ++ [⟨.whitespace, "\n", n⟩])
  /-- A line is ended, and others may follow. -/
  | ended {n : Nat} {line rest : List Char} {pieces : List (Rule × List Char)} {ts : List Token} (hn : '\n' ∉ line)
    (h : Segments line pieces) (more : Tokenizes (n + 1) rest ts) :
    Tokenizes n (line ++ '\n' :: rest) (pieces.map (Rule.token n) ++ ⟨.whitespace, "\n", n⟩ :: ts)

namespace Lexeme

/-! ### What the rules match -/

theorem mem_oneOf {p : Char → Prop} {text : List Char} : text ∈ oneOf p ↔ ∃ c, p c ∧ text = [c] :=
  Iff.rfl

theorem mem_oneOf_mul {p : Char → Prop} {l : Language Char} {text : List Char} :
    text ∈ oneOf p * l ↔ ∃ c cs, p c ∧ cs ∈ l ∧ text = c :: cs := by
  rw [Language.mem_mul]
  constructor
  · rintro ⟨_, ⟨c, hc, rfl⟩, cs, hcs, rfl⟩
    exact ⟨c, cs, hc, hcs, rfl⟩
  · rintro ⟨c, cs, hc, hcs, rfl⟩
    exact ⟨[c], ⟨c, hc, rfl⟩, cs, hcs, rfl⟩

/-- Repetition of a class is all texts over it. -/
theorem mem_star_oneOf {p : Char → Prop} {text : List Char} : text ∈ (oneOf p)∗ ↔ ∀ c ∈ text, p c := by
  rw [Language.mem_kstar]
  constructor
  · rintro ⟨parts, rfl, all⟩ c hc
    obtain ⟨part, hp, hc⟩ := List.mem_flatten.1 hc
    obtain ⟨d, hd, rfl⟩ := all part hp
    rwa [List.mem_singleton.1 hc]
  · intro all
    refine ⟨text.map fun c => [c], by simp [← List.flatMap_def], fun part hp => ?_⟩
    obtain ⟨c, hc, rfl⟩ := List.mem_map.1 hp
    exact ⟨c, all c hc, rfl⟩

/-- A text over a class, and one more character where there is one. -/
theorem mem_star_mul {p : Char → Prop} {d : Char} {text : List Char} :
    text ∈ (oneOf p)∗ * (1 + oneOf (· = d)) ↔ ∃ body, (∀ c ∈ body, p c) ∧ (text = body ∨ text = body ++ [d]) := by
  rw [Language.mem_mul]
  constructor
  · rintro ⟨body, hb, _, rfl | ⟨_, rfl, rfl⟩, rfl⟩
    · exact ⟨body, mem_star_oneOf.1 hb, .inl (List.append_nil body)⟩
    · exact ⟨body, mem_star_oneOf.1 hb, .inr rfl⟩
  · rintro ⟨body, hb, rfl | rfl⟩
    · exact ⟨text, mem_star_oneOf.2 hb, [], .inl rfl, List.append_nil text⟩
    · exact ⟨body, mem_star_oneOf.2 hb, [d], .inr ⟨d, rfl, rfl⟩, rfl⟩

namespace Rule

/-- The class of the first character of the texts that a rule matches. -/
def Opens : Rule → Char → Prop
  | directive, c => c = '#'
  | word, c => InWord c
  | number, c => InNumber c
  | blanks, c => InBlanks c
  | string, c => c = '"'
  | single, c => ¬ (c = '#' ∨ InWord c ∨ InNumber c ∨ InBlanks c ∨ c = '"')

/-- What may follow the first character in the texts that a rule matches. -/
def Continues : Rule → List Char → Prop
  | directive, cs => ∀ c ∈ cs, InWord c
  | word, cs => ∀ c ∈ cs, InWord c ∨ InNumber c
  | number, cs => ∃ body, (∀ c ∈ body, InNumber c ∨ c = '.') ∧ (cs = body ∨ cs = body ++ ['f'])
  | blanks, cs => ∀ c ∈ cs, InBlanks c
  | string, cs => ∃ body, (∀ c ∈ body, c ≠ '"') ∧ (cs = body ∨ cs = body ++ ['"'])
  | single, cs => cs = []

theorem mem_texts_iff {rule : Rule} {text : List Char} :
    text ∈ rule.texts ↔ ∃ c cs, rule.Opens c ∧ rule.Continues cs ∧ text = c :: cs := by
  cases rule with
  | directive | word | blanks =>
    rw [texts, mem_oneOf_mul]
    simp only [mem_star_oneOf]
    exact Iff.rfl
  | number | string =>
    rw [texts, mul_assoc, mem_oneOf_mul]
    simp only [mem_star_mul]
    exact Iff.rfl
  | single =>
    rw [texts, mem_oneOf]
    constructor
    · rintro ⟨c, hc, rfl⟩
      exact ⟨c, [], hc, rfl, rfl⟩
    · rintro ⟨c, _, hc, rfl, rfl⟩
      exact ⟨c, hc, rfl⟩

/-- The first character says which rule may match. -/
theorem Opens.unique {rule other : Rule} {c : Char} (h : rule.Opens c) (h' : other.Opens c) : rule = other := by
  have hash (hw : InWord '#' ∨ InNumber '#' ∨ InBlanks '#') : False := by revert hw; decide
  have quote (hw : InWord '"' ∨ InNumber '"' ∨ InBlanks '"') : False := by revert hw; decide
  have digit (hn : InNumber c) : ¬ InWord c := by
    rw [← isLetter_iff, isLetter_of_isDigit (isDigit_iff.2 hn)]
    simp
  have blank (hb : InBlanks c) : ¬ InWord c ∧ ¬ InNumber c := by
    obtain rfl | rfl := hb <;> decide
  cases rule <;> cases other <;> grind [Opens]

/-- No two rules match texts with the same first character. -/
theorem eq_of_mem_texts {rule other : Rule} {c : Char} {cs ds : List Char} (h : c :: cs ∈ rule.texts)
    (h' : c :: ds ∈ other.texts) : rule = other := by
  obtain ⟨_, _, opens, -, heq⟩ := mem_texts_iff.1 h
  obtain ⟨_, _, opens', -, heq'⟩ := mem_texts_iff.1 h'
  obtain ⟨rfl, -⟩ := List.cons.inj heq
  obtain ⟨rfl, -⟩ := List.cons.inj heq'
  exact opens.unique opens'

/-- A rule that matches cuts if it does not match more itself. -/
theorem cuts_of_bound {rule : Rule} {c : Char} {cs rest : List Char} (opens : rule.Opens c)
    (continues : rule.Continues cs)
    (bound : ∀ ds, rule.Continues ds → ds <+: cs ++ rest → ds.length ≤ cs.length) : rule.Cuts (c :: cs) rest where
  matched := mem_texts_iff.2 ⟨c, cs, opens, continues, rfl⟩
  longest other text matched front := by
    obtain ⟨d, ds, opens', continues', rfl⟩ := mem_texts_iff.1 matched
    rw [List.cons_append, List.cons_prefix_cons] at front
    obtain ⟨rfl, front⟩ := front
    obtain rfl := opens.unique opens'
    exact Nat.succ_le_succ (bound ds continues' front)

/-- A text is cut in one way at most. -/
theorem Cuts.unique {rule other : Rule} {piece piece' rest rest' : List Char} (h : rule.Cuts piece rest)
    (h' : other.Cuts piece' rest') (same : piece ++ rest = piece' ++ rest') :
    rule = other ∧ piece = piece' ∧ rest = rest' := by
  have le := h'.longest rule piece h.matched (same ▸ List.prefix_append piece rest)
  have ge := h.longest other piece' h'.matched (same ▸ List.prefix_append piece' rest')
  obtain ⟨rfl, rfl⟩ := List.append_inj same (le_antisymm le ge)
  obtain ⟨c, cs, -, -, rfl⟩ := mem_texts_iff.1 h.matched
  exact ⟨eq_of_mem_texts h.matched h'.matched, rfl, rfl⟩

end Rule

/-! ### Lexemes are longest matches -/

/-- Characters of a class go no further than where a character is not of it. -/
theorem length_le_of_ends {p : Char → Prop} {cs ds rest : List Char} (all : ∀ c ∈ ds, p c)
    (ends : ∀ c ∈ rest.head?, ¬ p c) (front : ds <+: cs ++ rest) : ds.length ≤ cs.length := by
  by_contra longer
  obtain ⟨es, rfl⟩ := List.prefix_of_prefix_length_le (List.prefix_append cs rest) front (by omega)
  cases es with
  | nil => simp at longer
  | cons e es =>
    obtain ⟨_, rfl⟩ := (List.prefix_append_right_inj cs).1 front
    exact ends e rfl (all e (by simp))

/-- The same where one more character may stand behind those of the class, and does. -/
theorem length_le_of_mark {p : Char → Prop} {d : Char} {body ds rest : List Char} (hd : ¬ p d)
    (h : ∃ body, (∀ c ∈ body, p c) ∧ (ds = body ∨ ds = body ++ [d])) (front : ds <+: body ++ [d] ++ rest) :
    ds.length ≤ (body ++ [d]).length := by
  obtain ⟨body', all, hds⟩ := h
  have front' : body' <+: ds := by
    rcases hds with rfl | rfl
    · exact List.prefix_rfl
    · exact List.prefix_append body' [d]
  have bound : body'.length ≤ body.length := by
    have ends : ∀ c ∈ (d :: rest).head?, ¬ p c := by simpa using hd
    refine length_le_of_ends all ends ?_
    rw [List.append_cons]
    exact front'.trans front
  rw [List.length_append, List.length_singleton]
  rcases hds with rfl | rfl
  · omega
  · rw [List.length_append, List.length_singleton]
    omega

/-- The kind of a character that stands alone is told by the table. -/
theorem kind_single (c : Char) : Rule.single.kind [c] = .ofChar c := by
  have step (d : Char) (k : Token.Kind) (table : List (Char × Token.Kind)) :
      (List.lookup c ((d, k) :: table)).getD .other = if c = d then k else (List.lookup c table).getD .other := by
    by_cases h : c = d
    · simp [h]
    · rw [List.lookup_cons, beq_eq_false_iff_ne.2 h, if_neg h]
  simp only [Rule.kind, List.head?_cons, Option.bind_some, Rule.punctuation, step, List.lookup_nil, Option.getD_none,
    Token.Kind.ofChar]

/-- The content of a string is what its quotes enclose, also where the second one is lacking. -/
theorem content_string {text closing : List Char} (ht : '"' ∉ text) (hc : ∀ c ∈ closing, c = '"') :
    Rule.string.content ('"' :: (text ++ closing)) = text := by
  have plain : text.filter (· ≠ '"') = text :=
    List.filter_eq_self.2 fun d hd => decide_eq_true (ne_of_mem_of_not_mem hd ht)
  have quotes : closing.filter (· ≠ '"') = [] := List.filter_eq_nil_iff.2 fun d hd => by simp [hc d hd]
  rw [Rule.content, List.filter_cons_of_neg (by simp), List.filter_append, plain, quotes, List.append_nil]

theorem not_of_ends {p : Char → Bool} {q : Char → Prop} {rest : List Char} (h : Ends p rest)
    (hq : ∀ c, q c → p c = true) : ∀ c ∈ rest.head?, ¬ q c :=
  fun c hc hqc => Bool.eq_false_iff.1 (h c hc) (hq c hqc)

theorem isWordPart_iff {c : Char} : isWordPart c = true ↔ InWord c ∨ InNumber c := by
  rw [isWordPart, Bool.or_eq_true, isLetter_iff, isDigit_iff]

theorem isNumberPart_iff {c : Char} : isNumberPart c = true ↔ InNumber c ∨ c = '.' := by
  rw [isNumberPart, Bool.or_eq_true, isDigit_iff, decide_eq_true_iff]

namespace Rule

variable {c : Char} {rest : List Char}

theorem cuts_directive {word : List Char} (hw : ∀ d ∈ word, isLetter d = true) (hr : Ends isLetter rest) :
    directive.Cuts ('#' :: word) rest := by
  refine cuts_of_bound rfl (fun d hd => isLetter_iff.1 (hw d hd)) fun ds all => ?_
  exact length_le_of_ends all (not_of_ends hr fun d => isLetter_iff.2)

theorem cuts_word {word : List Char} (hc : isLetter c = true) (hw : ∀ d ∈ word, isWordPart d = true)
    (hr : Ends isWordPart rest) : Rule.word.Cuts (c :: word) rest := by
  refine cuts_of_bound (isLetter_iff.1 hc) (fun d hd => isWordPart_iff.1 (hw d hd)) fun ds all => ?_
  exact length_le_of_ends all (not_of_ends hr fun d => isWordPart_iff.2)

theorem cuts_number {body : List Char} (hc : c.isDigit = true) (hb : ∀ d ∈ body, isNumberPart d = true)
    (hr : Ends isNumberPart rest) (hf : rest.head? ≠ some 'f') : number.Cuts (c :: body) rest := by
  have plain : ∀ d ∈ body, InNumber d ∨ d = '.' := fun d hd => isNumberPart_iff.1 (hb d hd)
  refine cuts_of_bound (isDigit_iff.1 hc) ⟨body, plain, .inl rfl⟩ fun ds continues => ?_
  -- here a letter `f` ends the number too
  refine length_le_of_ends (p := fun d => isNumberPart d = true ∨ d = 'f') ?_ ?_
  · obtain ⟨body', all, rfl | rfl⟩ := continues
    · exact fun d hd => .inl (isNumberPart_iff.2 (all d hd))
    · exact List.forall_mem_append.2 ⟨fun d hd => .inl (isNumberPart_iff.2 (all d hd)), by simp⟩
  · rintro d hd (part | rfl)
    · exact Bool.eq_false_iff.1 (hr d hd) part
    · exact hf hd

theorem cuts_marked {body : List Char} (hc : c.isDigit = true) (hb : ∀ d ∈ body, isNumberPart d = true) :
    number.Cuts (c :: (body ++ ['f'])) rest := by
  have plain : ∀ d ∈ body, InNumber d ∨ d = '.' := fun d hd => isNumberPart_iff.1 (hb d hd)
  refine cuts_of_bound (isDigit_iff.1 hc) ⟨body, plain, .inr rfl⟩ fun ds continues => ?_
  exact length_le_of_mark (by decide) continues

theorem cuts_blanks {more : List Char} (hn : '\n' ∉ c :: more) (hc : isBlank c = true)
    (hb : ∀ d ∈ more, isBlank d = true) (hr : Ends isBlank rest) : blanks.Cuts (c :: more) rest := by
  have all : ∀ d ∈ c :: more, isBlank d = true := List.forall_mem_cons.2 ⟨hc, hb⟩
  have blank : ∀ d ∈ c :: more, InBlanks d := fun d hd =>
    (isBlank_iff_inBlanks (ne_of_mem_of_not_mem hd hn)).1 (all d hd)
  obtain ⟨opens, continues⟩ := List.forall_mem_cons.1 blank
  refine cuts_of_bound opens continues fun ds all => ?_
  exact length_le_of_ends all (not_of_ends hr fun d hd => isBlank_iff.2 (hd.imp_right .inl))

theorem cuts_string {text : List Char} (ht : '"' ∉ text) : string.Cuts ('"' :: (text ++ ['"'])) rest := by
  have plain : ∀ d ∈ text, d ≠ '"' := fun d hd => ne_of_mem_of_not_mem hd ht
  refine cuts_of_bound rfl ⟨text, plain, .inr rfl⟩ fun ds continues => ?_
  exact length_le_of_mark (by simp) continues

theorem cuts_unclosed {text : List Char} (ht : '"' ∉ text) : string.Cuts ('"' :: text) [] := by
  have plain : ∀ d ∈ text, d ≠ '"' := fun d hd => ne_of_mem_of_not_mem hd ht
  refine cuts_of_bound rfl ⟨text, plain, .inl rfl⟩ fun ds _ front => ?_
  simpa using front.length_le

theorem cuts_single (line : c ≠ '\n') (hash : c ≠ '#') (letter : isLetter c = false) (digit : c.isDigit = false)
    (blank : isBlank c = false) (quote : c ≠ '"') : single.Cuts [c] rest := by
  have opens : single.Opens c := by
    rw [Opens, ← isLetter_iff, ← isDigit_iff, ← isBlank_iff_inBlanks line, letter, digit, blank]
    simp [hash, quote]
  refine cuts_of_bound opens rfl fun ds continues _ => ?_
  rw [show ds = [] from continues]

end Rule

/-- **What can be cut off a line is what a rule cuts off.** The rule gives the same token. -/
theorem Cut.exists_cuts {l : Lexeme} {rest : List Char} (h : Cut l rest) (hn : '\n' ∉ l.source) :
    ∃ rule : Rule, rule.Cuts l.source rest ∧ ∀ n, Rule.token n (rule, l.source) = l.token n := by
  cases h with
  | directive hw hr =>
    rw [source_whole (by simp)]
    exact ⟨.directive, Rule.cuts_directive hw hr, fun n => rfl⟩
  | word hc hw hr =>
    rw [source_whole (Token.Kind.ofWord_ne_string _)]
    exact ⟨.word, Rule.cuts_word hc hw hr, fun n => rfl⟩
  | number hc hb hr hf =>
    rw [source_whole (Token.Kind.ofNumber_ne_string _)]
    exact ⟨.number, Rule.cuts_number hc hb hr hf, fun n => rfl⟩
  | marked hc hb =>
    rw [source_whole (Token.Kind.ofNumber_ne_string _)]
    exact ⟨.number, Rule.cuts_marked hc hb, fun n => rfl⟩
  | blank hc hb hr =>
    rw [source_whole (by simp)] at hn ⊢
    exact ⟨.blanks, Rule.cuts_blanks hn hc hb hr, fun n => rfl⟩
  | @string text rest ht =>
    have content : Rule.string.content (whole .string text).source = text := content_string ht (by simp)
    refine ⟨.string, Rule.cuts_string ht, fun n => ?_⟩
    rw [Rule.token, content]
    rfl
  | @unclosed text ht =>
    have content : Rule.string.content ('"' :: (text ++ [])) = text := content_string ht (by simp)
    rw [List.append_nil] at content
    refine ⟨.string, Rule.cuts_unclosed ht, fun n => ?_⟩
    rw [Rule.token, show Rule.string.content (⟨.string, text, true⟩ : Lexeme).source = text from content]
    rfl
  | @single c rest hash letter digit blank quote =>
    rw [source_whole (Token.Kind.ofChar_ne (by decide) _)] at hn ⊢
    have line : c ≠ '\n' := fun h => hn (by simp [h])
    refine ⟨.single, Rule.cuts_single line hash letter digit blank quote, fun n => ?_⟩
    rw [Rule.token, kind_single]
    rfl

/-! ### Lines -/

/-- A line is segmented in one way at most. -/
theorem Segments.unique {cs : List Char} {ps qs : List (Rule × List Char)} (h : Segments cs ps)
    (h' : Segments cs qs) : ps = qs := by
  induction h generalizing qs with
  | done =>
    generalize same : ([] : List Char) = cs at h'
    cases h' with
    | done => rfl
    | @next _ piece _ _ cuts =>
      obtain ⟨c, ds, -, -, rfl⟩ := Rule.mem_texts_iff.1 cuts.matched
      simp at same
  | @next rule piece rest ps cuts more ih =>
    generalize same : piece ++ rest = cs at h'
    cases h' with
    | done =>
      obtain ⟨c, ds, -, -, rfl⟩ := Rule.mem_texts_iff.1 cuts.matched
      simp at same
    | next cuts' more' =>
      obtain ⟨rfl, rfl, rfl⟩ := cuts.unique cuts' same
      rw [ih more']

/-- A line is segmented into its lexemes. -/
theorem segments_lexemes {line : List Char} (hn : '\n' ∉ line) :
    ∃ pieces, Segments line pieces ∧
      ∀ n, pieces.map (Rule.token n) = (lexemes line).map (Lexeme.token n) := by
  induction line using lexemes.induct with
  | case1 => exact ⟨[], .done, fun n => by simp⟩
  | case2 c cs ih =>
    obtain ⟨cut, hs⟩ := cut_first c cs
    rw [← hs, List.mem_append, not_or] at hn
    obtain ⟨rule, cuts, token⟩ := cut.exists_cuts hn.1
    obtain ⟨pieces, segments, tokens⟩ := ih hn.2
    refine ⟨_, hs ▸ segments.next cuts, fun n => ?_⟩
    rw [lexemes_cons, List.map_cons, List.map_cons, token, tokens]

/-- The tokens of a line are told by how it is segmented. -/
theorem lineTokens_of_segments {line : List Char} (hn : '\n' ∉ line) {pieces : List (Rule × List Char)}
    (h : Segments line pieces) (n : Nat) : lineTokens line n = pieces.map (Rule.token n) ++ [.newline n] := by
  obtain ⟨pieces', segments, tokens⟩ := segments_lexemes hn
  obtain rfl := h.unique segments
  rw [lineTokens, ← tokens]

end Lexeme

/-! ### Texts -/

/-- The tokens of a text whose first line has the number `n`. -/
def lexFrom (n : Nat) (cs : List Char) : List Token :=
  (linesFrom n cs).flatMap fun line => lineTokens line.1 line.2

theorem lexFrom_ended (n : Nat) {line : List Char} (h : '\n' ∉ line) (rest : List Char) :
    lexFrom n (line ++ '\n' :: rest) = lineTokens line n ++ lexFrom (n + 1) rest := by
  rw [lexFrom, linesFrom_ended n h, List.flatMap_cons]
  rfl

theorem lexFrom_last (n : Nat) {line : List Char} (h : '\n' ∉ line) (hl : line ≠ []) :
    lexFrom n line = lineTokens line n := by
  rw [lexFrom, linesFrom_last n h hl, List.flatMap_singleton]

/-- A text has no other tokens than those that the lexer gives. -/
theorem Tokenizes.eq_lexFrom {n : Nat} {cs : List Char} {ts : List Token} (h : Tokenizes n cs ts) :
    ts = lexFrom n cs := by
  induction h with
  | done n => rfl
  | last hn hl h => rw [lexFrom_last _ hn hl, Lexeme.lineTokens_of_segments hn h]; rfl
  | ended hn h _ ih =>
    rw [lexFrom_ended _ hn, Lexeme.lineTokens_of_segments hn h, List.append_assoc, ih]
    rfl

/-- Every text has the tokens that the lexer gives. -/
theorem tokenizes_lexFrom (n : Nat) (cs : List Char) : Tokenizes n cs (lexFrom n cs) := by
  by_cases hn : '\n' ∈ cs
  · obtain ⟨line, rest, split, hl⟩ := List.eq_append_cons_of_mem hn
    have shorter : rest.length < cs.length := by
      rw [split, List.length_append, List.length_cons]
      omega
    obtain ⟨pieces, segments, -⟩ := Lexeme.segments_lexemes hl
    have whole := Tokenizes.ended hl segments (tokenizes_lexFrom (n + 1) rest)
    rw [split, lexFrom_ended n hl, Lexeme.lineTokens_of_segments hl segments, List.append_assoc]
    exact whole
  · by_cases empty : cs = []
    · subst empty
      exact .done n
    · obtain ⟨pieces, segments, -⟩ := Lexeme.segments_lexemes hn
      rw [lexFrom_last n hn empty, Lexeme.lineTokens_of_segments hn segments]
      exact .last hn empty segments
termination_by cs.length

/-- **A text is cut line by line, from left to right, each time by the longest match of any rule.** The tokens that the
lexer gives are the only ones that a text has by this reading, and each text has them. -/
theorem lex_eq_iff {text : String} {ts : List Token} : lex text = ts ↔ Tokenizes 1 text.toList ts := by
  constructor
  · rintro rfl
    exact tokenizes_lexFrom 1 text.toList
  · exact fun h => h.eq_lexFrom.symm

end ShaderWeave
