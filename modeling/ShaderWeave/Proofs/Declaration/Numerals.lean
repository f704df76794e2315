import ShaderWeave.Proofs.Declaration.Reading
import ShaderWeave.Proofs.Lexing.Relexing
import Mathlib.Data.Nat.Digits.Defs
import Mathlib.Tactic.NormNum

/-!
# Numbers in declarations

A number in a declaration is a token that the lexer takes for one, maybe after a minus sign. What it spells is told by
its text alone (`Numeral.value`, `Numeral.body`), and so is which types take it: a whole number is taken by a type of
32 bits if it is in the range of the type, of whatever length it is written, and a fraction by the others if it has
one dot at most.

`Numeral.readExactly` says that the readers of numbers do just that. Where a number is of a kind that they admit and
does not fit, they report it once, as it is written, and go on with a zero.
-/

namespace ShaderWeave

/-! ### Texts of numbers -/

/-- A digit, digits and dots after it, and maybe one letter `f`. -/
inductive IsNumberText : List Char → Prop
  /-- There is no letter. -/
  | plain {c : Char} {body : List Char} (hc : c.isDigit = true) (hb : ∀ d ∈ body, isNumberPart d = true) :
    IsNumberText (c :: body)
  /-- There is one. -/
  | marked {c : Char} {body : List Char} (hc : c.isDigit = true) (hb : ∀ d ∈ body, isNumberPart d = true) :
    IsNumberText (c :: (body ++ ['f']))

/-- A lexeme with the kind of a number has the text of one, and its kind says whether that has a dot. -/
theorem Lexeme.Cut.isNumberText {l : Lexeme} {rest : List Char} (h : Cut l rest)
    (hk : l.kind = .integer ∨ l.kind = .float) : IsNumberText l.text ∧ l.kind = .ofNumber l.text := by
  cases h with
  | word =>
    rcases hk with hk | hk
    all_goals
    · simp only [whole, Token.Kind.ofWord] at hk
      split at hk <;> simp at hk
  | number hc hb => exact ⟨.plain hc hb, rfl⟩
  | marked hc hb => exact ⟨.marked hc hb, rfl⟩
  | single =>
    rcases hk with hk | hk
    · exact absurd hk (Token.Kind.ofChar_ne (by decide) _)
    · exact absurd hk (Token.Kind.ofChar_ne (by decide) _)
  | _ => simp [whole] at hk

/-- A token with the kind of a number has the text of one. -/
theorem isNumberText_of_mem_lex {text : String} {t : Token} (h : t ∈ lex text)
    (hk : t.kind = .integer ∨ t.kind = .float) : IsNumberText t.text.toList ∧ t.kind = .ofNumber t.text.toList := by
  refine forall_mem_lex (P := fun t => t.kind = .integer ∨ t.kind = .float →
    IsNumberText t.text.toList ∧ t.kind = .ofNumber t.text.toList) (fun c cs n hk => ?_) (fun n hk => ?_) text t h hk
  · simp only [Lexeme.token, String.toList_ofList] at hk ⊢
    exact (Lexeme.cut_first c cs).1.isNumberText hk
  · simp [Token.newline] at hk

/-- The text without the one letter `f` at its end. -/
def unmarked (text : List Char) : List Char :=
  if text.getLast? = some 'f' then text.dropLast else text

theorem getLast?_of_number {c : Char} {body : List Char} (hc : c.isDigit = true)
    (hb : ∀ d ∈ body, isNumberPart d = true) : (c :: body).getLast? ≠ some 'f' := by
  intro h
  have part : isNumberPart 'f' = true := by
    rcases List.mem_cons.1 (List.mem_of_getLast? h) with rfl | mem
    · exact absurd hc (by decide)
    · exact hb _ mem
  exact absurd part (by decide)

/-- Without the letter at its end, the text of a number is a digit with digits and dots after it. -/
theorem IsNumberText.exists_unmarked {text : List Char} (h : IsNumberText text) :
    ∃ c body, c.isDigit = true ∧ (∀ d ∈ body, isNumberPart d = true) ∧ unmarked text = c :: body := by
  cases h with
  | @plain c body hc hb => exact ⟨c, body, hc, hb, if_neg (getLast?_of_number hc hb)⟩
  | @marked c body hc hb =>
    refine ⟨c, body, hc, hb, ?_⟩
    rw [unmarked, ← List.cons_append, List.getLast?_concat, if_pos rfl, List.dropLast_concat]

/-- Digits and dots are digits alone where there is no dot. -/
theorem all_isDigit_iff {ds : List Char} (h : ∀ d ∈ ds, isNumberPart d = true) :
    ds.all Char.isDigit = true ↔ '.' ∉ ds := by
  rw [List.all_eq_true]
  constructor
  · exact fun all dot => absurd (all _ dot) (by decide)
  · intro dotless d hd
    have dot : d ≠ '.' := ne_of_mem_of_not_mem hd dotless
    simpa [isNumberPart, dot] using h d hd

theorem isNumberPart_of_isDigit {c : Char} (h : c.isDigit = true) : isNumberPart c = true := by
  rw [isNumberPart, h, Bool.true_or]

/-- A number is made of digits alone just where it has neither a dot nor the letter. -/
theorem IsNumberText.all_isDigit_iff {text : List Char} (h : IsNumberText text) :
    text.all Char.isDigit = true ↔ '.' ∉ text ∧ text.getLast? ≠ some 'f' := by
  cases h with
  | plain hc hb =>
    rw [ShaderWeave.all_isDigit_iff (List.forall_mem_cons.2 ⟨isNumberPart_of_isDigit hc, hb⟩)]
    exact (and_iff_left (getLast?_of_number hc hb)).symm
  | @marked c body =>
    have last : (c :: (body ++ ['f'])).getLast? = some 'f' := by rw [← List.cons_append, List.getLast?_concat]
    have mark : ¬ (c :: (body ++ ['f'])).all Char.isDigit = true :=
      fun all => absurd (List.all_eq_true.1 all _ (List.mem_of_getLast? last)) (by decide)
    exact iff_of_false mark fun h => h.2 last

namespace Literal

/-- The digits are those of the number in the decimal system. -/
theorem natOfDigits_eq_ofDigits (digits : List Char) :
    natOfDigits digits = Nat.ofDigits 10 (digits.reverse.map fun c => c.toNat - '0'.toNat) := by
  rw [natOfDigits, Nat.ofDigits_eq_foldr, List.foldr_map, List.foldr_reverse]
  congr 1
  funext n c
  exact Nat.add_comm _ _

theorem nat?_eq_some_iff {text : List Char} {n : Nat} :
    nat? text = some n ↔ text ≠ [] ∧ text.all Char.isDigit = true ∧ natOfDigits text = n := by
  simp only [nat?, Option.ite_none_right_eq_some, Option.some.injEq, and_assoc]

theorem int?_eq_some_iff {negative : Bool} {text : List Char} {z : Int} :
    int? negative text = some z ↔ text ≠ [] ∧ text.all Char.isDigit = true ∧
      z = if negative then -(natOfDigits text : Int) else natOfDigits text := by
  by_cases h : text ≠ [] ∧ text.all Char.isDigit = true
  · rw [int?, nat?, if_pos h]
    simp only [h, true_and, ne_eq, not_false_eq_true]
    exact Option.some_inj.trans eq_comm
  · rw [int?, nat?, if_neg h, ← and_assoc]
    simp only [h, false_and, iff_false]
    exact Option.some_ne_none z ∘ Eq.symm

/-- A whole number with a sign is taken if it is in the range of its type. -/
theorem integer?_eq_some_iff {negative : Bool} {text : List Char} {x : Int32} :
    integer? negative text = some x ↔ text ≠ [] ∧ text.all Char.isDigit = true ∧
      x.toInt = if negative then -(natOfDigits text : Int) else natOfDigits text := by
  simp only [integer?, Option.bind_eq_bind, Option.bind_eq_some_iff, int?_eq_some_iff, Option.ite_none_right_eq_some,
    Option.some.injEq]
  constructor
  · rintro ⟨_, ⟨solid, digits, rfl⟩, ⟨low, high⟩, rfl⟩
    exact ⟨solid, digits, Int32.toInt_ofInt_of_le low (Int.lt_of_le_of_lt high (by decide))⟩
  · rintro ⟨solid, digits, value⟩
    rw [← value]
    exact ⟨_, ⟨solid, digits, rfl⟩, ⟨x.minValue_le_toInt, x.toInt_le⟩, x.ofInt_toInt⟩

/-- A whole number without a sign is taken if it is in the range of its type. -/
theorem unsigned?_eq_some_iff {negative : Bool} {text : List Char} {x : UInt32} :
    unsigned? negative text = some x ↔
      negative = false ∧ text ≠ [] ∧ text.all Char.isDigit = true ∧ x.toNat = natOfDigits text := by
  cases negative with
  | true => simp [unsigned?]
  | false =>
    simp only [unsigned?, Bool.false_eq_true, if_false, Option.bind_eq_bind, Option.bind_eq_some_iff,
      nat?_eq_some_iff, Option.ite_none_right_eq_some, Option.some.injEq, true_and]
    constructor
    · rintro ⟨_, ⟨solid, digits, rfl⟩, low, rfl⟩
      exact ⟨solid, digits, UInt32.toNat_ofNat_of_lt' low⟩
    · rintro ⟨solid, digits, value⟩
      refine ⟨_, ⟨solid, digits, rfl⟩, ?_⟩
      rw [← value]
      exact ⟨x.toNat_lt, UInt32.ofNat_toNat⟩

/-- A fraction is taken if its digits and dots have one dot at most. -/
theorem isSome_decimal?_iff {c : Char} {body : List Char} (hc : c.isDigit = true)
    (hb : ∀ d ∈ body, isNumberPart d = true) : (decimal? (c :: body)).isSome ↔ (c :: body).count '.' ≤ 1 := by
  have parts : ∀ d ∈ c :: body, isNumberPart d = true := List.forall_mem_cons.2 ⟨isNumberPart_of_isDigit hc, hb⟩
  have taken {front : List Char} (h : '.' ∉ front) : ∀ d ∈ front, decide (d ≠ '.') = true :=
    fun d hd => decide_eq_true (ne_of_mem_of_not_mem hd h)
  by_cases hd : '.' ∈ c :: body
  · obtain ⟨front, back, split, dotless⟩ := List.eq_append_cons_of_mem hd
    have ends : Ends (fun d => decide (d ≠ '.')) ('.' :: back) := by simp [Ends]
    have solid : front ≠ [] := by
      rintro rfl
      obtain ⟨rfl, -⟩ := List.cons.inj split
      exact absurd hc (by decide)
    -- only the digits and dots on both sides of the first dot are looked at
    have others : ∀ d ∈ front ++ back, isNumberPart d = true := by
      intro d hd
      refine parts d ?_
      rw [split]
      simp only [List.mem_append, List.mem_cons] at hd ⊢
      exact hd.imp_right .inr
    rw [split, decimal?, ends.takeWhile_append (taken dotless), ends.dropWhile_append (taken dotless),
      Option.isSome_map, nat?, Option.isSome_ite, List.drop_one, List.tail_cons, all_isDigit_iff others,
      List.count_append, List.count_eq_zero.2 dotless, List.count_cons_self, List.mem_append, ← List.count_pos_iff,
      ← List.count_pos_iff, List.count_eq_zero.2 dotless]
    have whole : front ++ back ≠ [] := List.append_ne_nil_of_left_ne_nil solid back
    simp only [whole, ne_eq, not_false_eq_true, true_and]
    omega
  · have whole := (Ends.nil _).takeWhile_append (taken hd)
    have none := (Ends.nil _).dropWhile_append (taken hd)
    rw [List.append_nil] at whole none
    rw [decimal?, whole, none, List.drop_nil, List.append_nil, Option.isSome_map, nat?, Option.isSome_ite,
      all_isDigit_iff parts, List.count_eq_zero.2 hd]
    simp [hd]

theorem isSome_pattern?_iff {f : BinaryFormat} {negative : Bool} {text : List Char} :
    (pattern? f negative text).isSome ↔ (decimal? text).isSome := by
  simp only [pattern?, Option.bind_eq_bind]
  cases decimal? text <;> simp

theorem isSome_single?_iff {negative : Bool} {text : List Char} :
    (single? negative text).isSome ↔ (decimal? text).isSome := by
  rw [single?, Option.isSome_map, isSome_pattern?_iff]

theorem isSome_double?_iff {negative : Bool} {text : List Char} :
    (double? negative text).isSome ↔ (decimal? text).isSome := by
  rw [double?, Option.isSome_map, isSome_pattern?_iff]

end Literal

/-! ### Numbers with their signs -/

/-- A number as it stands in a declaration. -/
structure Numeral where
  /-- The minus sign before it, if there is one. -/
  sign : Option Token
  /-- The token of the number. -/
  token : Token

namespace Numeral

/-- The token is a number of the text, and the sign is a minus sign. -/
structure OfText (text : String) (n : Numeral) : Prop where
  /-- The sign is a minus sign. -/
  minus : ∀ t ∈ n.sign, t.kind = .minus
  /-- The token is one of the text. -/
  mem : n.token ∈ lex text
  /-- It is a number. -/
  kind : n.token.kind = .integer ∨ n.token.kind = .float

section Spelling

variable (n : Numeral)

/-- The tokens of the number. Blanks may stand between them. -/
def tokens : List Token :=
  n.sign.toList ++ [n.token]

/-- There is a sign. -/
def negative : Bool :=
  n.sign.isSome

/-- The number has neither a dot nor a letter `f` at its end. -/
def IsWhole : Prop :=
  n.token.kind = .integer ∧ n.token.text.toList.getLast? ≠ some 'f'

/-- The whole number that the digits spell in the decimal system, under its sign. -/
def value : Int :=
  let magnitude : Nat := Nat.ofDigits 10 (n.token.text.toList.reverse.map fun c => c.toNat - '0'.toNat)
  if n.negative then -(magnitude : Int) else magnitude

/-- The text of the number without the one letter `f` at its end. -/
def body : List Char :=
  unmarked n.token.text.toList

/-- A text behind the sign of the number. -/
def signed (text : List Char) : String :=
  String.ofList (if n.negative then '-' :: text else text)

/-- What is reported of the number. -/
def fault (text : List Char) : Fault :=
  (.badNumber (n.signed text), n.token.line)

end Spelling

variable {α : Type} {form : NumberForm α} {text : String} {n : Numeral}

theorem OfText.isNumberText (h : n.OfText text) :
    IsNumberText n.token.text.toList ∧ n.token.kind = .ofNumber n.token.text.toList :=
  isNumberText_of_mem_lex h.mem h.kind

/-- No token of a number is a blank. -/
theorem OfText.solid (h : n.OfText text) : ∀ t ∈ n.tokens, t.isBlank = false := by
  intro t ht
  refine decide_eq_false fun hk => ?_
  rcases List.mem_append.1 ht with ht | ht
  · exact absurd ((h.minus t (by simpa using ht)).symm.trans hk) (by decide)
  · rw [List.mem_singleton.1 ht] at hk
    rcases h.kind with kind | kind
    · exact absurd (kind.symm.trans hk) (by decide)
    · exact absurd (kind.symm.trans hk) (by decide)

/-- Numbers of the form may have the kind of the token, and a sign if there is one. -/
def Admitted (form : NumberForm α) (n : Numeral) : Prop :=
  n.token.kind ∈ form.kinds ∧ (n.negative = true → form.signed = true)

theorem digits_iff {kinds : List Token.Kind} {negative : Bool} {ts : List Token} {x : α} {fs : List Fault} :
    Phrase.Digits form kinds negative ts x fs ↔ ∃ t, ts = [t] ∧ t.kind ∈ kinds ∧ x = form.valueOf negative t ∧
      fs = form.faultsOf negative t := by
  constructor
  · rintro ⟨hk, rfl, rfl⟩
    exact ⟨_, rfl, hk, rfl, rfl⟩
  · rintro ⟨t, rfl, hk, rfl, rfl⟩
    exact .intro hk ⟨rfl, rfl⟩

theorem signed_iff {kinds : List Token.Kind} {ts : List Token} {x : α} {fs : List Fault} :
    Phrase.Signed form kinds ts x fs ↔ ∃ m : Numeral, ts = m.tokens ∧ (∀ t ∈ m.sign, t.kind = .minus) ∧
      m.token.kind ∈ kinds ∧ x = form.valueOf m.negative m.token ∧ fs = form.faultsOf m.negative m.token := by
  constructor
  · rintro (h | ⟨hs, h⟩)
    · obtain ⟨t, rfl, read⟩ := digits_iff.1 h
      exact ⟨⟨none, t⟩, rfl, by simp, read⟩
    · obtain ⟨t, rfl, read⟩ := digits_iff.1 h
      exact ⟨⟨some _, t⟩, rfl, by simpa using hs, read⟩
  · rintro ⟨⟨sign, t⟩, rfl, hs, read⟩
    have digits := digits_iff.2 ⟨t, rfl, read⟩
    cases sign with
    | none => exact .bare digits
    | some minus => exact .negated (hs minus rfl) digits

theorem eq_of_tokens {m : Numeral} (h : n.tokens = m.tokens) : n = m := by
  obtain ⟨sign, t⟩ := n
  obtain ⟨sign', t'⟩ := m
  obtain ⟨signs, ts⟩ := List.append_inj' h rfl
  obtain rfl := (List.cons.inj ts).1
  cases sign <;> cases sign' <;> simp_all

/-- What a number is read as, if its form admits it. -/
theorem reads_iff (h : n.OfText text) {x : α} {fs : List Fault} :
    (Reader.number form).Reads n.tokens x fs ↔
      n.Admitted form ∧ x = form.valueOf n.negative n.token ∧ fs = form.faultsOf n.negative n.token := by
  cases signed : form.signed with
  | true =>
    rw [(Reader.recognizes_signed form signed).reads_iff h.solid, signed_iff]
    constructor
    · rintro ⟨m, same, -, hk, read⟩
      obtain rfl := eq_of_tokens same
      exact ⟨⟨hk, fun _ => signed⟩, read⟩
    · rintro ⟨⟨hk, -⟩, read⟩
      exact ⟨n, rfl, h.minus, hk, read⟩
  | false =>
    rw [(Reader.recognizes_unsigned form signed).reads_iff h.solid, digits_iff]
    constructor
    · rintro ⟨t, same, hk, read⟩
      obtain rfl : n = ⟨none, t⟩ := eq_of_tokens same
      exact ⟨⟨hk, by simp [negative]⟩, read⟩
    · rintro ⟨⟨hk, bare⟩, read⟩
      obtain ⟨_ | minus, t⟩ := n
      · exact ⟨t, rfl, hk, read⟩
      · exact absurd (bare rfl) (by simp [signed])

/-- A number is taken as it is if it has a value. -/
theorem reads_clean_iff (h : n.OfText text) {x : α} :
    (Reader.number form).Reads n.tokens x [] ↔
      n.Admitted form ∧ form.value? n.negative (form.digits n.token.text) = some x := by
  rw [reads_iff h, NumberForm.valueOf, NumberForm.faultsOf]
  cases form.value? n.negative (form.digits n.token.text) with
  | some y => simp [eq_comm]
  | none => simp

/-- A number that is admitted and has no value is reported once, and zero stands for it. -/
theorem reads_or (h : n.OfText text) (ha : n.Admitted form) :
    (∃ x, (Reader.number form).Reads n.tokens x []) ∨
      (Reader.number form).Reads n.tokens form.fallback [n.fault (form.digits n.token.text)] := by
  cases value : form.value? n.negative (form.digits n.token.text) with
  | some x => exact .inl ⟨x, (reads_clean_iff h).2 ⟨ha, value⟩⟩
  | none =>
    refine .inr ((reads_iff h).2 ⟨ha, ?_, ?_⟩)
    · rw [NumberForm.valueOf, value, Option.getD_none]
    · simp only [NumberForm.faultsOf, value]
      rfl

/-- How a number is read as a value of each type. -/
structure ReadExactly (n : Numeral) : Prop where
  /-- A whole number in the range is taken with its sign. -/
  integer : ∀ x, (Reader.number .integer).Reads n.tokens x [] ↔
    n.IsWhole ∧ -2 ^ 31 ≤ n.value ∧ n.value ≤ 2 ^ 31 - 1 ∧ x.toInt = n.value
  /-- A whole number in the range is taken if it has no sign. -/
  unsigned : ∀ x, (Reader.number .unsigned).Reads n.tokens x [] ↔
    n.sign = none ∧ n.IsWhole ∧ 0 ≤ n.value ∧ n.value ≤ 2 ^ 32 - 1 ∧ x.toNat = n.value
  /-- A fraction is taken if it has one dot at most. -/
  single : (∃ x, (Reader.number .single).Reads n.tokens x []) ↔ n.body.count '.' ≤ 1
  /-- A fraction is taken if it has one dot at most. -/
  double : (∃ x, (Reader.number .double).Reads n.tokens x []) ↔ n.body.count '.' ≤ 1
  /-- Any other number without a dot is reported as it is written, and zero stands for it. -/
  badInteger : n.token.kind = .integer → (∃ x, (Reader.number .integer).Reads n.tokens x []) ∨
    (Reader.number .integer).Reads n.tokens 0 [n.fault n.token.text.toList]
  /-- The same, where there is no sign. -/
  badUnsigned : n.token.kind = .integer → n.sign = none → (∃ x, (Reader.number .unsigned).Reads n.tokens x []) ∨
    (Reader.number .unsigned).Reads n.tokens 0 [n.fault n.token.text.toList]
  /-- Any other number is reported as it is written but for the letter at its end, and zero stands for it. -/
  badSingle : (∃ x, (Reader.number .single).Reads n.tokens x []) ∨
    (Reader.number .single).Reads n.tokens ⟨0⟩ [n.fault n.body]
  /-- The same in double precision. -/
  badDouble : (∃ x, (Reader.number .double).Reads n.tokens x []) ∨
    (Reader.number .double).Reads n.tokens ⟨0⟩ [n.fault n.body]

/-- A whole number is an integer token of digits alone. -/
theorem isWhole_iff (h : n.OfText text) :
    n.IsWhole ↔ n.token.kind = .integer ∧ n.token.text.toList.all Char.isDigit = true := by
  obtain ⟨number, kind⟩ := h.isNumberText
  rw [IsWhole, number.all_isDigit_iff, kind, Token.Kind.ofNumber]
  by_cases dot : '.' ∈ n.token.text.toList <;> simp [dot]

theorem value_eq : n.value = if n.negative then -(Literal.natOfDigits n.token.text.toList : Int)
    else Literal.natOfDigits n.token.text.toList := by
  rw [value, Literal.natOfDigits_eq_ofDigits]

theorem ne_nil (h : n.OfText text) : n.token.text.toList ≠ [] := by
  obtain ⟨number, -⟩ := h.isNumberText
  generalize n.token.text.toList = written at number
  cases number <;> simp

theorem isSome_decimal?_body (h : n.OfText text) :
    (Literal.decimal? n.body).isSome ↔ n.body.count '.' ≤ 1 := by
  obtain ⟨number, -⟩ := h.isNumberText
  obtain ⟨c, body, hc, hb, same⟩ := number.exists_unmarked
  rw [Numeral.body, same]
  exact Literal.isSome_decimal?_iff hc hb

/-! ### The four kinds of numbers -/

/-- Every form admits a number without a dot, but for its sign. -/
theorem admitted_of_integer (hk : n.token.kind = .integer) (hs : n.negative = true → form.signed = true) :
    n.Admitted form :=
  ⟨hk ▸ form.integer_mem_kinds, hs⟩

/-- A form of fractions admits every number. -/
theorem admitted_of_fractional (h : n.OfText text) (hf : form.fractional = true) (hs : form.signed = true) :
    n.Admitted form := by
  refine ⟨?_, fun _ => hs⟩
  rw [NumberForm.kinds, if_pos hf]
  rcases h.kind with hk | hk <;> simp [hk]

/-- The text in which a fraction is looked up is the number without the letter. -/
theorem digits_of_fractional (hf : form.fractional = true) : form.digits n.token.text = n.body := by
  simp only [NumberForm.digits, hf, true_and]
  rfl

theorem reads_fraction_iff (h : n.OfText text) (hf : form.fractional = true) (hs : form.signed = true) :
    (∃ x, (Reader.number form).Reads n.tokens x []) ↔ (form.value? n.negative n.body).isSome := by
  simp only [reads_clean_iff h, digits_of_fractional hf, Option.isSome_iff_exists, exists_and_left]
  exact and_iff_right (admitted_of_fractional h hf hs)

theorem reads_fraction_or (h : n.OfText text) (hf : form.fractional = true) (hs : form.signed = true) :
    (∃ x, (Reader.number form).Reads n.tokens x []) ∨
      (Reader.number form).Reads n.tokens form.fallback [n.fault n.body] := by
  rw [← digits_of_fractional hf]
  exact reads_or h (admitted_of_fractional h hf hs)

theorem reads_integer_iff (h : n.OfText text) {x : Int32} :
    (Reader.number .integer).Reads n.tokens x [] ↔ n.IsWhole ∧ x.toInt = n.value := by
  have value : NumberForm.integer.value? n.negative (NumberForm.integer.digits n.token.text) = some x ↔
      n.token.text.toList ≠ [] ∧ n.token.text.toList.all Char.isDigit = true ∧ x.toInt = n.value := by
    rw [value_eq]
    exact Literal.integer?_eq_some_iff
  rw [reads_clean_iff h, value, isWhole_iff h]
  constructor
  · rintro ⟨⟨hk, -⟩, -, digits, value⟩
    exact ⟨⟨List.mem_singleton.1 hk, digits⟩, value⟩
  · rintro ⟨⟨hk, digits⟩, value⟩
    exact ⟨admitted_of_integer hk fun _ => rfl, ne_nil h, digits, value⟩

theorem reads_unsigned_iff (h : n.OfText text) {x : UInt32} :
    (Reader.number .unsigned).Reads n.tokens x [] ↔ n.sign = none ∧ n.IsWhole ∧ (x.toNat : Int) = n.value := by
  have value : NumberForm.unsigned.value? n.negative (NumberForm.unsigned.digits n.token.text) = some x ↔
      n.negative = false ∧ n.token.text.toList ≠ [] ∧ n.token.text.toList.all Char.isDigit = true ∧
        x.toNat = Literal.natOfDigits n.token.text.toList :=
    Literal.unsigned?_eq_some_iff
  rw [reads_clean_iff h, value, isWhole_iff h, value_eq]
  constructor
  · rintro ⟨⟨hk, -⟩, bare, -, digits, value⟩
    refine ⟨Option.isSome_eq_false_iff.1 bare |> Option.isNone_iff_eq_none.1, ⟨List.mem_singleton.1 hk, digits⟩, ?_⟩
    rw [bare, value]
    rfl
  · rintro ⟨bare, ⟨hk, digits⟩, value⟩
    have positive : n.negative = false := by rw [negative, bare]; rfl
    rw [positive] at value
    exact ⟨admitted_of_integer hk (by simp [positive]), positive, ne_nil h, digits, Int.ofNat.inj value⟩

/-- **Numbers are taken just where they are in the range or the form of their type.** -/
theorem OfText.readExactly (h : n.OfText text) : n.ReadExactly where
  integer x := by
    have low := x.minValue_le_toInt
    have high := x.toInt_le
    rw [Int32.toInt_minValue] at low
    rw [Int32.toInt_maxValue] at high
    rw [reads_integer_iff h]
    constructor
    · rintro ⟨whole, value⟩
      exact ⟨whole, by omega, by omega, value⟩
    · rintro ⟨whole, -, -, value⟩
      exact ⟨whole, value⟩
  unsigned x := by
    have high := x.toNat_lt
    rw [reads_unsigned_iff h]
    constructor
    · rintro ⟨bare, whole, value⟩
      exact ⟨bare, whole, by omega, by omega, value⟩
    · rintro ⟨bare, whole, -, -, value⟩
      exact ⟨bare, whole, value⟩
  single := (reads_fraction_iff h rfl rfl).trans (Literal.isSome_single?_iff.trans (isSome_decimal?_body h))
  double := (reads_fraction_iff h rfl rfl).trans (Literal.isSome_double?_iff.trans (isSome_decimal?_body h))
  badInteger kind := reads_or h (admitted_of_integer kind fun _ => rfl)
  badUnsigned kind bare := reads_or h (admitted_of_integer kind (by simp [negative, bare]))
  badSingle := reads_fraction_or h rfl rfl
  badDouble := reads_fraction_or h rfl rfl

end Numeral

end ShaderWeave
