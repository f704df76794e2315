import ShaderWeave.Proofs.Declaration.Copying
import ShaderWeave.Proofs.Lexing.Relexing
import ShaderWeave.Proofs.Scope.Zeroing

/-!
# Declarations without their initializers

A declaration that is copied loses its initializer, and nothing that is left touches what it did not touch before
(`Fields.trimmed`, `Definition.trimmed`). What is copied is a declaration again, of the same variable with zeros for its
values, whatever blanks stand between its words now (`exists_declaration_of_words`, `Fields.exists_of_words`,
`Definition.exists_of_words`).
-/

namespace ShaderWeave

/-! ### What is kept of tokens -/

theorem significant_keep (n : Nat) (ts : List Token) : significant (keep n ts) = (significant ts).take n := by
  induction ts generalizing n with
  | nil => simp [keep, significant]
  | cons t ts ih =>
    by_cases ht : t.isBlank
    · simpa [keep, significant, ht] using ih n
    · cases n with
      | zero => simpa [keep, significant, ht] using ih 0
      | succ n => simpa [keep, significant, ht] using ih n

theorem keep_cons_of_isBlank {t : Token} (h : t.isBlank = true) (n : Nat) (ts : List Token) :
    keep n (t :: ts) = t :: keep n ts := by
  cases n <;> simp [keep, h]

namespace Trimmed

variable {ts us : List Token}

/-- Tokens before a semicolon may be left out. -/
theorem keep_append {stop : Token} (hs : stop.kind = .semicolon) (h : Trimmed ts us) (n : Nat) (raw : List Token) :
    Trimmed (raw ++ stop :: ts) (ShaderWeave.keep n raw ++ stop :: us) := by
  induction raw generalizing n with
  | nil => exact h.keep stop
  | cons t raw ih =>
    by_cases ht : t.isBlank
    · rw [keep_cons_of_isBlank ht]
      exact (ih n).keep t
    · cases n with
      | succ n =>
        simp only [ShaderWeave.keep, if_neg ht]
        exact (ih n).keep t
      | zero =>
        simp only [ShaderWeave.keep, if_neg ht]
        refine (ih 0).drop t fun u hu => ?_
        rw [keep_zero, List.head?_append] at hu
        rcases hb : (raw.filter Token.isBlank).head? with _ | b
        · rw [hb] at hu
          obtain rfl : stop = u := by simpa using hu
          exact .inr hs
        · rw [hb] at hu
          obtain rfl : b = u := by simpa using hu
          exact .inl (List.mem_filter.1 (List.mem_of_mem_head? hb)).2

end Trimmed

namespace Reader

variable {types : Structs} {raw kept ts us : List Token} {vs : List Variable}

theorem Fields.trimmed (h : Fields types raw vs kept) (ht : Trimmed ts us) : Trimmed (raw ++ ts) (kept ++ us) := by
  induction h with
  | nil => exact ht
  | cons hs _ _ ih => simpa using ih.keep_append hs 2 _

theorem Definition.trimmed {name : String} {stop : Token} (h : Definition types raw name vs stop kept)
    (ht : Trimmed ts us) : Trimmed (raw ++ ts) (kept ++ us) := by
  obtain @⟨b₁, b₂, b₃, b₄, raw, kept, name, opening, closing, stop, vs, -, -, -, -, fields, -, -, -, -⟩ := h
  have inner := fields.trimmed (ht.append_left (b₃ ++ closing :: (b₄ ++ [stop])))
  simpa using inner.append_left (b₁ ++ name :: (b₂ ++ [opening]))

end Reader

/-! ### Zeros -/

/-- The type with zeros for the values of its fields. -/
def VariableType.zeroed : VariableType → VariableType
  | .values element size => .values element size
  | .group fields => .group (Variable.zeroedAll fields)

theorem Denotes.zeroed {types : Structs} {word : String} {type : VariableType} (h : Denotes types word type) :
    Denotes types.zeroed word type.zeroed := by
  cases h with
  | scalar h => exact .scalar h
  | vector h => exact .vector h
  | struct hs hv h => exact .struct hs hv (by rw [Structs.getElem?_zeroed, h]; rfl)

namespace Phrase

theorem length_of_separated {α : Type} {G : Phrase α} {n : Nat} {ts : List Token} {as : List α} {fs : List Fault}
    (h : Separated G n ts as fs) : as.length = n := by
  induction h with
  | none => rfl
  | one => rfl
  | more _ _ _ ih => rw [List.length_cons, ih]

/-- Values are of the type that they are read for. -/
theorem zeroed_of_components {size : Nat} {element : Element} {ts : List Token} {vs : Values} {fs : List Fault}
    (h : Components size element ts vs fs) : vs.zeroed = element.zeros size := by
  cases element <;>
  · obtain ⟨h⟩ := h
    simp [Values.zeroed, Values.element, Values.size, length_of_separated h]

theorem zeroed_of_initializer {size : Nat} {element : Element} {ts : List Token} {vs : Values} {fs : List Fault}
    (h : Initializer element size ts vs fs) : vs.zeroed = element.zeros size := by
  cases h with
  | absent => simp [Values.zeroed]
  | present h =>
    cases h with
    | bare _ _ h => exact zeroed_of_components h
    | enclosed _ _ _ h => exact zeroed_of_components h

/-- A variable may end with its semicolon, and then its values are zeros. -/
theorem Ending.zeroed {name : String} {type : VariableType} {ts : List Token} {v : Variable} {fs : List Fault}
    (h : Ending name type ts v fs) {stop : Token} (hs : stop.kind = .semicolon) :
    Ending name type.zeroed [stop] v.zeroed [] := by
  cases h with
  | value hi =>
    rw [Variable.zeroed, zeroed_of_initializer hi]
    exact .value .absent hs
  | group => exact .group hs

end Phrase

/-! ### Words -/

theorem words_of_isBlank {ts : List Token} (h : ∀ t ∈ ts, t.isBlank = true) : words ts = [] := by
  rw [words, significant_of_isBlank h]
  rfl

/-- The first token that is no blank is the first significant one. -/
theorem significant_of_blanks {bs : List Token} (hb : ∀ b ∈ bs, b.isBlank = true) {t : Token} (ht : t.isBlank = false)
    (ts : List Token) : significant (bs ++ t :: ts) = t :: significant ts := by
  rw [significant_append, significant_of_isBlank hb]
  simp [significant, ht]

/-- The first token that is no blank is the first word. -/
theorem words_of_blanks {bs : List Token} (hb : ∀ b ∈ bs, b.isBlank = true) {t : Token} (ht : t.isBlank = false)
    (ts : List Token) : words (bs ++ t :: ts) = t.word :: words ts := by
  rw [words, significant_of_blanks hb ht]
  rfl

namespace Reader

variable {types : Structs} {raw kept us : List Token} {vs : List Variable} {ws : List (Token.Kind × String)}

/-- A declaration is its first two words and what follows them. -/
theorem exists_words_of_declaration {stop : Token} {v : Variable} (hs : stop.isBlank = false)
    (h : Phrase.Declaration types (significant (raw ++ [stop])) v []) :
    ∃ word name middle type, significant raw = word :: name :: middle ∧ word.kind = .keyword ∧ name.kind = .keyword ∧
      Denotes types word.text type ∧ Phrase.Ending name.text type (middle ++ [stop]) v [] := by
  have last : significant (raw ++ [stop]) = significant raw ++ [stop] := by simp [significant, hs]
  rw [last] at h
  generalize hp : significant raw ++ [stop] = ts at h
  obtain @⟨word, name, type, ts, _, _, hk, hd, hn, he⟩ := h
  obtain ⟨middle, stop', rfl⟩ : ∃ middle stop', ts = middle ++ [stop'] := by
    cases he with
    | value => exact ⟨_, _, rfl⟩
    | group => exact ⟨[], _, rfl⟩
  have parts : significant raw ++ [stop] = (word :: name :: middle) ++ [stop'] := hp
  obtain ⟨same, stops⟩ := List.append_inj' parts rfl
  obtain rfl : stop = stop' := (List.cons.inj stops).1
  exact ⟨word, name, middle, type, same, hk, hn, hd, he⟩

/-- **What is copied of a declaration declares the same variable with zeros.** -/
theorem exists_declaration_of_words {stop : Token} {v : Variable} (hs : stop.kind = .semicolon)
    (h : Phrase.Declaration types (significant (raw ++ [stop])) v [])
    (hw : words us = words (keep 2 raw ++ [stop]) ++ ws) :
    ∃ raw' stop' us', us = raw' ++ stop' :: us' ∧ words us' = ws ∧ stop'.kind = .semicolon ∧
      Phrase.Declaration types.zeroed (significant (raw' ++ [stop'])) v.zeroed [] ∧
      words (keep 2 raw' ++ [stop']) = words (keep 2 raw ++ [stop]) := by
  have solid := isBlank_of_kind hs (by simp)
  obtain ⟨word, name, middle, type, first, hk, hn, hd, he⟩ := exists_words_of_declaration solid h
  have three : words (keep 2 raw ++ [stop]) = [word.word, name.word, stop.word] := by
    rw [words_append, words_cons_of_solid solid, words, significant_keep, first]
    rfl
  rw [three, List.cons_append, List.cons_append, List.cons_append, List.nil_append] at hw
  obtain ⟨b₁, word', _, rfl, h₁, solid₁, same₁, hw⟩ := exists_of_words_eq_cons hw
  obtain ⟨b₂, name', _, rfl, h₂, solid₂, same₂, hw⟩ := exists_of_words_eq_cons hw
  obtain ⟨b₃, stop', us', rfl, h₃, solid₃, same₃, hw⟩ := exists_of_words_eq_cons hw
  have hs' := (Token.kind_of_word same₃).trans hs
  have first' : significant (b₁ ++ word' :: (b₂ ++ name' :: b₃)) = [word', name'] := by
    rw [significant_of_blanks h₁ solid₁, significant_of_blanks h₂ solid₂, significant_of_isBlank h₃]
  refine ⟨b₁ ++ word' :: (b₂ ++ name' :: b₃), stop', us', by simp, hw, hs', ?_, ?_⟩
  · have last : significant [stop'] = [stop'] := significant_eq_self (by simpa using solid₃)
    have denotes : Denotes types.zeroed word'.text type.zeroed := by
      rw [Token.text_of_word same₁]
      exact hd.zeroed
    have ending : Phrase.Ending name'.text type.zeroed [stop'] v.zeroed [] := by
      rw [Token.text_of_word same₂]
      exact he.zeroed hs'
    rw [significant_append, first', last]
    exact .intro ((Token.kind_of_word same₁).trans hk) denotes ((Token.kind_of_word same₂).trans hn) ending
  · rw [three, words_append, words_cons_of_solid solid₃, words, significant_keep, first', ← same₁, ← same₂, ← same₃]
    rfl

/-- What is copied of fields declares the same fields with zeros. -/
theorem Fields.exists_of_words (h : Fields types raw vs kept) (hw : words us = words kept ++ ws) :
    ∃ raw' kept' us', us = raw' ++ us' ∧ words us' = ws ∧ Fields types.zeroed raw' (Variable.zeroedAll vs) kept' ∧
      words kept' = words kept := by
  induction h generalizing us with
  | nil => exact ⟨[], [], us, rfl, hw, .nil, rfl⟩
  | @cons raw more kept stop v vs hs h _ ih =>
    have solid := isBlank_of_kind hs (by simp)
    have split : words (keep 2 raw ++ stop :: kept) = words (keep 2 raw ++ [stop]) ++ words kept := by
      rw [List.append_cons, words_append]
    rw [split, List.append_assoc] at hw
    obtain ⟨raw₁, stop', us₁, rfl, hw, hs', phrase, same⟩ := exists_declaration_of_words hs h hw
    obtain ⟨raw₂, kept', us', rfl, hw, fields, same'⟩ := ih hw
    refine ⟨raw₁ ++ stop' :: raw₂, keep 2 raw₁ ++ stop' :: kept', us', by simp, hw, .cons hs' phrase fields, ?_⟩
    rw [split, ← same, ← same', ← words_append, List.append_assoc]
    rfl

/-- **What is copied of the definition of a struct type defines the same type with zeros.** -/
theorem Definition.exists_of_words {name : String} {stop : Token} (h : Definition types raw name vs stop kept)
    (hw : words us = words kept ++ ws) :
    ∃ raw' stop' kept' us', us = raw' ++ us' ∧ words us' = ws ∧
      Definition types.zeroed raw' name (Variable.zeroedAll vs) stop' kept' ∧ words kept' = words kept := by
  obtain @⟨b₁, b₂, b₃, b₄, raw, kept, name, opening, closing, stop, vs, h₁, hn, h₂, ho, fields, h₃, hc, h₄, hs⟩ := h
  have kinds (t : Token) {kind : Token.Kind} (hk : t.kind = kind) (ne : kind ≠ .whitespace) := isBlank_of_kind hk ne
  have all : words (b₁ ++ name :: (b₂ ++ opening :: (kept ++ (b₃ ++ closing :: (b₄ ++ [stop]))))) =
      name.word :: opening.word :: (words kept ++ [closing.word, stop.word]) := by
    rw [words_of_blanks h₁ (kinds _ hn (by simp)), words_of_blanks h₂ (kinds _ ho (by simp)), words_append,
      words_of_blanks h₃ (kinds _ hc (by simp)), words_of_blanks h₄ (kinds _ hs (by simp)), words_nil]
  rw [all, List.cons_append, List.cons_append, List.append_assoc] at hw
  obtain ⟨c₁, name', _, rfl, k₁, solid₁, same₁, hw⟩ := exists_of_words_eq_cons hw
  obtain ⟨c₂, opening', _, rfl, k₂, solid₂, same₂, hw⟩ := exists_of_words_eq_cons hw
  obtain ⟨raw', kept', _, rfl, hw, fields', same⟩ := fields.exists_of_words hw
  obtain ⟨c₃, closing', _, rfl, k₃, solid₃, same₃, hw⟩ := exists_of_words_eq_cons hw
  obtain ⟨c₄, stop', us', rfl, k₄, solid₄, same₄, hw⟩ := exists_of_words_eq_cons hw
  have named : name'.text = name.text := Token.text_of_word same₁
  have definition := Definition.intro k₁ ((Token.kind_of_word same₁).trans hn) k₂
    ((Token.kind_of_word same₂).trans ho) fields' k₃ ((Token.kind_of_word same₃).trans hc) k₄
    ((Token.kind_of_word same₄).trans hs)
  rw [named] at definition
  refine ⟨_, stop', _, us', by simp, hw, definition, ?_⟩
  rw [all, words_of_blanks k₁ solid₁, words_of_blanks k₂ solid₂, words_append, words_of_blanks k₃ solid₃,
    words_of_blanks k₄ solid₄, words_nil, same, same₁, same₂, same₃, same₄]

end Reader

end ShaderWeave
