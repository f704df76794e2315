/-!
# Searching a text

`splitFirst mark text` cuts a text at the first place where a mark stands in it. `contains` asks whether there is one.

* `splitFirst_eq_some`: the mark stands between the two parts.
* `contains_iff`: a text contains exactly the marks that are infixes of it.
-/

namespace ShaderWeave.Text

/-- The text before the first place where `mark` stands, and the text after it. -/
def splitFirst (mark : List Char) : List Char → Option (List Char × List Char)
  | [] => if mark = [] then some ([], []) else none
  | c :: cs =>
    if mark.isPrefixOf (c :: cs) then some ([], (c :: cs).drop mark.length)
    else (splitFirst mark cs).map fun parts => (c :: parts.1, parts.2)

/-- The mark stands somewhere in the text. -/
def contains (mark text : List Char) : Bool :=
  (splitFirst mark text).isSome

theorem splitFirst_eq_some {mark text before after : List Char}
    (h : splitFirst mark text = some (before, after)) : text = before ++ mark ++ after := by
  induction text generalizing before with
  | nil =>
    simp only [splitFirst] at h
    split at h <;> simp_all
  | cons c cs ih =>
    simp only [splitFirst] at h
    split at h
    · next hp =>
      obtain ⟨rest, hrest⟩ := List.isPrefixOf_iff_prefix.1 hp
      rw [← hrest] at h ⊢
      simp only [List.drop_left, Option.some.injEq, Prod.mk.injEq] at h
      obtain ⟨rfl, rfl⟩ := h
      simp
    · obtain ⟨⟨b, a⟩, hb, he⟩ := Option.map_eq_some_iff.1 h
      simp only [Prod.mk.injEq] at he
      obtain ⟨rfl, rfl⟩ := he
      simp [ih hb]

theorem contains_iff {mark text : List Char} : contains mark text = true ↔ mark <:+: text := by
  constructor
  · intro h
    obtain ⟨⟨before, after⟩, hs⟩ := Option.isSome_iff_exists.1 h
    exact ⟨before, after, (splitFirst_eq_some hs).symm⟩
  · intro h
    induction text with
    | nil => simp [contains, splitFirst, List.infix_nil.1 h]
    | cons c cs ih =>
      simp only [contains, splitFirst]
      split
      · rfl
      · next hp =>
        rcases List.infix_cons_iff.1 h with h | h
        · exact absurd (List.isPrefixOf_iff_prefix.2 h) hp
        · simpa [contains] using ih h

end ShaderWeave.Text
