import ShaderWeave.Proofs.Reader.Care
import ShaderWeave.Proofs.Reader.Writing

/-!
# Tokens that are looked at are there

A reader looks at the token under the cursor (`Reader.current`) without asking whether there is one, and the cursor may
well stand beyond the last token: an expectation can fail there, and a declaration that is abandoned can end there. What
makes each look good is the expectation before it. So to be in range is no law in the sense of `Reader.Law`, since
`current` itself does not keep it. It is kept by a look after an expectation that has been met (`InRange.expect_bind`)
and by what can stand between such looks, which makes it a law of careful readers.
-/

namespace ShaderWeave

variable {α β : Type}

namespace Reader

/-- Wherever the cursor stands, the reader looks at no token that is not there. -/
def InRange (r : Reader α) : Prop :=
  ∀ (c : Cursor) (i : Nat), .misread i ∉ (r c).output

namespace InRange

variable {r : Reader α} {f : α → Reader β}

protected theorem pure (a : α) : InRange (pure a) := by
  intro c i h
  cases h

protected theorem bind (hr : InRange r) (hf : ∀ a, InRange (f a)) : InRange (r >>= f) := by
  intro c i h
  cases hv : (r c).value with
  | none =>
    rw [bind_apply_of_none hv] at h
    exact hr c i h
  | some a =>
    rw [bind_apply_of_some hv] at h
    exact (List.mem_append.1 h).elim (hr c i) (hf a _ i)

protected theorem here : InRange here := by
  intro c i h
  cases h

protected theorem copy : InRange copy := by
  intro c i
  simp [Reader.copy]

protected theorem newline : InRange newline := by
  intro c i
  simp [Reader.newline]

protected theorem report (p : Problem) : InRange (report p) := by
  intro c i
  simp [Reader.report]

protected theorem abandon : InRange (abandon : Reader α) := by
  intro c i h
  cases h

protected theorem advance : InRange advance := by
  intro c i
  simp [Reader.advance]

/-- A token that is there may be looked at. -/
theorem current_of_ahead {f : Token → Reader β} (hf : ∀ t, InRange (f t)) {c : Cursor} (h : c.ahead ≠ []) (i : Nat) :
    .misread i ∉ ((current >>= f) c).output := by
  obtain ⟨t, rest, ahead⟩ := List.exists_cons_of_ne_nil h
  have value : (current c).value = some t := by simp [current, ahead]
  have silent : (current c).output = [] := by simp [current, ahead]
  rw [bind_apply_of_some value, silent]
  exact hf t _ i

/-- **After an expectation that has been met there is a token.** -/
theorem expect_bind {kinds : List Token.Kind} {expected : String} {f : Bool → Reader β}
    (met : ∀ c : Cursor, c.ahead ≠ [] → ∀ i, .misread i ∉ (f true c).output) (missed : InRange (f false)) :
    InRange (expect kinds expected >>= f) := by
  have reported (p : Problem) : InRange ((report p >>= fun _ => pure false) >>= f) := by
    rw [bind_assoc]
    exact .bind (.report p) fun _ => missed
  rw [expect, bind_assoc]
  refine .bind .advance fun _ c i => ?_
  rw [bind_assoc, here_bind_apply]
  cases ahead : c.ahead with
  | nil => exact reported _ c i
  | cons t rest =>
    dsimp only
    by_cases hk : t.kind ∈ kinds
    · rw [if_pos hk, pure_value_bind]
      exact met c (by simp [ahead]) i
    · rw [if_neg hk]
      exact reported _ c i

/-- The token that has been demanded may be looked at. -/
theorem demandOneOf_current {kinds : List Token.Kind} {expected : String} {f : Token → Reader β}
    (hf : ∀ t, InRange (f t)) : InRange (demandOneOf kinds expected >>= fun _ => current >>= f) := by
  rw [demandOneOf, bind_assoc]
  refine expect_bind (fun c h i => current_of_ahead hf h i) ?_
  intro c i h
  rw [bind_apply_of_none (by rfl)] at h
  exact InRange.abandon c i h

protected theorem demandOneOf (kinds : List Token.Kind) (expected : String) :
    InRange (demandOneOf kinds expected) :=
  expect_bind (fun c _ i => InRange.pure () c i) .abandon

protected theorem collectUntil (stop : Token.Kind) {progress : ∀ c, 0 < (r c).steps} (hr : InRange r) :
    InRange (collectUntil stop r progress) := by
  intro c i
  induction c using collectUntil.induct stop r progress with
  | case1 c h =>
    rw [collectUntil_of_stop h]
    exact List.not_mem_nil
  | case2 c h _ ih =>
    rw [collectUntil_of_more h]
    exact fun hi => (List.mem_append.1 hi).elim (hr c i) ih

protected theorem truthValue : InRange truthValue := by
  refine .demandOneOf_current fun t => ?_
  split
  · exact .pure true
  · split
    · exact .pure false
    · exact .bind (.report _) fun _ => .pure false

/-- **Careful readers look at no token that is not there.** -/
theorem carefulWritingLaw : CarefulWritingLaw fun _ => InRange where
  pure := .pure
  bind := .bind
  here := .here
  report := fun _ _ => .report _
  refuse := fun _ _ => .bind (.report _) fun _ => .abandon
  demandOneOf := fun kinds _ _ => .demandOneOf kinds _
  look := fun _ _ _ _ hf => demandOneOf_current hf
  foresee := fun kind _ _ _ hq hr => .bind .here fun c => by
    split
    · exact .bind (.demandOneOf [kind] _) fun _ => hq
    · exact hr
  truthValue := .truthValue
  copy := .copy
  lookIf := fun _ _ _ _ _ hf hr => expect_bind (fun _ h i => current_of_ahead hf h i) hr
  collect := fun stop _ _ hr => .collectUntil stop hr

end InRange

/-- **Where there is a token, a construct looks at no token that is not there.** -/
theorem misread_notMem_construct (path : Path) (standsAlone : Bool) (types : Structs) {c : Cursor} (h : c.ahead ≠ [])
    (i : Nat) : .misread i ∉ (construct path standsAlone types c).output := by
  obtain ⟨f, started, careful⟩ := InRange.carefulWritingLaw.construct .newline path standsAlone types
  rw [started]
  exact InRange.current_of_ahead careful h i

end Reader

end ShaderWeave
