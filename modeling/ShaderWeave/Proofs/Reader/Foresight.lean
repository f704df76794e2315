import ShaderWeave.Proofs.Reader.Requests
import ShaderWeave.Proofs.Reader.Tracing

/-!
# What has been seen to come next is there

To look ahead and to expect a token are two ways over the same blanks. `Reader.Agrees` says that they find the same
token from a cursor on: an expectation stops on the token whose kind the look ahead has told, it is met exactly if that
kind is one of those expected, and then it reports nothing. By `Reader.agrees_expect` this holds wherever the cursor
stands.

So no reader reports a problem that is ruled out (`Reader.Sound`), if each token with the kind of a truth value reads
`true` or `false`. This is a law of careful readers.
-/

namespace ShaderWeave

variable {α β : Type}

namespace Reader

/-! ### Looking ahead and expecting -/

/-- What the look ahead from a cursor tells of an expectation. -/
structure Agrees (kinds : List Token.Kind) (expected : String) (c : Cursor) : Prop where
  /-- The expectation stops on the token that has been seen. -/
  stops : (c.skip (expect kinds expected c).steps).ahead.head?.map Token.kind = c.nextKind
  /-- It is met if the kind that has been seen is one of those expected. -/
  met : (expect kinds expected c).value = some true ↔ ∃ kind ∈ kinds, c.nextKind = some kind
  /-- Then it reports nothing. -/
  silent : (expect kinds expected c).value = some true → (expect kinds expected c).faults = []

/-- An expectation moves as far as the blanks go, met or not. -/
theorem steps_expect (kinds : List Token.Kind) (expected : String) (c : Cursor) :
    (expect kinds expected c).steps = (advance c).steps := by
  rw [expect, bind_apply_of_some (a := ()) rfl, here_bind_apply]
  cases (c.skip (advance c).steps).ahead with
  | nil => rfl
  | cons t rest =>
    by_cases hk : t.kind ∈ kinds
    · simp [hk, pure_apply]
    · simp only [if_neg hk]
      rfl

/-- What comes next and is of an expected kind is found. -/
theorem expect_of_nextKind {kinds : List Token.Kind} (expected : String) {c : Cursor} {kind : Token.Kind}
    (next : c.nextKind = some kind) (hk : kind ∈ kinds) :
    (expect kinds expected c).value = some true ∧ (expect kinds expected c).faults = [] := by
  rw [Cursor.nextKind_eq, Option.map_eq_some_iff] at next
  obtain ⟨t, head, rfl⟩ := next
  obtain ⟨us, upcoming⟩ := List.head?_eq_some_iff.1 head
  have takes : (expect kinds expected).Takes ⟨c.view.under, t :: us⟩ true [] ⟨some t, us⟩ := takes_expect hk _ _
  obtain ⟨value, faults, -⟩ := takes c (by rw [← upcoming])
  exact ⟨value, faults⟩

/-- **Looking ahead and expecting agree wherever the cursor stands.** -/
theorem agrees_expect (kinds : List Token.Kind) (expected : String) (c : Cursor) : Agrees kinds expected c := by
  have found : (expect kinds expected c).value = some true ↔ ∃ kind ∈ kinds, c.nextKind = some kind := by
    constructor
    · intro value
      obtain ⟨t, head, hk⟩ := exists_of_expect value
      exact ⟨t.kind, hk, by rw [Cursor.nextKind_eq, head]; rfl⟩
    · rintro ⟨kind, hk, next⟩
      exact (expect_of_nextKind expected next hk).1
  refine ⟨?_, found, fun value => ?_⟩
  · have under := congrArg View.under (view_advance c)
    rw [steps_expect, Cursor.nextKind_eq]
    exact congrArg (Option.map Token.kind) under
  · obtain ⟨kind, hk, next⟩ := found.1 value
    exact (expect_of_nextKind expected next hk).2

/-! ### Problems that are ruled out -/

/-- Where tokens with the kind of a truth value read `true` or `false`, no problem is reported that is ruled out. -/
def Sound (α : Type) (r : Reader α) : Prop :=
  ∀ c : Cursor, (∀ t ∈ c.ahead, t.Truthful) → ∀ f ∈ (r c).faults, f.1.isRuledOut = false

theorem Sound.bind {r : Reader α} {f : α → Reader β} (hr : Sound α r) (hf : ∀ a, Sound β (f a)) :
    Sound β (r >>= f) := by
  intro c hc
  cases value : (r c).value with
  | none =>
    rw [faults_bind_of_none value]
    exact hr c hc
  | some a =>
    rw [faults_bind_of_some value]
    exact List.forall_mem_append.2 ⟨hr c hc, hf a _ fun t ht => hc t (List.mem_of_mem_drop ht)⟩

theorem sound_of_faultless {r : Reader α} (h : ∀ c, (r c).faults = []) : Sound α r := by
  intro c _ f hf
  rw [h c] at hf
  exact absurd hf List.not_mem_nil

theorem sound_pure (a : α) : Sound α (pure a) :=
  sound_of_faultless fun _ => rfl

theorem sound_abandon : Sound α abandon :=
  sound_of_faultless fun _ => rfl

theorem sound_here : Sound Cursor here :=
  sound_of_faultless fun _ => rfl

theorem sound_current : Sound Token current :=
  sound_of_faultless fun c => by cases h : c.ahead <;> simp [Outcome.faults, current, h, Output.fault?]

theorem sound_report {p : Problem} (h : p.isRuledOut = false) : Sound Unit (report p) := by
  intro c _ f hf
  obtain rfl : f = (p, c.line) := by simpa [report, Outcome.faults, Output.fault?] using hf
  exact h

theorem sound_expect (kinds : List Token.Kind) {expected : String} (he : expected ∉ foreseen) :
    Sound Bool (expect kinds expected) := by
  have missed {p : Problem} (hp : p.isRuledOut = false) : Sound Bool (report p >>= fun _ => pure false) :=
    (sound_report hp).bind fun _ => sound_pure false
  refine (sound_of_faultless faults_advance).bind fun _ => sound_here.bind fun c => ?_
  split
  · split
    · exact sound_pure true
    · exact missed (decide_eq_false he)
  · exact missed (decide_eq_false he)

theorem sound_demandOneOf (kinds : List Token.Kind) {expected : String} (he : expected ∉ foreseen) :
    Sound Unit (demandOneOf kinds expected) :=
  (sound_expect kinds he).bind fun met => by
    cases met with
    | true => exact sound_pure ()
    | false => exact sound_abandon

/-- A demand for what has been seen to come next is met. -/
theorem sound_foresee (kind : Token.Kind) (expected : String) {q r : Reader α} (hq : Sound α q) (hr : Sound α r) :
    Sound α (here >>= fun c => if c.nextKind = some kind then demand kind expected >>= fun _ => q else r) := by
  intro c hc
  rw [here_bind_apply]
  by_cases next : c.nextKind = some kind
  · obtain ⟨value, faults⟩ := expect_of_nextKind expected next (List.mem_singleton_self kind)
    rw [if_pos next, ← expect_bind_apply next, faults_bind_of_some value, faults, List.nil_append]
    exact hq _ fun t ht => hc t (List.mem_of_mem_drop ht)
  · rw [if_neg next]
    exact hr c hc

/-- The token that has been demanded is looked at. It is of the kind that was demanded. -/
theorem sound_demand_current (kind : Token.Kind) {expected : String} (he : expected ∉ foreseen)
    {f : Token → Reader α} (hf : ∀ t : Token, t.Truthful → t.kind = kind → Sound α (f t)) :
    Sound α (demand kind expected >>= fun _ => current >>= f) := by
  intro c hc
  have demanded : ∀ g ∈ (demand kind expected c).faults, g.1.isRuledOut = false := sound_demandOneOf [kind] he c hc
  cases value : (demand kind expected c).value with
  | none =>
    rw [faults_bind_of_none value]
    exact demanded
  | some _ =>
    obtain ⟨t, rest, ahead, hk⟩ := endsOn_demand kind expected c () value
    have hd : ∀ u ∈ (c.skip (demand kind expected c).steps).ahead, u.Truthful :=
      fun u hu => hc u (List.mem_of_mem_drop hu)
    have truthful : t.Truthful := hd t (by rw [ahead]; exact List.mem_cons_self)
    rw [faults_bind_of_some value, bind_apply_of_still (current_apply ahead)]
    exact List.forall_mem_append.2 ⟨demanded, hf t truthful hk _ hd⟩

/-- A token with the kind of a truth value is one of the two words. -/
theorem sound_truthValue : Sound Bool truthValue := by
  refine sound_demand_current .boolean (by decide) fun t truthful kind => ?_
  obtain ⟨b, text⟩ := truthful kind
  cases b with
  | true =>
    have word : t.text = "true" := text
    rw [if_pos word]
    exact sound_pure true
  | false =>
    have word : t.text = "false" := text
    rw [if_neg (by rw [word]; decide), if_pos word]
    exact sound_pure false

/-- **Careful readers report no problem that is ruled out.** -/
theorem carefulWritingLaw_sound : CarefulWritingLaw Sound where
  pure := sound_pure
  bind := Sound.bind
  here := sound_here
  report := fun _ hp => sound_report hp
  refuse := fun _ hp => (sound_report hp).bind fun _ => sound_abandon
  demandOneOf := fun kinds _ he => sound_demandOneOf kinds he
  look := fun kinds _ _ he hf => (sound_demandOneOf kinds he).bind fun _ => sound_current.bind hf
  foresee := sound_foresee
  truthValue := sound_truthValue
  copy := sound_of_faultless fun c => by simp [Outcome.faults, copy, Output.fault?]
  lookIf := fun kinds _ _ _ he hf hr => (sound_expect kinds he).bind fun met => by
    cases met with
    | true => exact sound_current.bind hf
    | false => exact hr
  collect := by
    intro α stop r progress hr c hc
    induction c using collectUntil.induct stop r progress with
    | case1 c h =>
      rw [collectUntil_of_stop h]
      exact sound_pure [] c hc
    | case2 c h _ ih =>
      rw [collectUntil_of_more h, Outcome.faults, List.filterMap_append]
      exact List.forall_mem_append.2 ⟨hr c hc, ih fun t ht => hc t (List.mem_of_mem_drop ht)⟩

/-- A construct reports no problem that is ruled out. -/
theorem sound_construct (path : Path) (standsAlone : Bool) (types : Structs) :
    Sound Action (construct path standsAlone types) := by
  have newline : Sound Unit newline := sound_of_faultless fun _ => rfl
  obtain ⟨f, started, sound⟩ := carefulWritingLaw_sound.construct newline path standsAlone types
  rw [started]
  exact sound_current.bind sound

end Reader

end ShaderWeave
