import ShaderWeave.Proofs.Reader.Tracing

/-!
# Where problems are reported

A reader reports a problem on the line of the cursor. The cursor does not move back, so problems are reported in the
order of their lines, and beyond the last token the last line stands in. This is the law `Reporting`, which is kept by
whatever a file is made of, so it holds of every construct (`reporting_construct`).

A construct that asks for another file does so on the line on which it ends (`endsAt_construct`), so what is reported
about that file comes after what the construct has reported itself.
-/

namespace ShaderWeave

variable {α β : Type}

/-- Problems that are found while a cursor moves over `n` tokens: they are of the kinds that readers report, and they
are reported in order on lines between those of the cursor before and after. -/
structure Cursor.Reports (c : Cursor) (n : Nat) (fs : List Fault) : Prop where
  /-- Readers find them. -/
  found : ∀ f ∈ fs, f.1.foundInReading = true
  /-- They are in order. -/
  lines : c.Within n (fs.map Prod.snd)

namespace Cursor

variable {c : Cursor} {m n : Nat} {fs gs : List Fault}

theorem reports_nil (c : Cursor) (n : Nat) : c.Reports n [] where
  found := by simp
  lines := c.within_nil n

theorem reports_single {p : Problem} (h : p.foundInReading = true) (c : Cursor) : c.Reports 0 [(p, c.line)] where
  found := by simpa using h
  lines := by constructor <;> simp

theorem Reports.append (hc : c.Ordered) (h : c.Reports m fs) (h' : (c.skip m).Reports n gs) :
    c.Reports (m + n) (fs ++ gs) where
  found := List.forall_mem_append.2 ⟨h.found, h'.found⟩
  lines := by
    rw [List.map_append]
    exact h.lines.append hc h'.lines

end Cursor

namespace Reader

/-! ### The law -/

/-- What the reader reports lies between where it starts and where it ends. -/
def Reporting (α : Type) (r : Reader α) : Prop :=
  ∀ c : Cursor, c.Ordered → c.Reports (r c).steps (r c).faults

theorem Reporting.bind {r : Reader α} {f : α → Reader β} (hr : Reporting α r) (hf : ∀ a, Reporting β (f a)) :
    Reporting β (r >>= f) := by
  intro c hc
  cases hv : (r c).value with
  | none =>
    rw [bind_apply_of_none hv]
    exact hr c hc
  | some a =>
    rw [faults_bind_of_some hv, bind_apply_of_some hv]
    exact (hr c hc).append hc (hf a _ (hc.skip _))

/-- A reader that finds no problem reports none. -/
theorem reporting_of_faultless {r : Reader α} (h : ∀ c, (r c).faults = []) : Reporting α r := by
  intro c _
  rw [h]
  exact c.reports_nil _

theorem reporting_pure (a : α) : Reporting α (pure a) :=
  reporting_of_faultless fun _ => rfl

theorem reporting_abandon : Reporting α abandon :=
  reporting_of_faultless fun _ => rfl

theorem reporting_report {p : Problem} (h : p.foundInReading = true) : Reporting Unit (report p) :=
  fun c _ => c.reports_single h

theorem reporting_expect (kinds : List Token.Kind) (expected : String) : Reporting Bool (expect kinds expected) := by
  have advance : Reporting Unit advance :=
    reporting_of_faultless fun c => by simp [Outcome.faults, Reader.advance, Output.fault?]
  refine advance.bind fun _ => (reporting_of_faultless fun _ => rfl).bind fun c => ?_
  split
  · split
    · exact reporting_pure true
    · exact (reporting_report rfl).bind fun _ => reporting_pure false
  · exact (reporting_report rfl).bind fun _ => reporting_pure false

/-- **Problems are reported in the order of their lines.** -/
theorem writingLaw_reporting : WritingLaw Reporting where
  pure := reporting_pure
  bind := Reporting.bind
  here := reporting_of_faultless fun _ => rfl
  current := reporting_of_faultless fun c => by cases h : c.ahead <;> simp [Outcome.faults, current, h, Output.fault?]
  report := fun _ h => reporting_report h
  refuse := fun _ h => (reporting_report h).bind fun _ => reporting_abandon
  expect := reporting_expect
  demandOneOf := fun kinds expected => (reporting_expect kinds expected).bind fun found => by
    cases found with
    | true => exact reporting_pure ()
    | false => exact reporting_abandon
  copy := reporting_of_faultless fun c => by simp [Outcome.faults, copy, Output.fault?]
  collect := by
    intro α stop r progress hr c hc
    induction c using collectUntil.induct stop r progress with
    | case1 c h =>
      rw [collectUntil_of_stop h]
      exact c.reports_nil _
    | case2 c h _ ih =>
      rw [collectUntil_of_more h, Outcome.faults, List.filterMap_append]
      exact (hr c hc).append hc (ih (hc.skip _))

/-- **What a construct reports lies between where it starts and where it ends.** -/
theorem reporting_construct (path : Path) (standsAlone : Bool) (types : Structs) :
    Reporting Action (construct path standsAlone types) :=
  writingLaw_reporting.construct (reporting_of_faultless fun _ => rfl) path standsAlone types

/-! ### Where requests end -/

/-- Unless it is abandoned, the reader ends where `Q` holds of what it gives. -/
def EndsAt (Q : α → Cursor → Prop) (r : Reader α) : Prop :=
  ∀ (c : Cursor) (a : α), (r c).value = some a → Q a (c.skip (r c).steps)

theorem endsAt_pure {Q : α → Cursor → Prop} {a : α} (h : ∀ c, Q a c) : EndsAt Q (pure a) := by
  intro c b value
  obtain rfl : a = b := Option.some.inj value
  exact h _

/-- Where the second reader ends is where both end. -/
theorem EndsAt.after {Q : β → Cursor → Prop} {r : Reader α} {f : α → Reader β} (hf : ∀ a, EndsAt Q (f a)) :
    EndsAt Q (r >>= f) := by
  intro c b value
  obtain ⟨a, first, second⟩ := value_bind_eq_some_iff.1 value
  rw [bind_apply_of_some first, ← Cursor.skip_skip]
  exact hf a _ b second

/-- If a file is asked for, then on the line of the cursor. -/
def AsksHere (a : Action) (c : Cursor) : Prop :=
  ∀ m written line, a = .request m written line → line = c.line

/-- A file is asked for on the line of the path that is written. -/
theorem endsAt_written (m : Manner) :
    EndsAt AsksHere (current >>= fun t => pure (Action.request m t.text t.line)) := by
  intro c a value
  cases ahead : c.ahead with
  | nil =>
    obtain ⟨t, token, -⟩ := value_bind_eq_some_iff.1 value
    simp [current, ahead] at token
  | cons t rest =>
    rw [bind_apply_of_still (current_apply ahead)] at value ⊢
    obtain rfl : Action.request m t.text t.line = a := Option.some.inj value
    intro m' written line h
    obtain ⟨-, -, rfl⟩ := Action.request.inj h
    simp [pure_apply, Cursor.line, ahead]

theorem endsAt_request (m : Manner) (expected : String) : EndsAt AsksHere (request m expected) := by
  unfold request
  refine .after fun found => ?_
  cases found with
  | true => exact endsAt_written m
  | false => exact .after fun _ => endsAt_pure fun _ _ _ _ h => by simp at h

/-- **A construct that asks for a file does so on the line on which it ends.** -/
theorem endsAt_construct (path : Path) (standsAlone : Bool) (types : Structs) :
    EndsAt AsksHere (construct path standsAlone types) := by
  have other {a : Action} (h : ∀ m written line, a ≠ .request m written line) : EndsAt AsksHere (pure a) :=
    endsAt_pure fun _ m written line heq => absurd heq (h m written line)
  have mark : EndsAt AsksHere
      (if standsAlone then report .unfilledTemplate >>= fun _ => pure .nothing else pure .nothing) := by
    split
    · exact .after fun _ => other (by simp)
    · exact other (by simp)
  unfold construct
  refine .after fun t => ?_
  cases t.role with
  | inclusion => exact endsAt_request _ _
  | templateMark =>
    refine .after fun c => ?_
    dsimp only
    split
    · exact .after fun _ => mark
    · exact mark
  | vertexLink =>
    dsimp only
    split
    · exact .after fun _ => endsAt_request _ _
    · exact endsAt_request _ _
  | structDefinition =>
    dsimp only
    rw [structDefinition_eq]
    exact .after fun _ => .after fun _ => other (by simp)
  | uniform => exact .after fun _ => .after fun _ => other (by simp)
  | plain => exact .after fun _ => other (by simp)

end Reader

end ShaderWeave
