import ShaderWeave.Reader

/-!
# What readers see and do

A reader sees the token under the cursor and, beyond it, the tokens that are no blanks. `Cursor.view` is what it sees.
What it does is told in these terms: `Takes` says what it gives where it sees a view, and what it sees then; `Refuses`
says in which place it is abandoned and what it reports there. Blanks and positions have no part in it, so a proof
about a reader is a walk over tokens.

`Takes.bind`, `Takes.bind_refuses` and `Refuses.bind` put readers together, and `takes_demandOneOf` and
`refuses_demandOneOf` are what a demand does with a token of a right and of a wrong kind.
-/

namespace ShaderWeave

variable {α β : Type}

/-! ### What a reader sees and reports -/

/-- The tokens that are no blanks. -/
def significant (ts : List Token) : List Token :=
  ts.filter fun t => !t.isBlank

/-- What a reader sees of the tokens: the one under the cursor, and those after it that are no blanks. -/
structure View where
  /-- The token under the cursor. -/
  under : Option Token
  /-- The tokens after the cursor that are no blanks. -/
  upcoming : List Token

/-- What a reader sees from a cursor. -/
def Cursor.view (c : Cursor) : View :=
  ⟨c.ahead.head?, significant (c.ahead.drop 1)⟩

/-- A problem with the line it is reported on. -/
abbrev Fault := Problem × Nat

/-- The problem that is reported, if one is. -/
def Output.fault? : Output → Option Fault
  | .problem p line => some (p, line)
  | _ => none

/-- The problems that are reported, in order. -/
def Outcome.faults (o : Outcome α) : List Fault :=
  o.output.filterMap Output.fault?

/-- The problem is a number outside the range or the form of its type. -/
def Problem.IsBadNumber (p : Problem) : Prop :=
  ∃ literal, p = .badNumber literal

/-- The problem is that the given token, or the end of the file if there is none, is not what is needed. -/
inductive Problem.Blames : Problem → Option Token → Prop
  /-- The token is of the wrong kind. -/
  | unexpected (expected : String) (t : Token) : Blames (.unexpected expected t.text) (some t)
  /-- The file ends too early. -/
  | unexpectedEnd (expected : String) : Blames (.unexpectedEnd expected) none
  /-- The token names no type. -/
  | unknownType {t : Token} (h : ¬ "vec".toList <:+: t.text.toList) : Blames (.unknownType t.text) (some t)
  /-- The token names no type, but looks like a vector. -/
  | badVectorType {t : Token} (h : "vec".toList <:+: t.text.toList) : Blames (.badVectorType t.text) (some t)

theorem significant_append (ts us : List Token) : significant (ts ++ us) = significant ts ++ significant us :=
  List.filter_append ts us

theorem significant_eq_self {ts : List Token} (h : ∀ t ∈ ts, t.isBlank = false) : significant ts = ts := by
  refine List.filter_eq_self.2 ?_
  intro t ht
  simp [h t ht]

theorem drop_length_takeWhile (p : Token → Bool) (ts : List Token) :
    ts.drop (ts.takeWhile p).length = ts.dropWhile p := by
  calc ts.drop (ts.takeWhile p).length
      = (ts.takeWhile p ++ ts.dropWhile p).drop (ts.takeWhile p).length := by rw [List.takeWhile_append_dropWhile]
    _ = ts.dropWhile p := List.drop_left

/-- Leaving out the blanks before a token does not change what is significant. -/
theorem significant_dropWhile (ts : List Token) : significant (ts.dropWhile Token.isBlank) = significant ts := by
  induction ts with
  | nil => rfl
  | cons t ts ih =>
    by_cases h : t.isBlank
    · simp only [List.dropWhile_cons, h, if_true, ih]
      simp [significant, h]
    · simp [h]

theorem head?_dropWhile_isBlank (ts : List Token) :
    (ts.dropWhile Token.isBlank).head? = (significant ts).head? := by
  induction ts with
  | nil => rfl
  | cons t ts ih =>
    by_cases h : t.isBlank
    · simp only [List.dropWhile_cons, h, if_true, ih]
      simp [significant, h]
    · simp [significant, h]

/-- The token under a cursor that stands on no blank is the first significant one. -/
theorem significant_drop_one {ts : List Token} (h : ∀ t ∈ ts.head?, t.isBlank = false) :
    significant (ts.drop 1) = (significant ts).tail := by
  cases ts with
  | nil => rfl
  | cons t ts => simp [significant, h t rfl]

namespace Cursor

theorem nextKind_eq (c : Cursor) : c.nextKind = c.view.upcoming.head?.map Token.kind := by
  simp [nextKind, view, significant, List.head?_filter]

theorem isBlank_of_mem_upcoming {c : Cursor} {t : Token} (h : t ∈ c.view.upcoming) : t.isBlank = false := by
  simpa using (List.mem_filter.1 h).2

/-- The line of a cursor is the line of the token under it. -/
theorem line_eq_of_view {c : Cursor} {t : Token} {us : List Token} (h : c.view = ⟨some t, us⟩) : c.line = t.line := by
  have under : c.ahead.head? = some t := congrArg View.under h
  simp [line, under]

end Cursor

namespace Reader

theorem here_bind_apply (f : Cursor → Reader α) (c : Cursor) : (here >>= f) c = f c c := by
  rw [bind_apply_of_some (a := c) rfl]
  simp [here]

/-- Moving on brings the next significant token under the cursor. -/
theorem view_advance (c : Cursor) :
    (c.skip (advance c).steps).view = ⟨c.view.upcoming.head?, c.view.upcoming.tail⟩ := by
  have ahead : (c.skip (advance c).steps).ahead = (c.ahead.drop 1).dropWhile Token.isBlank := by
    simp only [advance, Cursor.ahead_skip, ← List.drop_drop]
    exact drop_length_takeWhile _ (c.ahead.drop 1)
  have solid : ∀ t ∈ ((c.ahead.drop 1).dropWhile Token.isBlank).head?, t.isBlank = false := by
    intro t ht
    rw [head?_dropWhile_isBlank] at ht
    have mem := List.mem_of_mem_head? ht
    simpa [significant] using (List.mem_filter.1 mem).2
  simp only [Cursor.view, ahead, head?_dropWhile_isBlank, significant_drop_one solid, significant_dropWhile]

theorem faults_advance (c : Cursor) : (advance c).faults = [] := by
  simp [advance, Outcome.faults, Output.fault?, List.filterMap_map, Function.comp_def]

/-! ### Reading and being abandoned -/

/-- Where the reader sees `v`, it gives `a`, reports `fs`, and then sees `w`. -/
def Takes (r : Reader α) (v : View) (a : α) (fs : List Fault) (w : View) : Prop :=
  ∀ c : Cursor, c.view = v → (r c).value = some a ∧ (r c).faults = fs ∧ (c.skip (r c).steps).view = w

/-- Where the reader sees `v`, it is abandoned in a place where it sees `w`. After `fs`, it reports `p` in that place,
and it rests on the next semicolon from there. -/
def Refuses (r : Reader α) (v : View) (fs : List Fault) (p : Problem) (w : View) : Prop :=
  ∀ c : Cursor, c.view = v → ∃ n, (c.skip n).view = w ∧ (r c).value = none ∧
    (r c).faults = fs ++ [(p, (c.skip n).line)] ∧
    (r c).steps = n + ((c.skip n).ahead.takeWhile (·.kind ≠ .semicolon)).length

variable {r : Reader α} {f : α → Reader β} {u v w : View} {a : α} {b : β} {fs gs : List Fault} {p : Problem}

theorem Takes.bind (hr : r.Takes u a fs v) (hf : (f a).Takes v b gs w) : (r >>= f).Takes u b (fs ++ gs) w := by
  intro c hc
  obtain ⟨value, faults, sight⟩ := hr c hc
  obtain ⟨value', faults', sight'⟩ := hf _ sight
  rw [bind_apply_of_some value]
  refine ⟨value', ?_, ?_⟩
  · rw [← faults, ← faults']
    exact List.filterMap_append
  · rw [← Cursor.skip_skip]
    exact sight'

theorem Takes.bind_refuses (hr : r.Takes u a fs v) (hf : (f a).Refuses v gs p w) :
    (r >>= f).Refuses u (fs ++ gs) p w := by
  intro c hc
  obtain ⟨value, faults, sight⟩ := hr c hc
  obtain ⟨n, sight', value', faults', steps⟩ := hf _ sight
  refine ⟨(r c).steps + n, by rw [← Cursor.skip_skip]; exact sight', ?_⟩
  rw [bind_apply_of_some value, ← Cursor.skip_skip]
  refine ⟨value', ?_, ?_⟩
  · rw [List.append_assoc, ← faults', ← faults]
    exact List.filterMap_append
  · rw [steps, Nat.add_assoc]

theorem Refuses.bind (hr : r.Refuses u fs p w) : (r >>= f).Refuses u fs p w := by
  intro c hc
  obtain ⟨n, sight, value, faults, steps⟩ := hr c hc
  rw [bind_apply_of_none value]
  exact ⟨n, sight, rfl, faults, steps⟩

theorem takes_pure (a : α) (v : View) : (pure a : Reader α).Takes v a [] v := by
  intro c hc
  exact ⟨rfl, rfl, hc⟩

theorem takes_copy (v : View) : copy.Takes v () [] v := by
  intro c hc
  refine ⟨rfl, ?_, hc⟩
  cases h : c.ahead.head? <;> simp [copy, Outcome.faults, Output.fault?, h]

theorem takes_advance (v : View) : advance.Takes v () [] ⟨v.upcoming.head?, v.upcoming.tail⟩ := by
  rintro c rfl
  exact ⟨rfl, faults_advance c, view_advance c⟩

theorem takes_current (t : Token) (us : List Token) : current.Takes ⟨some t, us⟩ t [] ⟨some t, us⟩ := by
  intro c hc
  obtain ⟨ts, ahead⟩ : ∃ ts, c.ahead = t :: ts := List.head?_eq_some_iff.1 (congrArg View.under hc)
  simp [current, ahead, Outcome.faults, hc]

theorem takes_report (p : Problem) (t : Token) (us : List Token) :
    (report p).Takes ⟨some t, us⟩ () [(p, t.line)] ⟨some t, us⟩ := by
  intro c hc
  refine ⟨rfl, ?_, hc⟩
  simp [report, Outcome.faults, Output.fault?, Cursor.line_eq_of_view hc]

/-- A problem that is reported before reading is abandoned is reported in the place where it is abandoned. -/
theorem refuses_report_abandon (p : Problem) (v : View) :
    (report p >>= fun _ => (abandon : Reader α)).Refuses v [] p v := by
  intro c hc
  refine ⟨0, hc, ?_⟩
  rw [bind_apply_of_some (a := ()) rfl]
  simp [report, abandon, Outcome.faults, Output.fault?]

/-- Wherever the tokens `ts` come next, the reader gives `a`, reports `fs` and stops on the last of them. -/
def Reads (r : Reader α) (ts : List Token) (a : α) (fs : List Fault) : Prop :=
  ∀ (u : Option Token) (us : List Token), r.Takes ⟨u, ts ++ us⟩ a fs ⟨ts.getLast?.or u, us⟩

theorem Reads.bind {ts us : List Token} (hr : r.Reads ts a fs) (hf : (f a).Reads us b gs) :
    (r >>= f).Reads (ts ++ us) b (fs ++ gs) := by
  intro u xs
  have first := hr u (us ++ xs)
  have second := hf (ts.getLast?.or u) xs
  rw [← List.append_assoc] at first
  rw [List.getLast?_append, Option.or_assoc]
  exact first.bind second

/-! ### Expectations -/

/-- The problem with a token, or with the end of the file, in the place of an expected one. -/
def mismatch (expected : String) : Option Token → Problem
  | some t => .unexpected expected t.text
  | none => .unexpectedEnd expected

theorem mismatch_blames (expected : String) (off : Option Token) : (mismatch expected off).Blames off := by
  cases off with
  | none => exact .unexpectedEnd expected
  | some t => exact .unexpected expected t

/-- What a demand does with the token it has moved to. -/
def verdict (kinds : List Token.Kind) (expected : String) : Option Token → Reader Unit
  | some t => if t.kind ∈ kinds then pure () else report (.unexpected expected t.text) >>= fun _ => abandon
  | none => report (.unexpectedEnd expected) >>= fun _ => abandon

section Expectations

variable {kinds : List Token.Kind} {expected : String}

theorem verdict_of_notMem {off : Option Token} (h : ∀ t ∈ off, t.kind ∉ kinds) :
    verdict kinds expected off = report (mismatch expected off) >>= fun _ => abandon := by
  cases off with
  | none => rfl
  | some t => simp [verdict, mismatch, h t rfl]

theorem demandOneOf_eq (kinds : List Token.Kind) (expected : String) :
    demandOneOf kinds expected =
      advance >>= fun _ => here >>= fun c => verdict kinds expected c.ahead.head? := by
  simp only [demandOneOf, expect, bind_assoc]
  congr
  funext _
  congr
  funext c
  cases h : c.ahead with
  | nil => simp [verdict]
  | cons t ts => by_cases hk : t.kind ∈ kinds <;> simp [verdict, hk]

theorem takes_expect {t : Token} (h : t.kind ∈ kinds) (u : Option Token) (us : List Token) :
    (expect kinds expected).Takes ⟨u, t :: us⟩ true [] ⟨some t, us⟩ := by
  refine (takes_advance _).bind ?_
  intro c hc
  obtain ⟨ts, ahead⟩ : ∃ ts, c.ahead = t :: ts := List.head?_eq_some_iff.1 (congrArg View.under hc)
  rw [here_bind_apply]
  simp only [ahead, h, if_true]
  exact takes_pure true _ c hc

theorem takes_demandOneOf {t : Token} (h : t.kind ∈ kinds) (u : Option Token) (us : List Token) :
    (demandOneOf kinds expected).Takes ⟨u, t :: us⟩ () [] ⟨some t, us⟩ :=
  (takes_expect h u us).bind (takes_pure () _)

theorem refuses_demandOneOf {off : Option Token} (h : ∀ t ∈ off, t.kind ∉ kinds) (u : Option Token) {us : List Token}
    (he : off = none → us = []) :
    (demandOneOf kinds expected).Refuses ⟨u, off.toList ++ us⟩ [] (mismatch expected off) ⟨off, us⟩ := by
  rw [demandOneOf_eq]
  refine (takes_advance _).bind_refuses ?_
  have sight : (⟨(off.toList ++ us).head?, (off.toList ++ us).tail⟩ : View) = ⟨off, us⟩ := by
    cases off with
    | none => simp [he rfl]
    | some t => rfl
  rw [sight]
  intro c hc
  have under : c.ahead.head? = off := congrArg View.under hc
  rw [here_bind_apply, under, verdict_of_notMem h]
  exact refuses_report_abandon _ _ c hc

/-- Where the next token is of the expected kind, expecting it is as good as demanding it. -/
theorem expect_bind_apply {kind : Token.Kind} {c : Cursor} (h : c.nextKind = some kind) (r : Reader α) :
    (expect [kind] expected >>= fun _ => r) c = (demand kind expected >>= fun _ => r) c := by
  rw [Cursor.nextKind_eq, Option.map_eq_some_iff] at h
  obtain ⟨t, head, hk⟩ := h
  obtain ⟨us, upcoming⟩ := List.head?_eq_some_iff.1 head
  have view : c.view = ⟨c.view.under, t :: us⟩ := by rw [← upcoming]
  have value : (expect [kind] expected c).value = some true := (takes_expect (by simp [hk]) _ us c view).1
  have value' : (demand kind expected c).value = some () :=
    (takes_demandOneOf (by simp [hk]) _ us c view).1
  have same : demand kind expected c =
      ⟨some (), (expect [kind] expected c).steps, (expect [kind] expected c).output⟩ := by
    rw [demand, demandOneOf, bind_apply_of_some value]
    simp [pure_apply]
  rw [bind_apply_of_some value, bind_apply_of_some value', same]

end Expectations

end Reader

end ShaderWeave
