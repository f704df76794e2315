import ShaderWeave.Proofs.Reader.Laws
import ShaderWeave.Proofs.Reader.Sight
import ShaderWeave.Proofs.Weave.Marks

/-!
# What readers write

A reader passes some tokens and writes some of them. Readers of values write the blanks and nothing else
(`law_silent`), so what a declaration writes is told by position: all its blanks, its first two words and its semicolon
(`written_declaration`). `keep` is that part of some tokens.

A reader that reports nothing has read what it was asked to, and it has copied tokens and done nothing else
(`writingLaw_smooth`). Its output is then what it has written, token by token (`Smooth.output_eq`).
-/

namespace ShaderWeave

variable {α β : Type}

/-! ### Passed and written -/

/-- The tokens that are written, in order. -/
def Outcome.written (o : Outcome α) : List Token :=
  writtenTokens o.output

/-- The tokens after the cursor up to the one on which reading ends. -/
def Outcome.passed (o : Outcome α) (c : Cursor) : List Token :=
  (c.ahead.drop 1).take o.steps

/-- All blanks of some tokens, and the first `n` of those that are no blanks. -/
def keep : Nat → List Token → List Token
  | _, [] => []
  | n, t :: ts =>
    if t.isBlank then t :: keep n ts
    else
      match n with
      | 0 => keep 0 ts
      | n + 1 => t :: keep n ts

theorem keep_zero (ts : List Token) : keep 0 ts = ts.filter Token.isBlank := by
  induction ts with
  | nil => rfl
  | cons t ts ih =>
    rw [keep, List.filter_cons]
    split <;> simp [ih]

/-- What is kept of some tokens that hold no more than `k` of those to be kept is all. -/
theorem keep_append {ts : List Token} {k : Nat} (h : (significant ts).length = k) (n : Nat) (us : List Token) :
    keep (k + n) (ts ++ us) = ts ++ keep n us := by
  induction ts generalizing k with
  | nil =>
    obtain rfl : 0 = k := h
    rw [Nat.zero_add]
    rfl
  | cons t ts ih =>
    by_cases ht : t.isBlank
    · have hk : (significant ts).length = k := by simpa [significant, ht] using h
      simp [keep, ht, ih hk]
    · have hk : (significant ts).length + 1 = k := by simpa [significant, ht] using h
      subst hk
      simp [keep, ht, ih rfl, Nat.add_right_comm]

theorem significant_of_isBlank {ts : List Token} (h : ∀ t ∈ ts, t.isBlank = true) : significant ts = [] := by
  refine List.filter_eq_nil_iff.2 fun t ht => ?_
  simp [h t ht]

/-- The tokens of a list up to one that is no blank are told by those among them that are no blanks. -/
theorem eq_of_significant_eq {ts us xs ys : List Token} {t u : Token} (h : ts ++ t :: xs = us ++ u :: ys)
    (ht : t.isBlank = false) (hu : u.isBlank = false) (hs : significant ts = significant us) :
    ts = us ∧ t = u ∧ xs = ys := by
  have same : ts = us := by
    rcases List.append_eq_append_iff.1 h with ⟨as, rfl, has⟩ | ⟨as, rfl, has⟩
    · cases as with
      | nil => simp
      | cons a as =>
        obtain ⟨rfl, -⟩ := List.cons.inj has
        rw [significant_append] at hs
        have := congrArg List.length hs
        simp [significant, ht] at this
    · cases as with
      | nil => simp
      | cons a as =>
        obtain ⟨rfl, -⟩ := List.cons.inj has
        rw [significant_append] at hs
        have := congrArg List.length hs
        simp [significant, hu] at this
  subst same
  have := List.append_cancel_left h
  exact ⟨rfl, List.cons.inj this⟩

namespace Reader

section Bind

variable {r : Reader α} {f : α → Reader β} {c : Cursor} {a : α} {b : β}

theorem faults_bind_of_some (h : (r c).value = some a) :
    ((r >>= f) c).faults = (r c).faults ++ (f a (c.skip (r c).steps)).faults := by
  rw [bind_apply_of_some h]
  exact List.filterMap_append

/-- Where a sequence is no problem, its first part is none. -/
theorem faults_of_faults_bind (h : ((r >>= f) c).faults = []) : (r c).faults = [] := by
  cases hv : (r c).value with
  | none =>
    rw [bind_apply_of_none hv] at h
    exact h
  | some a =>
    rw [faults_bind_of_some hv] at h
    exact (List.append_eq_nil_iff.1 h).1

theorem faults_bind_of_none (h : (r c).value = none) : ((r >>= f) c).faults = (r c).faults := by
  rw [bind_apply_of_none h]
  rfl

/-- Reading in sequence is not abandoned where neither reader is. -/
theorem value_bind_eq_some_iff :
    ((r >>= f) c).value = some b ↔ ∃ a, (r c).value = some a ∧ (f a (c.skip (r c).steps)).value = some b := by
  cases h : (r c).value with
  | none => simp [bind_apply_of_none h]
  | some a => simp [bind_apply_of_some h]

theorem written_bind_of_some (h : (r c).value = some a) :
    ((r >>= f) c).written = (r c).written ++ (f a (c.skip (r c).steps)).written := by
  rw [bind_apply_of_some h]
  exact writtenTokens_append _ _

theorem passed_bind_of_some (h : (r c).value = some a) :
    ((r >>= f) c).passed c = (r c).passed c ++ (f a (c.skip (r c).steps)).passed (c.skip (r c).steps) := by
  rw [bind_apply_of_some h]
  simp only [Outcome.passed, List.take_add, Cursor.ahead_skip, List.drop_drop, Nat.add_comm]

/-- Two outcomes that are known make the outcome of the sequence. -/
theorem bind_apply_of_eq {m n : Nat} {out out' : List Output} (hr : r c = ⟨some a, m, out⟩)
    (hf : f a (c.skip m) = ⟨some b, n, out'⟩) : (r >>= f) c = ⟨some b, m + n, out ++ out'⟩ := by
  rw [bind_apply_of_some (a := a) (by rw [hr]), hr, hf]

/-- What is made of a value that has been read changes nothing else. -/
theorem map_apply_of_eq {n : Nat} {out : List Output} (h : r c = ⟨some a, n, out⟩) (g : α → β) :
    (r >>= fun a => pure (g a)) c = ⟨some (g a), n, out⟩ := by
  rw [bind_apply_of_eq h (pure_apply (g a) _), Nat.add_zero, List.append_nil]

/-- Reading goes on from the same place after a look at it. -/
theorem bind_apply_of_still (h : r c = ⟨some a, 0, []⟩) : (r >>= f) c = f a c := by
  rw [bind_apply_of_some (a := a) (by rw [h]), h]
  simp

end Bind

/-! ### The token under the cursor -/

section Under

variable {c : Cursor} {t : Token} {rest : List Token} {path : Path} {standsAlone : Bool} {types : Structs}

theorem current_apply (h : c.ahead = t :: rest) :
    current c = ⟨some t, 0, []⟩ := by
  simp [current, h]

theorem copy_apply (h : c.ahead = t :: rest) :
    copy c = ⟨some (), 0, [.copy t]⟩ := by
  simp [copy, h]

theorem construct_of_plain (ahead : c.ahead = t :: rest) (hr : t.role = .plain) :
    construct path standsAlone types c = ⟨some .nothing, 0, [.copy t]⟩ := by
  rw [construct, bind_apply_of_still (current_apply ahead), hr]
  exact map_apply_of_eq (copy_apply ahead) fun _ => Action.nothing

theorem construct_of_uniform (ahead : c.ahead = t :: rest) (hr : t.role = .uniform) :
    construct path standsAlone types c = uniform types c := by
  rw [construct, bind_apply_of_still (current_apply ahead), hr]

theorem construct_of_structDefinition (ahead : c.ahead = t :: rest) (hr : t.role = .structDefinition) :
    construct path standsAlone types c = structDefinition types c := by
  rw [construct, bind_apply_of_still (current_apply ahead), hr]

theorem construct_of_inclusion (ahead : c.ahead = t :: rest) (hr : t.role = .inclusion) :
    construct path standsAlone types c = request .included "a file path after #include" c := by
  rw [construct, bind_apply_of_still (current_apply ahead), hr]

theorem construct_of_templateMark (ahead : c.ahead = t :: rest) (hr : t.role = .templateMark) :
    construct path standsAlone types c = templateMark standsAlone c := by
  rw [construct, bind_apply_of_still (current_apply ahead), hr]

theorem construct_of_vertexLink (ahead : c.ahead = t :: rest) (hr : t.role = .vertexLink) :
    construct path standsAlone types c =
      (if path.isFragment then request .linked "a file path after #vertex_shader"
        else report .linkOutsideFragment >>= fun _ => request .linked "a file path after #vertex_shader") c := by
  rw [construct, bind_apply_of_still (current_apply ahead), hr]
  cases path.isFragment <;> rfl

end Under

/-! ### Moving on -/

end Reader

/-- After the token under the cursor there are blanks, then `t`, which is no blank, and then the rest. -/
structure Cursor.Meets (c : Cursor) (blanks : List Token) (t : Token) (rest : List Token) : Prop where
  /-- The tokens after the cursor. -/
  split : c.ahead.drop 1 = blanks ++ t :: rest
  /-- There are but blanks in between. -/
  blanks : ∀ b ∈ blanks, b.isBlank = true
  /-- The token is no blank. -/
  solid : t.isBlank = false

namespace Reader

section Expectations

variable {kinds : List Token.Kind} {expected : String} {c : Cursor} {blanks rest : List Token} {t : Token}

theorem ahead_skip_of_drop_one (h : c.ahead.drop 1 = blanks ++ t :: rest) :
    (c.skip (blanks.length + 1)).ahead = t :: rest := by
  rw [Cursor.ahead_skip, Nat.add_comm, ← List.drop_drop, h, List.drop_left]

theorem advance_apply (h : c.Meets blanks t rest) : advance c = ⟨some (), blanks.length + 1, blanks.map .copy⟩ := by
  have taken : (c.ahead.drop 1).takeWhile Token.isBlank = blanks := by
    rw [h.split, List.takeWhile_append_of_pos h.blanks]
    simp [h.solid]
  simp only [advance, taken, Nat.add_comm]

theorem expect_apply (h : c.Meets blanks t rest) (hk : t.kind ∈ kinds) :
    expect kinds expected c = ⟨some true, blanks.length + 1, blanks.map .copy⟩ := by
  have ahead := ahead_skip_of_drop_one h.split
  have found (f : Cursor → Reader Bool) (hf : f (c.skip (blanks.length + 1)) = pure true) :
      (here >>= f) (c.skip (blanks.length + 1)) = ⟨some true, 0, []⟩ := by
    rw [here_bind_apply, hf, pure_apply]
  refine (bind_apply_of_eq (advance_apply h) (found _ ?_)).trans (by simp)
  rw [ahead]
  exact if_pos hk

/-- Where nothing is reported, the next token that is no blank is of one of the kinds. -/
theorem exists_meets_of_expect (h : (expect kinds expected c).faults = []) :
    ∃ blanks t rest, c.Meets blanks t rest ∧ t.kind ∈ kinds := by
  have parts : (c.ahead.drop 1).takeWhile Token.isBlank ++ (c.ahead.drop 1).dropWhile Token.isBlank =
      c.ahead.drop 1 := List.takeWhile_append_dropWhile
  have blank : ∀ b ∈ (c.ahead.drop 1).takeWhile Token.isBlank, b.isBlank = true := by
    intro b hb
    exact List.all_eq_true.1 List.all_takeWhile b hb
  have ahead : (c.skip (advance c).steps).ahead = (c.ahead.drop 1).dropWhile Token.isBlank := by
    simp only [advance, Cursor.ahead_skip, ← List.drop_drop]
    exact drop_length_takeWhile _ _
  rw [expect, faults_bind_of_some (a := ()) rfl, faults_advance, List.nil_append, here_bind_apply, ahead] at h
  cases hd : (c.ahead.drop 1).dropWhile Token.isBlank with
  | nil =>
    rw [hd] at h
    rw [faults_bind_of_some (a := ()) rfl] at h
    simp [report, Outcome.faults, Output.fault?] at h
  | cons t rest =>
    have ht := List.head?_dropWhile_not Token.isBlank (c.ahead.drop 1)
    rw [hd] at h ht
    refine ⟨_, t, rest, ⟨by rw [← hd, parts], blank, by simpa using ht⟩, ?_⟩
    by_cases hk : t.kind ∈ kinds
    · exact hk
    · simp only [if_neg hk] at h
      rw [faults_bind_of_some (a := ()) rfl] at h
      simp [report, Outcome.faults, Output.fault?] at h

theorem demandOneOf_apply (h : c.Meets blanks t rest) (hk : t.kind ∈ kinds) :
    demandOneOf kinds expected c = ⟨some (), blanks.length + 1, blanks.map .copy⟩ := by
  exact (bind_apply_of_eq (expect_apply h hk) (pure_apply () _)).trans (by simp)

/-- A demand that reports nothing is met. -/
theorem exists_meets_of_demandOneOf (h : (demandOneOf kinds expected c).faults = []) :
    ∃ blanks t rest, c.Meets blanks t rest ∧ t.kind ∈ kinds :=
  exists_meets_of_expect (faults_of_faults_bind h)

end Expectations

/-! ### Reading without a problem -/

/-- Where the reader reports nothing, it gives a value, stays among the tokens, and does nothing but copy. -/
def Smooth (α : Type) (r : Reader α) : Prop :=
  ∀ c : Cursor, c.ahead ≠ [] → (r c).faults = [] → (∃ a, (r c).value = some a) ∧ (c.skip (r c).steps).ahead ≠ [] ∧
    ∀ o ∈ (r c).output, ∃ t, o = .copy t

/-- What a smooth reader puts out is what it writes. -/
theorem Smooth.output_eq {r : Reader α} (h : Smooth α r) {c : Cursor} (hc : c.ahead ≠ []) (hf : (r c).faults = []) :
    (r c).output = (r c).written.map .copy := by
  have copies := (h c hc hf).2.2
  have all (os : List Output) (hos : ∀ o ∈ os, ∃ t, o = .copy t) : os = (writtenTokens os).map .copy := by
    induction os with
    | nil => rfl
    | cons o os ih =>
      obtain ⟨t, rfl⟩ := hos o List.mem_cons_self
      exact congrArg (.copy t :: ·) (ih fun o ho => hos o (List.mem_cons_of_mem _ ho))
  exact all _ copies

theorem Smooth.bind {r : Reader α} {f : α → Reader β} (hr : Smooth α r) (hf : ∀ a, Smooth β (f a)) :
    Smooth β (r >>= f) := by
  intro c hc faults
  cases hv : (r c).value with
  | none =>
    rw [faults_bind_of_none hv] at faults
    obtain ⟨⟨a, ha⟩, -⟩ := hr c hc faults
    rw [hv] at ha
    simp at ha
  | some a =>
    rw [faults_bind_of_some hv] at faults
    obtain ⟨first, second⟩ := List.append_eq_nil_iff.1 faults
    obtain ⟨-, stays, copies⟩ := hr c hc first
    obtain ⟨value, stays', copies'⟩ := hf a _ stays second
    rw [bind_apply_of_some hv, ← Cursor.skip_skip]
    exact ⟨value, stays', fun o ho => (List.mem_append.1 ho).elim (copies o) (copies' o)⟩

theorem smooth_pure (a : α) : Smooth α (pure a) :=
  fun _ hc _ => ⟨⟨a, rfl⟩, hc, fun _ ho => absurd ho List.not_mem_nil⟩

theorem faults_report_ne_nil (p : Problem) (c : Cursor) : (report p c).faults ≠ [] := by
  simp [report, Outcome.faults, Output.fault?]

theorem smooth_expect (kinds : List Token.Kind) (expected : String) : Smooth Bool (expect kinds expected) := by
  intro c _ faults
  obtain ⟨blanks, t, rest, meets, hk⟩ := exists_meets_of_expect faults
  have outcome : expect kinds expected c = _ := expect_apply meets hk
  rw [outcome, ahead_skip_of_drop_one meets.split]
  exact ⟨⟨true, rfl⟩, by simp, by simp⟩

theorem smooth_demandOneOf (kinds : List Token.Kind) (expected : String) :
    Smooth Unit (demandOneOf kinds expected) := by
  intro c _ faults
  obtain ⟨blanks, t, rest, meets, hk⟩ := exists_meets_of_demandOneOf faults
  have outcome : demandOneOf kinds expected c = _ := demandOneOf_apply meets hk
  rw [outcome, ahead_skip_of_drop_one meets.split]
  exact ⟨⟨(), rfl⟩, by simp, by simp⟩

section Collect

variable {stop : Token.Kind} {r : Reader α} {progress : ∀ c, 0 < (r c).steps} {c : Cursor}

theorem collectUntil_of_stop (h : c.nextKind = none ∨ c.nextKind = some stop) :
    collectUntil stop r progress c = ⟨some [], 0, []⟩ := by
  rw [collectUntil, dif_pos h]

theorem collectUntil_of_more (h : ¬ (c.nextKind = none ∨ c.nextKind = some stop)) :
    collectUntil stop r progress c =
      ⟨some ((r c).value.toList ++ (collectUntil stop r progress (c.skip (r c).steps)).value.getD []),
        (r c).steps + (collectUntil stop r progress (c.skip (r c).steps)).steps,
        (r c).output ++ (collectUntil stop r progress (c.skip (r c).steps)).output⟩ := by
  rw [collectUntil, dif_neg h]

end Collect

theorem smooth_collectUntil (stop : Token.Kind) {r : Reader α} (progress : ∀ c, 0 < (r c).steps) (hr : Smooth α r) :
    Smooth (List α) (collectUntil stop r progress) := by
  intro c hc faults
  induction c using collectUntil.induct stop r progress with
  | case1 c h =>
    rw [collectUntil_of_stop h]
    exact ⟨⟨[], rfl⟩, hc, fun _ ho => absurd ho List.not_mem_nil⟩
  | case2 c h _ ih =>
    rw [collectUntil_of_more h] at faults ⊢
    obtain ⟨first, more⟩ : (r c).faults = [] ∧ (collectUntil stop r progress (c.skip (r c).steps)).faults = [] :=
      List.append_eq_nil_iff.1 (List.filterMap_append.symm.trans faults)
    obtain ⟨-, stays, copies⟩ := hr c hc first
    obtain ⟨-, stays', copies'⟩ := ih stays more
    refine ⟨⟨_, rfl⟩, by simpa using stays', ?_⟩
    intro o ho
    exact (List.mem_append.1 ho).elim (copies o) (copies' o)

/-- **Where nothing is reported, nothing goes wrong.** -/
theorem writingLaw_smooth : WritingLaw Smooth where
  pure := smooth_pure
  bind := Smooth.bind
  here := fun c hc _ => ⟨⟨c, rfl⟩, hc, fun _ ho => absurd ho List.not_mem_nil⟩
  current := by
    intro c hc _
    obtain ⟨t, ts, ahead⟩ := List.exists_cons_of_ne_nil hc
    simp [current, ahead]
  report := fun p _ c _ faults => absurd faults (faults_report_ne_nil p c)
  refuse := by
    intro α p _ c _ faults
    rw [faults_bind_of_some (a := ()) rfl] at faults
    exact absurd (List.append_eq_nil_iff.1 faults).1 (faults_report_ne_nil p c)
  expect := smooth_expect
  demandOneOf := smooth_demandOneOf
  copy := by
    intro c hc _
    refine ⟨⟨(), rfl⟩, hc, fun o ho => ?_⟩
    obtain ⟨t, -, rfl⟩ := List.mem_map.1 ho
    exact ⟨t, rfl⟩
  collect := smooth_collectUntil

/-! ### Writing blanks -/

/-- What is not abandoned writes the blanks it passes. -/
def Silent (α : Type) (r : Reader α) : Prop :=
  ∀ (c : Cursor) (a : α), (r c).value = some a → (r c).written = ((r c).passed c).filter Token.isBlank

theorem Silent.bind {r : Reader α} {f : α → Reader β} (hr : Silent α r) (hf : ∀ a, Silent β (f a)) :
    Silent β (r >>= f) := by
  intro c b value
  obtain ⟨a, first, second⟩ := value_bind_eq_some_iff.1 value
  rw [written_bind_of_some first, passed_bind_of_some first, List.filter_append, hr c a first, hf a _ b second]

theorem silent_pure (a : α) : Silent α (pure a) :=
  fun _ _ _ => rfl

theorem silent_advance : Silent Unit advance := by
  intro c _ _
  have parts : (c.ahead.drop 1).takeWhile Token.isBlank ++ (c.ahead.drop 1).dropWhile Token.isBlank =
      c.ahead.drop 1 := List.takeWhile_append_dropWhile
  have blank : ∀ b ∈ (c.ahead.drop 1).takeWhile Token.isBlank, b.isBlank = true := fun b hb =>
    List.all_eq_true.1 List.all_takeWhile b hb
  have next := List.head?_dropWhile_not Token.isBlank (c.ahead.drop 1)
  simp only [Outcome.written, Outcome.passed, advance, writtenTokens_copy]
  generalize (c.ahead.drop 1).takeWhile Token.isBlank = blanks at parts blank
  generalize (c.ahead.drop 1).dropWhile Token.isBlank = left at parts next
  rw [← parts, Nat.add_comm, List.take_append, List.take_of_length_le (Nat.le_succ _), List.filter_append,
    List.filter_eq_self.2 blank, Nat.add_sub_cancel_left]
  cases left with
  | nil => simp
  | cons t rest =>
    have ht : t.isBlank = false := by simpa using next
    simp [ht]

theorem silent_abandon : Silent α abandon :=
  fun _ _ value => absurd value (by simp [abandon])

theorem silent_report (p : Problem) : Silent Unit (report p) :=
  fun _ _ _ => rfl

theorem silent_expect (kinds : List Token.Kind) (expected : String) : Silent Bool (expect kinds expected) := by
  refine silent_advance.bind fun _ => Silent.bind (fun c _ _ => rfl) fun c => ?_
  split
  · split
    · exact silent_pure true
    · exact (silent_report _).bind fun _ => silent_pure false
  · exact (silent_report _).bind fun _ => silent_pure false

/-- **Readers of values write blanks and nothing else.** -/
theorem law_silent : Law Silent where
  pure := silent_pure
  bind := Silent.bind
  here := fun _ _ _ => rfl
  current := by
    intro c t value
    cases ahead : c.ahead with
    | nil => simp [current, ahead] at value
    | cons t ts => simp [current, ahead, Outcome.written, Outcome.passed]
  report := fun p _ => silent_report p
  refuse := fun p _ => (silent_report p).bind fun _ => silent_abandon
  expect := silent_expect
  demandOneOf := by
    intro kinds expected
    refine (silent_expect kinds expected).bind fun found => ?_
    cases found with
    | true => exact silent_pure ()
    | false => exact silent_abandon

end Reader

end ShaderWeave
