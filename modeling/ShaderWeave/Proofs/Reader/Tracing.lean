import ShaderWeave.Proofs.Reader.Writing

/-!
# Where written tokens come from

Readers write tokens that lie ahead of the cursor, and they write them in the order of their lines, for the cursor does
not move back. This is the law `Traced`. It is kept by whatever a file is made of, also where reading is abandoned, so
it holds of every construct (`traced_construct`).

The newline after the definition of a struct type is the one thing that is written and stands in no file. It comes from
the line of the semicolon that ends the definition. `Stems` puts the two cases together (`stems_construct`).
-/

namespace ShaderWeave

variable {α β : Type}

/-! ### Ordered tokens -/

/-- The tokens from the cursor on are in the order of their lines, and none is beyond the last line. -/
structure Cursor.Ordered (c : Cursor) : Prop where
  /-- No token is on a line before that of an earlier one. -/
  lines : (c.ahead.map Token.line).Pairwise (· ≤ ·)
  /-- The file ends on its last line. -/
  last : ∀ t ∈ c.ahead, t.line ≤ c.lastLine

namespace Cursor.Ordered

variable {c : Cursor}

theorem skip (h : c.Ordered) (n : Nat) : (c.skip n).Ordered where
  lines := by
    rw [Cursor.ahead_skip, List.map_drop]
    exact h.lines.sublist (List.drop_sublist _ _)
  last t ht := h.last t (List.mem_of_mem_drop ht)

/-- No token ahead is on a line before that of the cursor. -/
theorem line_le_of_mem (h : c.Ordered) {t : Token} (ht : t ∈ c.ahead) : c.line ≤ t.line := by
  cases ahead : c.ahead with
  | nil => simp [ahead] at ht
  | cons u us =>
    have line : c.line = u.line := by simp [Cursor.line, ahead]
    have lines := h.lines
    rw [ahead] at ht lines
    rcases List.mem_cons.1 ht with rfl | ht
    · exact Nat.le_of_eq line
    · rw [line]
      exact (List.pairwise_cons.1 lines).1 _ (List.mem_map_of_mem ht)

/-- No token that a cursor moves over is on a line after that on which it ends. -/
theorem line_le_of_mem_take (h : c.Ordered) {n : Nat} {t : Token} (ht : t ∈ c.ahead.take n) :
    t.line ≤ (c.skip n).line := by
  cases ahead : (c.skip n).ahead with
  | nil =>
    rw [Cursor.line, ahead]
    exact h.last t (List.mem_of_mem_take ht)
  | cons u us =>
    have lines := h.lines
    rw [← List.take_append_drop n c.ahead, ← Cursor.ahead_skip, ahead, List.map_append] at lines
    rw [Cursor.line, ahead]
    exact (List.pairwise_append.1 lines).2.2 _ (List.mem_map_of_mem ht) _ (by simp)

/-- A cursor does not move to an earlier line. -/
theorem line_le_skip (h : c.Ordered) (n : Nat) : c.line ≤ (c.skip n).line := by
  cases n with
  | zero => exact Nat.le_refl _
  | succ n =>
    cases ahead : c.ahead with
    | nil => simp [Cursor.line, ahead]
    | cons t ts =>
      have line : c.line = t.line := by simp [Cursor.line, ahead]
      rw [line]
      exact h.line_le_of_mem_take (by simp [ahead])

end Cursor.Ordered

/-! ### The law -/

/-- Lines in order, between those of a cursor before and after it moves over `n` tokens. -/
structure Cursor.Within (c : Cursor) (n : Nat) (ls : List Nat) : Prop where
  /-- They are in order. -/
  sorted : ls.Pairwise (· ≤ ·)
  /-- No line is out of reach. -/
  bounds : ∀ l ∈ ls, c.line ≤ l ∧ l ≤ (c.skip n).line

theorem Cursor.within_nil (c : Cursor) (n : Nat) : c.Within n [] := by
  constructor <;> simp

/-- Where a cursor moves on, further lines may follow. -/
theorem Cursor.Within.append {c : Cursor} {m n : Nat} {ls ls' : List Nat} (hc : c.Ordered) (h : c.Within m ls)
    (h' : (c.skip m).Within n ls') : c.Within (m + n) (ls ++ ls') where
  sorted := List.pairwise_append.2 ⟨h.sorted, h'.sorted, fun l hl l' hl' =>
    Nat.le_trans (h.bounds l hl).2 (h'.bounds l' hl').1⟩
  bounds l hl := by
    rw [← Cursor.skip_skip]
    rcases List.mem_append.1 hl with hl | hl
    · exact ⟨(h.bounds l hl).1, Nat.le_trans (h.bounds l hl).2 ((hc.skip m).line_le_skip n)⟩
    · exact ⟨Nat.le_trans (hc.line_le_skip m) (h'.bounds l hl).1, (h'.bounds l hl).2⟩

/-- The lines of the tokens that are written, in order. -/
def writtenLines (os : List Output) : List Nat :=
  (writtenTokens os).map Token.line

theorem writtenLines_append (os ps : List Output) : writtenLines (os ++ ps) = writtenLines os ++ writtenLines ps := by
  rw [writtenLines, writtenTokens_append, List.map_append]
  rfl

/-- What is put out while a cursor moves over `n` tokens: what is copied lies ahead, and all that is written comes from
lines between those of the cursor before and after, in order. -/
structure Cursor.Spans (c : Cursor) (n : Nat) (os : List Output) : Prop where
  /-- Tokens of the file are copied. -/
  copies : ∀ t, .copy t ∈ os → t ∈ c.ahead
  /-- They are written in the order of their lines. -/
  sorted : (writtenLines os).Pairwise (· ≤ ·)
  /-- No line is out of reach. -/
  bounds : ∀ l ∈ writtenLines os, c.line ≤ l ∧ l ≤ (c.skip n).line

namespace Cursor

variable {c : Cursor} {m n : Nat} {os ps : List Output}

theorem spans_of_writtenLines (h : ∀ t, .copy t ∉ os) (hw : writtenLines os = []) : c.Spans n os where
  copies t ht := absurd ht (h t)
  sorted := by simp [hw]
  bounds := by simp [hw]

theorem Spans.within (h : c.Spans n os) : c.Within n (writtenLines os) :=
  ⟨h.sorted, h.bounds⟩

theorem Spans.append (hc : c.Ordered) (h : c.Spans m os) (h' : (c.skip m).Spans n ps) :
    c.Spans (m + n) (os ++ ps) := by
  have lines := h.within.append hc h'.within
  rw [← writtenLines_append] at lines
  refine ⟨fun t ht => ?_, lines.sorted, lines.bounds⟩
  exact (List.mem_append.1 ht).elim (h.copies t) fun ht => List.mem_of_mem_drop (h'.copies t ht)

end Cursor

namespace Reader

/-- What the reader puts out lies between where it starts and where it ends. -/
def Traced (α : Type) (r : Reader α) : Prop :=
  ∀ c : Cursor, c.Ordered → c.Spans (r c).steps (r c).output

theorem Traced.bind {r : Reader α} {f : α → Reader β} (hr : Traced α r) (hf : ∀ a, Traced β (f a)) :
    Traced β (r >>= f) := by
  intro c hc
  cases hv : (r c).value with
  | none =>
    rw [bind_apply_of_none hv]
    exact hr c hc
  | some a =>
    rw [bind_apply_of_some hv]
    exact (hr c hc).append hc (hf a _ (hc.skip _))

/-- A reader that writes nothing has nothing to trace. -/
theorem traced_of_output_eq_nil {r : Reader α} (h : ∀ c, (r c).output = []) : Traced α r := by
  intro c _
  rw [h]
  exact Cursor.spans_of_writtenLines (fun _ => List.not_mem_nil) rfl

theorem traced_pure (a : α) : Traced α (pure a) :=
  traced_of_output_eq_nil fun _ => rfl

theorem traced_abandon : Traced α abandon :=
  traced_of_output_eq_nil fun _ => rfl

theorem traced_here : Traced Cursor here :=
  traced_of_output_eq_nil fun _ => rfl

theorem traced_report (p : Problem) : Traced Unit (report p) :=
  fun _ _ => Cursor.spans_of_writtenLines (fun _ => by simp [report]) rfl

theorem traced_current : Traced Token current := by
  intro c _
  cases h : c.ahead <;>
    exact Cursor.spans_of_writtenLines (by simp [current, h]) (by simp [current, h, writtenLines, Output.written?])

theorem traced_copy : Traced Unit copy := by
  intro c hc
  cases ahead : c.ahead with
  | nil => exact Cursor.spans_of_writtenLines (by simp [copy, ahead]) (by simp [copy, ahead, writtenLines])
  | cons t ts =>
    have line : c.line = t.line := by simp [Cursor.line, ahead]
    constructor <;> simp [copy, ahead, writtenLines, Output.written?, line]

theorem traced_newline : Traced Unit newline := by
  intro c hc
  constructor <;> simp [newline, writtenLines, Output.written?, Token.newline]

/-- The blanks that are copied lie between the cursor and where it ends. -/
theorem traced_advance : Traced Unit advance := by
  intro c hc
  have moved : c.ahead.take (advance c).steps = c.ahead.take 1 ++ (c.ahead.drop 1).takeWhile Token.isBlank := by
    rw [advance, List.take_add, ← List.prefix_iff_eq_take.1 (List.takeWhile_prefix Token.isBlank)]
  have taken {t : Token} (ht : t ∈ (c.ahead.drop 1).takeWhile Token.isBlank) : t ∈ c.ahead.take (advance c).steps := by
    rw [moved]
    exact List.mem_append_right _ ht
  have lines : writtenLines (advance c).output = ((c.ahead.drop 1).takeWhile Token.isBlank).map Token.line := by
    rw [writtenLines, advance, writtenTokens_copy]
  constructor
  · intro t ht
    obtain ⟨u, hu, heq⟩ := List.mem_map.1 ht
    obtain rfl : u = t := by simpa using heq
    exact List.mem_of_mem_take (taken hu)
  · rw [lines]
    exact hc.lines.sublist (((List.takeWhile_sublist _).trans (List.drop_sublist _ _)).map _)
  · intro l hl
    rw [lines] at hl
    obtain ⟨t, ht, rfl⟩ := List.mem_map.1 hl
    exact ⟨hc.line_le_of_mem (List.mem_of_mem_take (taken ht)), hc.line_le_of_mem_take (taken ht)⟩

theorem traced_expect (kinds : List Token.Kind) (expected : String) : Traced Bool (expect kinds expected) := by
  refine traced_advance.bind fun _ => traced_here.bind fun c => ?_
  split
  · split
    · exact traced_pure true
    · exact (traced_report _).bind fun _ => traced_pure false
  · exact (traced_report _).bind fun _ => traced_pure false

theorem traced_demandOneOf (kinds : List Token.Kind) (expected : String) :
    Traced Unit (demandOneOf kinds expected) := by
  refine (traced_expect kinds expected).bind fun found => ?_
  cases found with
  | true => exact traced_pure ()
  | false => exact traced_abandon

theorem traced_collectUntil (stop : Token.Kind) {r : Reader α} (progress : ∀ c, 0 < (r c).steps) (hr : Traced α r) :
    Traced (List α) (collectUntil stop r progress) := by
  intro c hc
  induction c using collectUntil.induct stop r progress with
  | case1 c h =>
    rw [collectUntil_of_stop h]
    exact Cursor.spans_of_writtenLines (fun _ => List.not_mem_nil) rfl
  | case2 c h _ ih =>
    rw [collectUntil_of_more h]
    exact (hr c hc).append hc (ih (hc.skip _))

/-- **What is written lies ahead, and in the order of its lines.** -/
theorem writingLaw_traced : WritingLaw Traced where
  pure := traced_pure
  bind := Traced.bind
  here := traced_here
  current := traced_current
  report := fun p _ => traced_report p
  refuse := fun p _ => (traced_report p).bind fun _ => traced_abandon
  expect := traced_expect
  demandOneOf := traced_demandOneOf
  copy := traced_copy
  collect := traced_collectUntil

/-! ### Newlines that are added -/

/-- The reader adds no newline. -/
def Unbroken (α : Type) (r : Reader α) : Prop :=
  ∀ (c : Cursor) (line : Nat), .newline line ∉ (r c).output

theorem Unbroken.bind {r : Reader α} {f : α → Reader β} (hr : Unbroken α r) (hf : ∀ a, Unbroken β (f a)) :
    Unbroken β (r >>= f) := by
  intro c line
  cases hv : (r c).value with
  | none =>
    rw [bind_apply_of_none hv]
    exact hr c line
  | some a =>
    rw [bind_apply_of_some hv]
    exact fun hm => (List.mem_append.1 hm).elim (hr c line) (hf a _ line)

theorem unbroken_expect (kinds : List Token.Kind) (expected : String) : Unbroken Bool (expect kinds expected) := by
  have pure (b : Bool) : Unbroken Bool (pure b) := fun _ _ => List.not_mem_nil
  have report (p : Problem) : Unbroken Unit (report p) := fun _ _ => by simp [Reader.report]
  have advance : Unbroken Unit advance := fun c _ => by simp [Reader.advance]
  refine advance.bind fun _ => Unbroken.bind (fun _ _ => List.not_mem_nil) fun c => ?_
  split
  · split
    · exact pure true
    · exact (report _).bind fun _ => pure false
  · exact (report _).bind fun _ => pure false

/-- **Only the definition of a struct type adds a newline.** -/
theorem writingLaw_unbroken : WritingLaw Unbroken where
  pure := fun _ _ _ => List.not_mem_nil
  bind := Unbroken.bind
  here := fun _ _ => List.not_mem_nil
  current := fun c _ => by cases h : c.ahead <;> simp [current, h]
  report := fun _ _ _ _ => by simp [report]
  refuse := fun _ _ => Unbroken.bind (fun _ _ => by simp [report]) fun _ _ _ => List.not_mem_nil
  expect := unbroken_expect
  demandOneOf := fun kinds expected => (unbroken_expect kinds expected).bind fun found => by
    cases found <;> exact fun _ _ => List.not_mem_nil
  copy := fun c _ => by simp [copy]
  collect := by
    intro α stop r progress hr c line
    induction c using collectUntil.induct stop r progress with
    | case1 c h =>
      rw [collectUntil_of_stop h]
      exact List.not_mem_nil
    | case2 c h _ ih =>
      rw [collectUntil_of_more h]
      exact fun hm => (List.mem_append.1 hm).elim (hr c line) ih

/-! ### Where definitions end -/

/-- Unless it is abandoned, the reader ends on a token of the kind. -/
def EndsOn (kind : Token.Kind) (r : Reader α) : Prop :=
  ∀ (c : Cursor) (a : α), (r c).value = some a → ∃ t rest, (c.skip (r c).steps).ahead = t :: rest ∧ t.kind = kind

theorem EndsOn.bind {kind : Token.Kind} {r : Reader α} {f : α → Reader β} (hf : ∀ a, EndsOn kind (f a)) :
    EndsOn kind (r >>= f) := by
  intro c b value
  obtain ⟨a, first, second⟩ := value_bind_eq_some_iff.1 value
  rw [bind_apply_of_some first, ← Cursor.skip_skip]
  exact hf a _ b second

/-- What is made of a value does not move the cursor. -/
theorem EndsOn.copy_pure {kind : Token.Kind} {r : Reader α} (hr : EndsOn kind r) (b : β) :
    EndsOn kind (r >>= fun _ => copy >>= fun _ => pure b) := by
  intro c b value
  obtain ⟨a, first, -⟩ := value_bind_eq_some_iff.1 value
  obtain ⟨t, rest, ahead, hk⟩ := hr c a first
  rw [bind_apply_of_some first]
  exact ⟨t, rest, ahead, hk⟩

theorem endsOn_demand (kind : Token.Kind) (expected : String) : EndsOn kind (demand kind expected) := by
  intro c _ value
  have refused (off : Option Token) (us : List Token) (h : ∀ t ∈ off, t.kind ∉ [kind]) (he : off = none → us = [])
      (hv : c.view.upcoming = off.toList ++ us) : False := by
    obtain ⟨_, -, none, -⟩ := refuses_demandOneOf h c.view.under he c (by rw [← hv])
    rw [demand, none] at value
    simp at value
  cases upcoming : c.view.upcoming with
  | nil => exact (refused none [] (by simp) (by simp) (by simp [upcoming])).elim
  | cons t us =>
    by_cases hk : t.kind = kind
    · obtain ⟨-, -, sight⟩ := takes_demandOneOf (List.mem_singleton.2 hk) c.view.under us c (by rw [← upcoming])
      obtain ⟨rest, ahead⟩ := List.head?_eq_some_iff.1 (congrArg View.under sight)
      exact ⟨t, rest, ahead, hk⟩
    · exact (refused (some t) us (by simpa using hk) (by simp) (by simp [upcoming])).elim

/-- The definition of a struct type ends on its semicolon. -/
theorem endsOn_structBody (types : Structs) : EndsOn .semicolon (structBody types) :=
  .bind fun _ => .bind fun _ => .bind fun t => .bind fun _ => .bind fun _ => .bind fun _ => .bind fun fields =>
    .bind fun _ => .bind fun _ => (endsOn_demand .semicolon "a semicolon").copy_pure (t.text, fields)

end Reader

/-! ### Constructs -/

/-- What is written for a file from the cursor on: tokens that lie ahead, and newlines after definitions of struct
types. -/
inductive Stems (c : Cursor) : Output → Prop
  /-- A token that lies ahead is copied. -/
  | token {t : Token} (h : t ∈ c.ahead) : Stems c (.copy t)
  /-- Further on, a struct type is defined up to a semicolon. The newline comes from the line of the semicolon. -/
  | newline {n : Nat} {types : Structs} {first stop : Token} {rest : List Token} {name : String}
    {fields : List Variable} (hf : (c.skip n).ahead.head? = some first) (hr : first.role = .structDefinition)
    (hv : (Reader.structDefinition types (c.skip n)).value = some (.define name fields))
    (hs : ((c.skip n).skip (Reader.structDefinition types (c.skip n)).steps).ahead = stop :: rest)
    (hk : stop.kind = .semicolon) : Stems c (.newline stop.line)

/-- What is written from a place further on is written from here on. -/
theorem Stems.of_skip {c : Cursor} {m : Nat} {o : Output} (h : Stems (c.skip m) o) : Stems c o := by
  cases h with
  | token h => exact .token (List.mem_of_mem_drop h)
  | newline hf hr hv hs hk =>
    rw [Cursor.skip_skip c] at hf hv hs
    exact .newline hf hr hv hs hk

namespace Reader

variable {path : Path} {standsAlone : Bool} {types : Structs}

theorem traced_construct : Traced Action (construct path standsAlone types) :=
  writingLaw_traced.construct traced_newline path standsAlone types

/-- A newline that the definition of a struct type adds comes from the line of its semicolon. -/
theorem stems_structDefinition {c : Cursor} {t : Token} (ht : c.ahead.head? = some t)
    (hr : t.role = .structDefinition) {line : Nat} (hm : .newline line ∈ (structDefinition types c).output) :
    Stems c (.newline line) := by
  cases value : (structBody types c).value with
  | none =>
    rw [structDefinition_eq, bind_apply_of_none value] at hm
    exact absurd hm (writingLaw_unbroken.structBody types c line)
  | some body =>
    have outcome : structDefinition types c = ⟨some (.define body.1 body.2), (structBody types c).steps,
        (structBody types c).output ++ [.newline (c.skip (structBody types c).steps).line]⟩ := by
      rw [structDefinition_eq, bind_apply_of_some value]
      rfl
    obtain ⟨stop, rest, ahead, hk⟩ := endsOn_structBody types c body value
    rw [outcome] at hm
    obtain rfl : line = stop.line := by
      rcases List.mem_append.1 hm with hm | hm
      · exact absurd hm (writingLaw_unbroken.structBody types c line)
      · rw [Cursor.line, ahead] at hm
        simpa using hm
    exact .newline (n := 0) ht hr (by rw [Cursor.skip_zero, outcome])
      (by rw [Cursor.skip_zero, outcome]; exact ahead) hk

/-- **What a construct writes are tokens that lie ahead, and a newline after the definition of a struct type.** -/
theorem stems_construct {c : Cursor} (hc : c.Ordered) {o : Output}
    (hm : o ∈ (construct path standsAlone types c).output) (hw : o.written? ≠ none) : Stems c o := by
  cases o with
  | copy t => exact .token ((traced_construct c hc).copies t hm)
  | problem p line => exact absurd rfl hw
  | misread index => exact absurd rfl hw
  | newline line =>
    have law := writingLaw_unbroken
    cases ahead : c.ahead with
    | nil =>
      have value : (current c).value = none := by simp [current, ahead]
      rw [construct, bind_apply_of_none value] at hm
      exact absurd hm (law.current c line)
    | cons t rest =>
      cases hr : t.role with
      | structDefinition =>
        rw [construct_of_structDefinition ahead hr] at hm
        exact stems_structDefinition (by rw [ahead]; rfl) hr hm
      | plain =>
        rw [construct_of_plain ahead hr] at hm
        simp at hm
      | uniform =>
        rw [construct_of_uniform ahead hr] at hm
        exact absurd hm (law.uniform types c line)
      | inclusion =>
        rw [construct_of_inclusion ahead hr] at hm
        exact absurd hm (law.request _ _ c line)
      | templateMark =>
        rw [construct_of_templateMark ahead hr] at hm
        exact absurd hm (law.toLaw.templateMark standsAlone c line)
      | vertexLink =>
        rw [construct_of_vertexLink ahead hr] at hm
        split at hm
        · exact absurd hm (law.request _ _ c line)
        · exact absurd hm (law.bind (law.report _ rfl) (fun _ => law.request _ _) c line)

end Reader

end ShaderWeave
