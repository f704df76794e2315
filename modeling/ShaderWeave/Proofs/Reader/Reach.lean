import ShaderWeave.Proofs.Reader.InRange
import ShaderWeave.Proofs.Reader.Pairs

/-!
# Readers look no further than they go

A reader may look at the next token that is no blank before it decides what to do, but whatever it then does brings the
cursor to that token or beyond. So the outcome of reading a construct depends on no token behind the one on which
reading ends. Nor does it depend on the place of the tokens in their file, the mark of a template file apart.

`Cursor.Alike` says of two cursors that they look alike to a reader that goes so far: they share these tokens and one
more, or all tokens and the last line. `Reader.Near` says of a reader that it does the same from cursors that look
alike to it. The main result is `construct_alike`: constructs do.
-/

namespace ShaderWeave

variable {α β : Type}

/-- To a reader that moves over `n` tokens, two cursors look alike. -/
inductive Cursor.Alike (c c' : Cursor) (n : Nat) : Prop
  /-- The first tokens are the same, and there are more of them than `n`. -/
  | shared {raw rest rest' : List Token} (h : n < raw.length) (ahead : c.ahead = raw ++ rest)
    (ahead' : c'.ahead = raw ++ rest') : Alike c c' n
  /-- All tokens are the same, and so is the last line. -/
  | equal (ahead : c'.ahead = c.ahead) (lastLine : c'.lastLine = c.lastLine) : Alike c c' n

namespace Cursor.Alike

variable {c c' : Cursor} {m n : Nat}

theorem mono (h : c.Alike c' n) (hm : m ≤ n) : c.Alike c' m := by
  cases h with
  | shared h ahead ahead' => exact .shared (Nat.lt_of_le_of_lt hm h) ahead ahead'
  | equal ahead lastLine => exact .equal ahead lastLine

theorem skip (h : c.Alike c' (m + n)) : (c.skip m).Alike (c'.skip m) n := by
  cases h with
  | @shared raw rest rest' h ahead ahead' =>
    have more : n < (raw.drop m).length := by
      rw [List.length_drop]
      omega
    have after : (c.skip m).ahead = raw.drop m ++ rest := by
      rw [Cursor.ahead_skip, ahead, List.drop_append_of_le_length (by omega)]
    have after' : (c'.skip m).ahead = raw.drop m ++ rest' := by
      rw [Cursor.ahead_skip, ahead', List.drop_append_of_le_length (by omega)]
    exact .shared more after after'
  | equal ahead lastLine => exact .equal (by rw [Cursor.ahead_skip, Cursor.ahead_skip, ahead]) lastLine

/-- The same token is under cursors that look alike. -/
theorem head?_eq (h : c.Alike c' n) : c'.ahead.head? = c.ahead.head? := by
  cases h with
  | @shared raw rest rest' h ahead ahead' =>
    cases raw with
    | nil => exact absurd h (Nat.not_lt_zero n)
    | cons t raw => rw [ahead, ahead']; rfl
  | equal ahead _ => rw [ahead]

/-- Cursors that look alike are on one line. -/
theorem line_eq (h : c.Alike c' n) : c'.line = c.line := by
  cases h with
  | @shared raw rest rest' h ahead ahead' =>
    cases raw with
    | nil => exact absurd h (Nat.not_lt_zero n)
    | cons t raw => rw [Cursor.line, Cursor.line, ahead, ahead']; rfl
  | equal ahead lastLine => rw [Cursor.line, Cursor.line, ahead, lastLine]

end Cursor.Alike

/-- Tokens that come first are the same whatever follows, if not all tokens do. -/
theorem takeWhile_append_congr {p : Token → Bool} {ts us us' : List Token}
    (h : ((ts ++ us).takeWhile p).length < ts.length) : (ts ++ us').takeWhile p = (ts ++ us).takeWhile p := by
  have short : (ts.takeWhile p).length ≠ ts.length := by
    intro all
    rw [List.takeWhile_append, if_pos all, List.length_append] at h
    omega
  rw [List.takeWhile_append, List.takeWhile_append, if_neg short, if_neg short]

namespace Reader

/-! ### Looking ahead -/

section Ahead

variable {c c' : Cursor}

/-- The next semicolon is the same. -/
theorem abandon_alike (h : c.Alike c' ((abandon c : Outcome α).steps)) : (abandon c' : Outcome α) = abandon c := by
  cases h with
  | @shared raw rest rest' h ahead ahead' =>
    simp only [abandon, ahead] at h
    simp only [abandon, ahead, ahead']
    rw [takeWhile_append_congr h]
  | equal ahead lastLine => simp only [abandon, ahead]

/-- So are the blanks before the next token that is none. -/
theorem advance_alike (h : c.Alike c' (advance c).steps) : advance c' = advance c := by
  cases h with
  | @shared raw rest rest' h ahead ahead' =>
    cases raw with
    | nil => exact absurd h (Nat.not_lt_zero _)
    | cons t raw =>
      have short : ((raw ++ rest).takeWhile Token.isBlank).length < raw.length := by
        simp only [advance, ahead, List.cons_append, List.drop_one, List.tail_cons, List.length_cons] at h
        omega
      simp only [advance, ahead, ahead', List.cons_append, List.drop_one, List.tail_cons, takeWhile_append_congr short]
  | equal ahead lastLine => simp only [advance, ahead]

/-- So is the kind of that token. -/
theorem nextKind_alike (h : c.Alike c' (advance c).steps) : c'.nextKind = c.nextKind := by
  have moved : (c'.skip (advance c).steps).ahead.head? = (c.skip (advance c).steps).ahead.head? :=
    Cursor.Alike.head?_eq (n := 0) (Cursor.Alike.skip h)
  have sight := congrArg View.under (view_advance c)
  have sight' := congrArg View.under (view_advance c')
  rw [advance_alike h] at sight'
  rw [Cursor.nextKind_eq, Cursor.nextKind_eq]
  exact congrArg (Option.map Token.kind) (sight'.symm.trans (moved.trans sight))

end Ahead

section Collect

variable {stop : Token.Kind} {r : Reader α} {progress : ∀ c, 0 < (r c).steps}

variable (stop r progress) in
theorem exists_collectUntil_value (c : Cursor) : ∃ as, (collectUntil stop r progress c).value = some as := by
  rw [collectUntil]
  split
  · exact ⟨[], rfl⟩
  · exact ⟨_, rfl⟩

/-- What follows a reader that is repeated follows after the first time and all others. -/
theorem collectUntil_bind_of_more {c : Cursor} (h : ¬ (c.nextKind = none ∨ c.nextKind = some stop))
    (f : List α → Reader β) :
    (collectUntil stop r progress >>= f) c =
      let more := (collectUntil stop r progress >>= fun as => f ((r c).value.toList ++ as)) (c.skip (r c).steps)
      ⟨more.value, (r c).steps + more.steps, (r c).output ++ more.output⟩ := by
  obtain ⟨as, value⟩ := exists_collectUntil_value stop r progress (c.skip (r c).steps)
  have whole : (collectUntil stop r progress c).value = some ((r c).value.toList ++ as) := by
    rw [collectUntil_of_more h, value]
    rfl
  rw [bind_apply_of_some whole, bind_apply_of_some value, collectUntil_of_more h]
  simp [Nat.add_assoc]

end Collect

/-- From cursors that look alike to it, the reader does the same. -/
def Near (r : Reader α) : Prop :=
  ∀ c c' : Cursor, c.Alike c' (r c).steps → (∀ i, .misread i ∉ (r c).output) → r c' = r c

/-- The reader moves at least to the next token that is no blank. -/
def Moves (r : Reader α) : Prop :=
  ∀ c : Cursor, (advance c).steps ≤ (r c).steps

theorem Moves.bind {r : Reader α} (h : Moves r) (f : α → Reader β) : Moves (r >>= f) :=
  fun c => Nat.le_trans (h c) (steps_le_steps_bind r f c)

theorem moves_advance : Moves advance :=
  fun _ => Nat.le_refl _

theorem moves_expect (kinds : List Token.Kind) (expected : String) : Moves (expect kinds expected) :=
  moves_advance.bind _

theorem moves_demandOneOf (kinds : List Token.Kind) (expected : String) : Moves (demandOneOf kinds expected) :=
  (moves_expect kinds expected).bind _

namespace Near

variable {r : Reader α} {f : α → Reader β}

protected theorem pure (a : α) : Near (pure a) :=
  fun _ _ _ _ => rfl

/-- One reader after another looks no further than the second one. -/
protected theorem bind (hr : Near r) (hf : ∀ a, Near (f a)) : Near (r >>= f) := by
  intro c c' alike inRange
  cases hv : (r c).value with
  | none =>
    rw [bind_apply_of_none hv] at alike inRange ⊢
    have same := hr c c' alike inRange
    rw [bind_apply_of_none (by rw [same, hv]), same]
  | some a =>
    rw [bind_apply_of_some hv] at alike inRange ⊢
    have same := hr c c' (alike.mono (Nat.le_add_right _ _)) fun i hi => inRange i (List.mem_append_left _ hi)
    have next := hf a _ _ alike.skip fun i hi => inRange i (List.mem_append_right _ hi)
    rw [bind_apply_of_some (by rw [same, hv]), same, next]

protected theorem map (hr : Near r) (g : α → β) : Near (r >>= fun a => pure (g a)) :=
  hr.bind fun a => .pure (g a)

/-- A look at the kind of the next token is no look too far if the cursor then moves there. -/
theorem peek {f : Option Token.Kind → Reader β} (hf : ∀ k, Near (f k)) (moves : ∀ k, Moves (f k)) :
    Near (here >>= fun c => f c.nextKind) := by
  intro c c' alike inRange
  rw [here_bind_apply] at alike inRange ⊢
  rw [here_bind_apply, nextKind_alike (alike.mono (moves c.nextKind c))]
  exact hf c.nextKind c c' alike inRange

protected theorem current : Near current := by
  intro c c' alike inRange
  have under := alike.head?_eq
  cases ahead : c.ahead with
  | nil => simp [Reader.current, ahead] at inRange
  | cons t rest =>
    rw [ahead] at under
    obtain ⟨rest', ahead'⟩ := List.head?_eq_some_iff.1 under
    rw [current_apply ahead, current_apply ahead']

protected theorem copy : Near copy := by
  intro c c' alike _
  simp only [Reader.copy, alike.head?_eq]

protected theorem newline : Near newline := by
  intro c c' alike _
  simp only [Reader.newline, alike.line_eq]

protected theorem report (p : Problem) : Near (report p) := by
  intro c c' alike _
  simp only [Reader.report, alike.line_eq]

protected theorem abandon : Near (abandon : Reader α) :=
  fun _ _ alike _ => abandon_alike alike

protected theorem advance : Near advance :=
  fun _ _ alike _ => advance_alike alike

protected theorem expect (kinds : List Token.Kind) (expected : String) : Near (expect kinds expected) := by
  have reported (p : Problem) : Near (report p >>= fun _ => pure false) := .map (.report p) fun _ => false
  refine .bind .advance fun _ c c' alike inRange => ?_
  have under := alike.head?_eq
  rw [here_bind_apply] at alike inRange ⊢
  rw [here_bind_apply]
  cases ahead : c.ahead with
  | nil =>
    have ahead' : c'.ahead = [] := List.head?_eq_none_iff.1 (by rw [under, ahead]; rfl)
    simp only [ahead] at alike inRange ⊢
    simp only [ahead']
    exact reported _ c c' alike inRange
  | cons t rest =>
    obtain ⟨rest', ahead'⟩ := List.head?_eq_some_iff.1 (by rw [under, ahead]; rfl)
    simp only [ahead] at alike inRange ⊢
    simp only [ahead']
    by_cases hk : t.kind ∈ kinds
    · simp only [if_pos hk]
      rfl
    · simp only [if_neg hk] at alike inRange ⊢
      exact reported _ c c' alike inRange

protected theorem demandOneOf (kinds : List Token.Kind) (expected : String) : Near (demandOneOf kinds expected) := by
  refine .bind (.expect kinds expected) fun met => ?_
  cases met with
  | true => exact .pure ()
  | false => exact .abandon

protected theorem demand (kind : Token.Kind) (expected : String) : Near (demand kind expected) :=
  .demandOneOf [kind] expected

/-- Reading again and again and then on looks no further than it goes, if each time the cursor moves on. -/
theorem collectUntil_bind {stop : Token.Kind} {r : Reader α} {progress : ∀ c, 0 < (r c).steps} (hr : Near r)
    (moves : Moves r) (f : List α → Reader β) (hf : ∀ as, Near (f as)) (moves' : ∀ as, Moves (f as)) :
    Near (collectUntil stop r progress >>= f) := by
  intro c
  revert f
  induction c using collectUntil.induct stop r progress with
  | case1 c h =>
    intro f hf moves' c' alike inRange
    have one : (collectUntil stop r progress >>= f) c = f [] c := bind_apply_of_still (collectUntil_of_stop h)
    rw [one] at alike inRange ⊢
    have h' : c'.nextKind = none ∨ c'.nextKind = some stop := by
      rwa [nextKind_alike (alike.mono (moves' [] c))]
    rw [bind_apply_of_still (collectUntil_of_stop h')]
    exact hf [] c c' alike inRange
  | case2 c h _ ih =>
    intro f hf moves' c' alike inRange
    rw [collectUntil_bind_of_more h] at alike inRange ⊢
    have same : r c' = r c :=
      hr c c' (alike.mono (Nat.le_add_right _ _)) fun i hi => inRange i (List.mem_append_left _ hi)
    have h' : ¬ (c'.nextKind = none ∨ c'.nextKind = some stop) := by
      rwa [nextKind_alike (alike.mono (Nat.le_trans (moves c) (Nat.le_add_right _ _)))]
    have more := ih (fun as => f ((r c).value.toList ++ as)) (fun _ => hf _) (fun _ => moves' _) _ alike.skip
      fun i hi => inRange i (List.mem_append_right _ hi)
    rw [collectUntil_bind_of_more h', same, more]

/-! ### Values -/

theorem truthValue : Near truthValue := by
  refine .bind (.demand _ _) fun _ => .bind .current fun t => ?_
  split
  · exact .pure true
  · split
    · exact .pure false
    · exact .bind (.report _) fun _ => .pure false

theorem digits (form : NumberForm α) (negative : Bool) : Near (digits form negative) := by
  refine .bind (.demandOneOf _ _) fun _ => .bind .current fun t => ?_
  dsimp only
  split
  · exact .pure _
  · exact .bind (.report _) fun _ => .pure _

theorem number (form : NumberForm α) : Near (number form) := by
  have same : Reader.number form = here >>= fun c =>
      if form.signed ∧ c.nextKind = some .minus then
        Reader.expect [.minus] "a minus sign" >>= fun _ => Reader.digits form true
      else Reader.digits form false := by
    funext c
    rw [here_bind_apply]
    split
    · next h => exact number_apply_of_sign h.1 h.2
    · next h => exact number_apply_of_noSign h
  rw [same]
  refine peek (f := fun k => if form.signed ∧ k = some .minus then
    Reader.expect [.minus] "a minus sign" >>= fun _ => Reader.digits form true
    else Reader.digits form false) (fun k => ?_) fun k => ?_
  · split
    · exact .bind (.expect _ _) fun _ => digits form true
    · exact digits form false
  · split
    · exact (moves_expect _ _).bind _
    · exact (moves_demandOneOf _ _).bind _

theorem list {one : Reader α} (h : Near one) (n : Nat) : Near (list one n) := by
  induction n using Reader.list.induct with
  | case1 => exact .pure []
  | case2 => exact .map h fun a => [a]
  | case3 n ih => exact .bind h fun a => .bind (.demand _ _) fun _ => .map ih fun as => a :: as

theorem values (size : Nat) (element : Element) : Near (values size element) := by
  cases element with
  | boolean => exact .map (truthValue.list size) Values.boolean
  | integer => exact .map ((number .integer).list size) Values.integer
  | unsigned => exact .map ((number .unsigned).list size) Values.unsigned
  | single => exact .map ((number .single).list size) Values.single
  | double => exact .map ((number .double).list size) Values.double

theorem assignment (element : Element) (size : Nat) : Near (assignment element size) := by
  refine .bind (.demand _ _) fun _ => ?_
  split
  · exact values size element
  · exact .bind (.demand _ _) fun _ => .bind (values size element) fun vs => .map (.demand _ _) fun _ => vs

/-! ### Declarations -/

theorem ending (v : Variable) : Near (ending v) :=
  .bind (.demand _ _) fun _ => .map .copy fun _ => v

theorem typeWord (types : Structs) : Near (typeWord types) := by
  refine .bind (.demand _ _) fun _ => .bind (.bind .current fun t => ?_) fun type => .map .copy fun _ => type
  split
  · exact .pure _
  · exact .bind (.report _) fun _ => .abandon

theorem nameWord : Near nameWord :=
  .bind (.demand _ _) fun _ => .bind .current fun t => .map .copy fun _ => t.text

/-- An initializer may be absent, which is seen by looking ahead, but the semicolon may not. -/
theorem variableOf_ending (name : String) (type : VariableType) : Near (variableOf name type >>= Reader.ending) := by
  cases type with
  | values element size =>
    have same : variableOf name (.values element size) >>= Reader.ending =
        initialValues element size >>= fun vs => Reader.ending (.value name vs) := by
      simp only [variableOf, bind_assoc, pure_bind]
    rw [same, initialValues_bind]
    refine peek (f := fun k => if k = some .equals then Reader.assignment element size >>= fun vs =>
      Reader.ending (.value name vs) else Reader.ending (.value name (element.zeros size))) (fun k => ?_) fun k => ?_
    · split
      · exact .bind (assignment element size) fun vs => ending _
      · exact ending _
    · split
      · exact ((moves_demandOneOf _ _).bind _).bind _
      · exact (moves_demandOneOf _ _).bind _
  | group fields =>
    rw [variableOf, pure_bind]
    exact ending _

theorem declaration (types : Structs) : Near (declaration types) := by
  rw [declaration_eq]
  exact .bind (typeWord types) fun type => .bind nameWord fun name => variableOf_ending name type

/-! ### Constructs -/

theorem request (manner : Manner) (expected : String) : Near (request manner expected) := by
  refine .bind (.expect _ _) fun found => ?_
  cases found with
  | true => exact .map .current fun t => Action.request manner t.text t.line
  | false => exact .map .copy fun _ => Action.nothing

theorem structDefinition (types : Structs) : Near (structDefinition types) := by
  refine .bind .copy fun _ => .bind (.demand _ _) fun _ => .bind .current fun t => .bind .copy fun _ =>
    .bind (.demand _ _) fun _ => .bind .copy fun _ => ?_
  refine collectUntil_bind (declaration types) ((moves_demandOneOf _ _).bind _) _ (fun fields => ?_) fun fields =>
    (moves_demandOneOf _ _).bind _
  exact .bind (.demand _ _) fun _ => .bind .copy fun _ => .bind (.demand _ _) fun _ => .bind .copy fun _ =>
    .map .newline fun _ => Action.define t.text fields

theorem uniform (types : Structs) : Near (uniform types) :=
  .bind .copy fun _ => .map (declaration types) Action.declare

end Near

/-- What the mark of a template file reports: that it is not the first token, and that the file must not be one. -/
theorem templateMark_apply (standsAlone : Bool) (c : Cursor) : templateMark standsAlone c =
    ⟨some .nothing, 0, (if c.index ≠ 0 then [.problem .lateTemplateMark c.line] else []) ++
      if standsAlone then [.problem .unfilledTemplate c.line] else []⟩ := by
  rw [templateMark_eq, bind_apply_of_some (a := ()) rfl]
  cases standsAlone with
  | false => simp [lateMark, pure_apply]
  | true => simp [lateMark, pure_apply, bind_apply_of_some (r := report .unfilledTemplate) (a := ()) rfl, report]

/-- **The outcome of reading a construct depends on no token behind the one on which it ends.** Nor does it depend on
the place in the file, unless the construct is the mark of a template file. -/
theorem construct_alike {c c' : Cursor} {path : Path} {standsAlone : Bool} {types : Structs} (hc : c.ahead ≠ [])
    (alike : c.Alike c' (construct path standsAlone types c).steps)
    (first : ∀ t ∈ c.ahead.head?, t.role = .templateMark → (c'.index = 0 ↔ c.index = 0)) :
    construct path standsAlone types c' = construct path standsAlone types c := by
  obtain ⟨t, rest, ahead⟩ := List.exists_cons_of_ne_nil hc
  obtain ⟨rest', ahead'⟩ := List.head?_eq_some_iff.1 (alike.head?_eq.trans (congrArg List.head? ahead))
  have inRange := misread_notMem_construct path standsAlone types hc
  cases role : t.role with
  | inclusion =>
    rw [construct_of_inclusion ahead role] at alike inRange ⊢
    rw [construct_of_inclusion ahead' role, Near.request _ _ c c' alike inRange]
  | templateMark =>
    have first := first t (by rw [ahead]; rfl) role
    rw [construct_of_templateMark ahead role, construct_of_templateMark ahead' role, templateMark_apply,
      templateMark_apply]
    simp only [alike.line_eq, ne_eq, first]
  | vertexLink =>
    rw [construct_of_vertexLink ahead role] at alike inRange ⊢
    rw [construct_of_vertexLink ahead' role]
    have near : Near (if path.isFragment then request .linked "a file path after #vertex_shader"
        else report .linkOutsideFragment >>= fun _ => request .linked "a file path after #vertex_shader") := by
      split
      · exact Near.request _ _
      · exact .bind (.report _) fun _ => Near.request _ _
    exact near c c' alike inRange
  | structDefinition =>
    rw [construct_of_structDefinition ahead role] at alike inRange ⊢
    rw [construct_of_structDefinition ahead' role, Near.structDefinition _ c c' alike inRange]
  | uniform =>
    rw [construct_of_uniform ahead role] at alike inRange ⊢
    rw [construct_of_uniform ahead' role, Near.uniform _ c c' alike inRange]
  | plain => rw [construct_of_plain ahead role, construct_of_plain ahead' role]

end Reader

end ShaderWeave
