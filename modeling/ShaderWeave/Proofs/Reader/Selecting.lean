import ShaderWeave.Proofs.Reader.Reach
import ShaderWeave.Proofs.Reader.Reporting

/-!
# Readers write no token twice

A reader writes tokens that it passes, in their order and none of them twice. What has to be kept track of is the token
under the cursor: one reader may end on it and the next start from it, and only one of them may write it.
`Reader.Selects` tells of a reader whether it may start on a token that has been written, and whether it may have
written the token on which it ends. A reader that is abandoned has not, but what comes then starts behind that token.

The main result is `Reader.selection_construct`: a construct writes tokens from the one under the cursor to the one on
which it ends, and where it defines a struct type, the last of them is a semicolon and a newline comes after it.
-/

namespace ShaderWeave

variable {α β : Type}

namespace Cursor

/-- The tokens ahead from the one at `m` up to the one at `n`, which is left out. -/
def between (c : Cursor) (m n : Nat) : List Token :=
  (c.ahead.drop m).take (n - m)

variable {c : Cursor}

theorem between_append {l m n : Nat} (hl : l ≤ m) (hm : m ≤ n) : c.between l m ++ c.between m n = c.between l n := by
  have whole : n - l = (m - l) + (n - m) := by omega
  rw [between, between, between, whole, List.take_add, List.drop_drop, Nat.add_sub_cancel' hl]

theorem between_skip (k m n : Nat) : (c.skip k).between m n = c.between (k + m) (k + n) := by
  rw [between, between, ahead_skip, List.drop_drop, Nat.add_sub_add_left]

theorem between_sublist {l m n k : Nat} (hl : l ≤ m) (hm : m ≤ n) (hn : n ≤ k) :
    (c.between m n).Sublist (c.between l k) := by
  rw [← between_append hl (Nat.le_trans hm hn), ← between_append hm hn]
  exact (List.sublist_append_left _ _).trans (List.sublist_append_right _ _)

theorem between_zero (n : Nat) : c.between 0 n = c.ahead.take n := rfl

end Cursor

/-- The place behind the last token that a reader may have written. -/
def Outcome.reach (o : Outcome α) (after : Bool) : Nat :=
  o.steps + if o.value.isSome then after.toNat else 1

theorem Outcome.reach_true (o : Outcome α) : o.reach true = o.steps + 1 := by
  simp [reach]

namespace Reader

/-- The reader writes tokens that it passes, in their order and none of them twice. The token under the cursor is not
among them if it has been written `before`, and the one on which the reader ends may be if it is written `after`. -/
def Selects (before after : Bool) (α : Type) (r : Reader α) : Prop :=
  ∀ c : Cursor, before.toNat ≤ (r c).reach after ∧ (r c).written.Sublist (c.between before.toNat ((r c).reach after))

/-! ### Laws -/

section Laws

variable {a b m : Bool} {r : Reader α}

theorem Selects.bind {f : α → Reader β} (hr : Selects a m α r) (hf : ∀ x, Selects m b β (f x)) :
    Selects a b β (r >>= f) := by
  intro c
  obtain ⟨start, first⟩ := hr c
  cases hv : (r c).value with
  | none =>
    rw [bind_apply_of_none hv]
    simp only [Outcome.reach, hv] at start first ⊢
    exact ⟨start, first⟩
  | some x =>
    obtain ⟨between, second⟩ := hf x (c.skip (r c).steps)
    have written := written_bind_of_some (f := f) hv
    have reach : (r c).reach m = (r c).steps + m.toNat := by simp [Outcome.reach, hv]
    have whole : ((r >>= f) c).reach b = (r c).steps + (f x (c.skip (r c).steps)).reach b := by
      rw [bind_apply_of_some hv]
      simp [Outcome.reach, Nat.add_assoc]
    have further : (r c).reach m ≤ ((r >>= f) c).reach b := by
      rw [reach, whole]
      exact Nat.add_le_add_left between _
    rw [Cursor.between_skip, ← whole, ← reach] at second
    rw [written, ← Cursor.between_append start further]
    exact ⟨Nat.le_trans start further, first.append second⟩

/-- What may start on a token that has been written may start on one that has not. -/
theorem Selects.fresh (h : Selects true b α r) : Selects a b α r := by
  intro c
  obtain ⟨start, first⟩ := h c
  have low : a.toNat ≤ true.toNat := Bool.toNat_le a
  exact ⟨Nat.le_trans low start, first.trans (Cursor.between_sublist low start (Nat.le_refl _))⟩

/-- What has not written the token on which it ends may be taken to have. -/
theorem Selects.ended (h : Selects a false α r) : Selects a b α r := by
  intro c
  obtain ⟨start, first⟩ := h c
  have high : (r c).reach false ≤ (r c).reach b := by
    rw [Outcome.reach, Outcome.reach]
    exact Nat.add_le_add_left (by split <;> simp) _
  exact ⟨Nat.le_trans start high, first.trans (Cursor.between_sublist (Nat.le_refl _) start high)⟩

/-- A reader that writes nothing and stays. -/
theorem selects_of_still (h : ∀ c : Cursor, (r c).written = [] ∧ b.toNat ≤ (r c).reach b) : Selects b b α r :=
  fun c => ⟨(h c).2, (h c).1 ▸ List.nil_sublist _⟩

theorem selects_pure (x : α) : Selects b b α (pure x) :=
  selects_of_still fun _ => ⟨rfl, Nat.le_add_left _ _⟩

theorem Selects.map (hr : Selects a b α r) (g : α → β) : Selects a b β (r >>= fun x => pure (g x)) :=
  hr.bind fun x => selects_pure (g x)

theorem selects_here : Selects b b Cursor here :=
  selects_of_still fun _ => ⟨rfl, Nat.le_add_left _ _⟩

theorem selects_report (p : Problem) : Selects b b Unit (report p) :=
  selects_of_still fun _ => ⟨rfl, Nat.le_add_left _ _⟩

theorem selects_current : Selects b b Token current := by
  refine selects_of_still fun c => ?_
  cases h : c.ahead with
  | nil => simpa [current, h, Outcome.written, Output.written?, Outcome.reach] using Bool.toNat_le b
  | cons t ts => simp [current, h, Outcome.written, Outcome.reach]

theorem selects_copy : Selects false true Unit copy := by
  intro c
  refine ⟨Nat.zero_le _, ?_⟩
  have written : (copy c).written = c.ahead.take 1 := by
    cases h : c.ahead <;> simp [copy, h, Outcome.written, Output.written?]
  rw [written]
  exact List.Sublist.refl _

theorem selects_abandon : Selects a b α abandon := by
  intro c
  refine ⟨Nat.le_trans (Bool.toNat_le a) (Nat.le_add_left _ _), List.nil_sublist _⟩

theorem selects_advance : Selects a false Unit advance := by
  refine Selects.fresh fun c => ?_
  have reach : (advance c).reach false = 1 + ((c.ahead.drop 1).takeWhile Token.isBlank).length := rfl
  have written : (advance c).written = (c.ahead.drop 1).takeWhile Token.isBlank := writtenTokens_copy _
  have taken := List.prefix_iff_eq_take.1 (List.takeWhile_prefix (l := c.ahead.drop 1) Token.isBlank)
  rw [reach, written, Cursor.between, Bool.toNat_true, Nat.add_sub_cancel_left, ← taken]
  exact ⟨Nat.le_add_right _ _, List.Sublist.refl _⟩

theorem selects_expect (kinds : List Token.Kind) (expected : String) :
    Selects a false Bool (expect kinds expected) := by
  refine selects_advance.bind fun _ => selects_here.bind fun c => ?_
  split
  · split
    · exact selects_pure true
    · exact (selects_report _).bind fun _ => selects_pure false
  · exact (selects_report _).bind fun _ => selects_pure false

theorem selects_demandOneOf (kinds : List Token.Kind) (expected : String) :
    Selects a false Unit (demandOneOf kinds expected) := by
  refine (selects_expect kinds expected).bind fun found => ?_
  cases found with
  | true => exact selects_pure ()
  | false => exact selects_abandon

theorem selects_demand (kind : Token.Kind) (expected : String) : Selects a false Unit (demand kind expected) :=
  selects_demandOneOf [kind] expected

variable (b) in
/-- **Readers of values leave the token under the cursor as they find it**, written or not. -/
theorem law_selects : Law (Selects b b) where
  pure := selects_pure
  bind := Selects.bind
  here := selects_here
  current := selects_current
  report := fun p _ => selects_report p
  refuse := fun p _ => (selects_report (b := b) p).bind fun _ => selects_abandon
  expect := fun kinds expected => (selects_expect kinds expected).ended
  demandOneOf := fun kinds expected => (selects_demandOneOf kinds expected).ended

/-- A reader that is repeated starts behind the token on which it ended before, even if it was abandoned there. -/
theorem selects_collectUntil (stop : Token.Kind) (progress : ∀ c, 0 < (r c).steps) (hr : Selects true true α r) :
    Selects true true (List α) (collectUntil stop r progress) := by
  intro c
  induction c using collectUntil.induct stop r progress with
  | case1 c h =>
    rw [collectUntil_of_stop h]
    exact selects_pure [] c
  | case2 c h _ ih =>
    obtain ⟨-, first⟩ := hr c
    obtain ⟨-, more⟩ := ih
    rw [Outcome.reach_true] at first
    rw [Outcome.reach_true, Cursor.between_skip] at more
    have steps : (collectUntil stop r progress c).steps =
        (r c).steps + (collectUntil stop r progress (c.skip (r c).steps)).steps := by rw [collectUntil_of_more h]
    have written : (collectUntil stop r progress c).written =
        (r c).written ++ (collectUntil stop r progress (c.skip (r c).steps)).written := by
      rw [collectUntil_of_more h]
      exact writtenTokens_append _ _
    have parts : c.between 1 ((r c).steps + 1) ++ c.between ((r c).steps + 1)
        ((r c).steps + ((collectUntil stop r progress (c.skip (r c).steps)).steps + 1)) = _ :=
      Cursor.between_append (Nat.le_add_left _ _) (by omega)
    rw [Outcome.reach_true, written, steps, Nat.add_assoc]
    exact ⟨Nat.le_add_left 1 _, parts ▸ first.append more⟩

/-! ### Constructs -/

theorem selects_declaration (types : Structs) : Selects true true Variable (declaration types) :=
  (selects_demand _ _).bind fun _ => ((law_selects false).variableType types).bind fun type =>
    selects_copy.bind fun _ => (selects_demand _ _).bind fun _ => selects_current.bind fun t =>
    selects_copy.bind fun _ => ((law_selects true).variableOf t.text type).bind fun v =>
    (selects_demand _ _).bind fun _ => selects_copy.map fun _ => v

theorem selects_request (manner : Manner) (expected : String) :
    Selects false true Action (request manner expected) := by
  rw [request]
  refine (selects_expect _ _).bind fun found => ?_
  cases found with
  | true => exact (selects_current.map fun t => Action.request manner t.text t.line).ended
  | false => exact selects_copy.map fun _ => Action.nothing

theorem selects_uniform (types : Structs) : Selects false true Action (uniform types) :=
  selects_copy.bind fun _ => (selects_declaration types).map Action.declare

end Laws

theorem EndsOn.map {kind : Token.Kind} {r : Reader α} (hr : EndsOn kind r) (g : α → β) :
    EndsOn kind (r >>= fun a => pure (g a)) := by
  intro c b value
  obtain ⟨a, first, -⟩ := value_bind_eq_some_iff.1 value
  rw [bind_apply_of_some first]
  exact hr c a first

/-- Reads the definition of a struct type up to its semicolon. -/
def structHead (types : Structs) : Reader (String × List Variable) := do
  copy
  demand .keyword "a struct name"
  let name := (← current).text
  copy
  demand .openCurly "an opening curly brace"
  copy
  let fields ← structFields types
  demand .closeCurly "a closing curly brace"
  copy
  demand .semicolon "a semicolon"
  return (name, fields)

section Struct

variable {types : Structs} {c : Cursor} {body : String × List Variable}

variable (types) in
/-- The definition of a struct type ends with its semicolon and a newline. -/
theorem structDefinition_eq_head : structDefinition types = structHead types >>= fun body => copy >>= fun _ =>
    newline >>= fun _ => pure (.define body.1 body.2) := by
  rw [structDefinition_eq]
  simp only [structBody, structHead, bind_assoc, pure_value_bind]

variable (types) in
theorem selects_structHead : Selects false false (String × List Variable) (structHead types) :=
  selects_copy.bind fun _ => (selects_demand _ _).bind fun _ => selects_current.bind fun t => selects_copy.bind fun _ =>
    (selects_demand _ _).bind fun _ => selects_copy.bind fun _ =>
    (selects_collectUntil _ _ (selects_declaration types)).bind fun fields => (selects_demand _ _).bind fun _ =>
    selects_copy.bind fun _ => (selects_demand _ _).map fun _ => (t.text, fields)

theorem endsOn_structHead : EndsOn .semicolon (structHead types) :=
  .bind fun _ => .bind fun _ => .bind fun t => .bind fun _ => .bind fun _ => .bind fun _ => .bind fun fields =>
    .bind fun _ => .bind fun _ => (endsOn_demand .semicolon "a semicolon").map fun _ => (t.text, fields)

end Struct

end Reader

/-- The construct defines a struct type. -/
def Outcome.Defines (o : Outcome Action) : Prop :=
  ∃ name fields, o.value = some (.define name fields)

/-- What is written for a construct, where `picks` says which tokens are written of some that are passed. -/
inductive Selection (picks : List Token → List Token → Prop) (c : Cursor) (o : Outcome Action) : Prop
  /-- Tokens are written from the one under the cursor to the one on which the construct ends. -/
  | plain (hv : ¬ o.Defines) (written : picks o.written (c.between 0 (o.steps + 1)))
  /-- A struct type is defined. The last token is a semicolon, and a newline comes after it. -/
  | defined {front rest : List Token} {stop : Token} (hv : o.Defines)
    (ahead : (c.skip o.steps).ahead = stop :: rest) (hs : stop.kind = .semicolon)
    (picked : picks front (c.between 0 o.steps)) (written : o.written = front ++ [stop, Token.newline stop.line])

namespace Reader

variable {path : Path} {standsAlone : Bool} {types : Structs} {c : Cursor}

/-- A struct type is written up to its semicolon, and a newline after it. -/
theorem selection_structDefinition : Selection List.Sublist c (structDefinition types c) := by
  obtain ⟨-, front⟩ := selects_structHead types c
  rw [structDefinition_eq_head]
  cases value : (structHead types c).value with
  | none =>
    simp only [Outcome.reach, value] at front
    rw [bind_apply_of_none value]
    exact .plain (by simp [Outcome.Defines]) front
  | some body =>
    obtain ⟨stop, rest, ahead, hs⟩ := endsOn_structHead c body value
    have line : (c.skip (structHead types c).steps).line = stop.line := by
      rw [Cursor.line, ahead]
      rfl
    have last : (copy >>= fun _ => newline >>= fun _ => pure (.define body.1 body.2) : Reader Action)
        (c.skip (structHead types c).steps) =
        ⟨some (.define body.1 body.2), 0, [.copy stop, .newline stop.line]⟩ := by
      rw [bind_apply_of_some (a := ()) rfl, copy_apply ahead, ← line]
      rfl
    simp only [Outcome.reach, value] at front
    rw [bind_apply_of_some value, last]
    exact .defined ⟨_, _, rfl⟩ ahead hs front (writtenTokens_append _ _)

/-- What is asked for is no definition of a struct type. -/
def DefinesNothing (a : Action) (_ : Cursor) : Prop :=
  ∀ name fields, a ≠ .define name fields

theorem Selects.selection {r : Reader Action} (h : Selects false true Action r) (hv : EndsAt DefinesNothing r) :
    Selection List.Sublist c (r c) := by
  obtain ⟨-, written⟩ := h c
  rw [Outcome.reach_true] at written
  exact .plain (fun ⟨name, fields, value⟩ => hv c _ value name fields rfl) written

theorem definesNothing_request (manner : Manner) (expected : String) :
    EndsAt DefinesNothing (request manner expected) := by
  refine .after fun found => ?_
  cases found with
  | true => exact .after fun _ => endsAt_pure fun _ _ _ => by simp
  | false => exact .after fun _ => endsAt_pure fun _ _ _ => by simp

theorem definesNothing_templateMark : EndsAt DefinesNothing (templateMark standsAlone) := by
  intro c a value
  rw [templateMark_apply] at value
  obtain rfl : .nothing = a := Option.some.inj value
  exact fun _ _ => by simp

/-- **A construct writes tokens that it passes, in their order and none of them twice**, and a newline after the
definition of a struct type. -/
theorem selection_construct (hc : c.ahead ≠ []) :
    Selection List.Sublist c (construct path standsAlone types c) := by
  obtain ⟨t, rest, ahead⟩ := List.exists_cons_of_ne_nil hc
  cases role : t.role with
  | inclusion =>
    rw [construct_of_inclusion ahead role]
    exact (selects_request _ _).selection (definesNothing_request _ _)
  | templateMark =>
    rw [construct_of_templateMark ahead role]
    exact ((law_selects false).templateMark standsAlone).ended.selection definesNothing_templateMark
  | vertexLink =>
    rw [construct_of_vertexLink ahead role]
    split
    · exact (selects_request _ _).selection (definesNothing_request _ _)
    · exact ((selects_report _).bind fun _ => selects_request _ _).selection
        (.after fun _ => definesNothing_request _ _)
  | structDefinition =>
    rw [construct_of_structDefinition ahead role]
    exact selection_structDefinition
  | uniform =>
    rw [construct_of_uniform ahead role]
    exact (selects_uniform types).selection (.after fun _ => .after fun _ => endsAt_pure fun _ _ _ => by simp)
  | plain =>
    rw [construct_of_plain ahead role]
    exact .plain (by simp [Outcome.Defines]) (by rw [Cursor.between_zero, ahead]; exact List.Sublist.refl _)

end Reader

end ShaderWeave
