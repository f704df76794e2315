import ShaderWeave.Proofs.Declaration.Initializers
import ShaderWeave.Proofs.Expansion.Linking
import ShaderWeave.Proofs.Expansion.Placement
import ShaderWeave.Proofs.Expansion.Recovery
import ShaderWeave.Proofs.Reader.Requests
import ShaderWeave.Proofs.Reader.Selecting

/-!
# The woven text selects tokens

Tokens are put out in many places, each next to the cursor that moves on. Nevertheless the woven text of a file that
includes no other file is a selection of its tokens: each is written once or not at all, in the order of the file, and
the only addition is a newline where the definition of a struct type is completed (`expandFile_selects`). This holds
whatever is wrong with the declarations and links of the file. If nothing is, the tokens that are not selected are those
that are left out (`LeftOut`).

What is selected for a construct lies between where it starts and where it ends, so the selections of constructs follow
one another (`FileContext.Emits.cons`). For a construct without a problem the selection is told by the tokens alone
(`Reader.leaves_construct`).
-/

namespace ShaderWeave

variable {σ : Type}

/-! ### Selected tokens -/

open Classical in
/-- Selected tokens, each with its position, as they are written where definitions of struct types end on some of the
positions: a newline comes after them. -/
noncomputable def withBreaks (ends : Nat → Prop) (sel : List (Token × Nat)) : List Token :=
  sel.flatMap fun x => x.1 :: if ends x.2 then [Token.newline x.1.line] else []

section Breaks

variable {ends ends' : Nat → Prop} {sel sel' : List (Token × Nat)}

theorem withBreaks_append : withBreaks ends (sel ++ sel') = withBreaks ends sel ++ withBreaks ends sel' :=
  List.flatMap_append

theorem withBreaks_congr (h : ∀ x ∈ sel, ends x.2 ↔ ends' x.2) : withBreaks ends sel = withBreaks ends' sel :=
  List.flatMap_congr fun x hx => by rw [propext (h x hx)]

theorem withBreaks_of_none (h : ∀ x ∈ sel, ¬ ends x.2) : withBreaks ends sel = sel.map Prod.fst := by
  rw [List.map_eq_flatMap]
  exact List.flatMap_congr fun x hx => by rw [if_neg (h x hx)]

end Breaks

theorem zipIdx_eq_append {α : Type} (l : List α) (i n : Nat) :
    l.zipIdx i = (l.take n).zipIdx i ++ (l.drop n).zipIdx (i + n) := by
  have parts : l.zipIdx i = (l.take n ++ l.drop n).zipIdx i := by rw [List.take_append_drop]
  rw [parts, List.zipIdx_append]
  by_cases h : n ≤ l.length
  · rw [List.length_take_of_le h]
  · rw [List.drop_eq_nil_of_le (by omega), List.zipIdx_nil, List.zipIdx_nil]

namespace Cursor

variable {c : Cursor} {n : Nat}

/-- Tokens ahead with their positions. -/
def numbered (c : Cursor) (n : Nat) : List (Token × Nat) :=
  (c.between 0 n).zipIdx c.index

theorem numbered_succ {t : Token} {rest : List Token} (ahead : (c.skip n).ahead = t :: rest) :
    c.numbered (n + 1) = c.numbered n ++ [(t, c.index + n)] := by
  have last : (c.between 0 (n + 1)).drop n = [t] := by
    rw [between_zero, List.drop_take, ← ahead_skip, ahead, Nat.add_sub_cancel_left]
    rfl
  have front : (c.between 0 (n + 1)).take n = c.between 0 n := by
    rw [between_zero, between_zero, List.take_take, Nat.min_eq_left (Nat.le_succ n)]
  rw [numbered, zipIdx_eq_append _ _ n, last, front]
  rfl

theorem bounds_of_mem_numbered {x : Token × Nat} (h : x ∈ c.numbered n) : c.index ≤ x.2 ∧ x.2 < c.index + n := by
  obtain ⟨low, high, -⟩ := List.mem_zipIdx h
  have length : (c.between 0 n).length ≤ n := List.length_take_le _ _
  exact ⟨low, by omega⟩

end Cursor

/-- What is written for a construct are the selected tokens, with a newline where the definition of a struct type
ends. -/
structure Outcome.Emits (c : Cursor) (o : Outcome Action) (sel : List (Token × Nat)) : Prop where
  /-- They are selected from those that the construct passes. -/
  sublist : sel.Sublist (c.numbered (o.steps + 1))
  /-- They are written. -/
  written : o.written = withBreaks (fun p => o.Defines ∧ p = c.index + o.steps) sel
  /-- A definition ends on a semicolon. -/
  stop : o.Defines → ∃ stop : Token, stop.kind = .semicolon ∧ (stop, c.index + o.steps) ∈ sel

section Emits

variable {c : Cursor} {o : Outcome Action} {sel : List (Token × Nat)}

theorem emits_of_not_defines (hv : ¬ o.Defines) (sub : sel.Sublist (c.numbered (o.steps + 1)))
    (written : o.written = sel.map Prod.fst) : o.Emits c sel where
  sublist := sub
  written := by rw [written, withBreaks_of_none fun _ _ h => hv h.1]
  stop := fun h => absurd h hv

theorem emits_of_defines {stop : Token} {rest : List Token} (hv : o.Defines)
    (ahead : (c.skip o.steps).ahead = stop :: rest) (hs : stop.kind = .semicolon)
    (sub : sel.Sublist (c.numbered o.steps))
    (written : o.written = sel.map Prod.fst ++ [stop, Token.newline stop.line]) :
    o.Emits c (sel ++ [(stop, c.index + o.steps)]) where
  sublist := by
    rw [Cursor.numbered_succ ahead]
    exact sub.append (List.Sublist.refl _)
  written := by
    have before : withBreaks (fun p => o.Defines ∧ p = c.index + o.steps) sel = sel.map Prod.fst := by
      refine withBreaks_of_none fun x hx ends => ?_
      have bound := (Cursor.bounds_of_mem_numbered (sub.mem hx)).2
      rw [ends.2] at bound
      exact Nat.lt_irrefl _ bound
    rw [written, withBreaks_append, before]
    simp [withBreaks, hv]
  stop := fun _ => ⟨stop, hs, by simp⟩

/-- What is written for a construct is selected. -/
theorem Selection.exists_emits (h : Selection List.Sublist c o) : ∃ sel, o.Emits c sel := by
  have numbered (n : Nat) {ts : List Token} (sub : ts.Sublist (c.between 0 n)) :
      ∃ sel : List (Token × Nat), sel.Sublist (c.numbered n) ∧ ts = sel.map Prod.fst := by
    refine List.sublist_map_iff.1 ?_
    rwa [Cursor.numbered, List.zipIdx_map_fst]
  cases h with
  | plain hv written =>
    obtain ⟨sel, sub, same⟩ := numbered _ written
    exact ⟨sel, emits_of_not_defines hv sub same⟩
  | defined hv ahead hs picked written =>
    obtain ⟨sel, sub, rfl⟩ := numbered _ picked
    exact ⟨_, emits_of_defines hv ahead hs sub written⟩

end Emits

/-! ### Constructs without a problem -/

/-- What a construct writes is what remains of the tokens that it passes, and nothing of it matters to what comes
next. -/
structure Outcome.Leaves (before : List Token) (c : Cursor) (o : Outcome Action) : Prop where
  /-- Tokens remain, and a newline comes after the definition of a struct type. -/
  selection : Selection (fun written passed => written = remaining before passed) c o
  /-- No heading and no link goes on behind the construct. -/
  closed : Closed (significant (c.between 0 (o.steps + 1)))

section Leaves

variable {before raw rest : List Token} {c : Cursor} {o : Outcome Action}

theorem Cursor.between_zero_of_ahead {n : Nat} (split : c.ahead = raw ++ rest) (hn : raw.length = n) :
    c.between 0 n = raw := by
  rw [between_zero, split, List.take_left' hn]

theorem leaves_of_not_defines (split : c.ahead = raw ++ rest) (hn : raw.length = o.steps + 1) (hv : ¬ o.Defines)
    (h : remaining before raw = o.written ∧ Closed (significant raw)) : o.Leaves before c := by
  have passed := Cursor.between_zero_of_ahead split hn
  exact ⟨.plain hv (by rw [passed, h.1]), by rw [passed]; exact h.2⟩

namespace Reader

variable {path : Path} {standsAlone : Bool} {types : Structs}

/-- A construct that asks for no other file writes what remains of its tokens if it is no problem. -/
theorem leaves_of_excerpt {action : Action} {out : List Output} (closed : Closed before)
    (split : c.ahead = raw ++ rest) (h : Excerpt types raw action out) :
    (construct path standsAlone types c).Leaves before c := by
  have outcome : construct path standsAlone types c = ⟨some action, raw.length - 1, out⟩ :=
    construct_of_excerpt h split
  have length : raw.length = (construct path standsAlone types c).steps + 1 := by
    rw [outcome]
    exact (Nat.sub_add_cancel (List.length_pos_iff.2 h.ne_nil)).symm
  cases h with
  | plain hr =>
    refine leaves_of_not_defines split length (by simp [outcome, Outcome.Defines]) ?_
    rw [outcome]
    exact remaining_plain closed hr
  | uniform hr hs phrase =>
    refine leaves_of_not_defines split length (by simp [outcome, Outcome.Defines]) ?_
    rw [outcome, Outcome.written, writtenTokens_copy]
    exact remaining_uniform closed.settled hr hs phrase
  | @struct t stop raw kept name fields hr definition =>
    obtain ⟨remains, closed'⟩ := remaining_definition closed.settled hr definition
    obtain ⟨us, rfl⟩ := definition.exists_append
    have steps : (construct path standsAlone types c).steps = (t :: us).length := by simp [outcome]
    have split' : c.ahead = (t :: us) ++ (stop :: rest) := by simp [split]
    have ahead : (c.skip (t :: us).length).ahead = stop :: rest := by
      rw [Cursor.ahead_skip, split', List.drop_left]
    have written : (construct path standsAlone types c).written =
        remaining before (t :: us) ++ [stop, Token.newline stop.line] := by
      rw [← List.cons_append, remaining_append, remaining_semicolon definition.semicolon] at remains
      rw [outcome, Outcome.written, writtenTokens_append, writtenTokens_copy, ← remains, List.append_assoc]
      rfl
    refine ⟨.defined ⟨name, fields, by rw [outcome]⟩ (steps ▸ ahead) definition.semicolon ?_ written, ?_⟩
    · rw [steps, Cursor.between_zero_of_ahead split' rfl]
    · rw [← length, Cursor.between_zero_of_ahead split rfl]
      exact closed'

/-- **A construct that is no problem writes what remains of its tokens.** -/
theorem leaves_construct {t : Token} (closed : Closed before) (ahead : c.ahead = t :: rest)
    (truthful : ∀ t ∈ c.ahead, t.Truthful) (hi : t.role ≠ .inclusion)
    (hf : (construct path standsAlone types c).faults = []) :
    (construct path standsAlone types c).Leaves before c := by
  by_cases own : t.IsOwn
  · obtain ⟨raw, rest', action, out, split, excerpt⟩ := exists_excerpt ahead truthful own hf
    exact leaves_of_excerpt closed split excerpt
  · cases role : t.role with
    | inclusion => exact absurd role hi
    | plain => exact absurd (.inl role) own
    | structDefinition => exact absurd (.inr (.inl role)) own
    | uniform => exact absurd (.inr (.inr role)) own
    | templateMark =>
      rw [construct_of_templateMark ahead role] at hf ⊢
      obtain ⟨zero, rfl⟩ := zero_of_faults_templateMark hf
      rw [templateMark_of_zero zero]
      have split : c.ahead = [t] ++ rest := ahead
      exact leaves_of_not_defines split rfl (by simp [Outcome.Defines]) (remaining_mark role)
    | vertexLink =>
      rw [construct_of_vertexLink ahead role] at hf ⊢
      cases fragment : path.isFragment with
      | false =>
        rw [fragment] at hf
        exact absurd (faults_of_faults_bind hf) (faults_report_ne_nil _ _)
      | true =>
        rw [fragment] at hf
        obtain ⟨blanks, s, left, meets, string⟩ := exists_meets_of_request hf
        have split : c.ahead = (t :: (blanks ++ [s])) ++ left := by
          have after := meets.split
          rw [ahead, List.drop_one, List.tail_cons] at after
          simp [ahead, after]
        have outcome : request .linked "a file path after #vertex_shader" c = _ := request_apply meets string
        rw [if_pos rfl, outcome]
        refine leaves_of_not_defines split (by simp) (by simp [Outcome.Defines]) ?_
        rw [Outcome.written, writtenTokens_copy]
        exact remaining_link role meets.blanks string

end Reader

end Leaves

/-! ### Positions that are kept -/

open Classical in
/-- The tokens at positions in a file that are not left out. -/
noncomputable def keptOf (ts : List Token) (xs : List (Token × Nat)) : List (Token × Nat) :=
  xs.filter fun x => ¬ LeftOut (significant (ts.take x.2)) x.1

theorem keptOf_append (ts : List Token) (xs ys : List (Token × Nat)) :
    keptOf ts (xs ++ ys) = keptOf ts xs ++ keptOf ts ys :=
  List.filter_append xs ys

/-- What is kept is what remains after the tokens before. -/
theorem map_fst_keptOf {ts raw rest : List Token} {i : Nat} (h : ts.drop i = raw ++ rest) :
    (keptOf ts (raw.zipIdx i)).map Prod.fst = remaining (significant (ts.take i)) raw := by
  induction raw generalizing i with
  | nil => rfl
  | cons t raw ih =>
    have after : ts.drop (i + 1) = raw ++ rest := by rw [← List.drop_drop, h]; rfl
    have before : ts.take (i + 1) = ts.take i ++ [t] := by rw [List.take_add, h]; rfl
    have more := ih after
    rw [before, significant_append] at more
    rw [List.zipIdx_cons, remaining, ← more]
    by_cases out : LeftOut (significant (ts.take i)) t
    · simp [keptOf, out]
    · simp [keptOf, out]

section Kept

variable {ts : List Token} {c : Cursor} {o : Outcome Action}

/-- A construct that is no problem emits the tokens that are not left out. -/
theorem Outcome.Leaves.emits (h : o.Leaves (significant (ts.take c.index)) c) (hts : c.ahead = ts.drop c.index) :
    o.Emits c (keptOf ts (c.numbered (o.steps + 1))) := by
  have kept (n : Nat) : (keptOf ts (c.numbered n)).map Prod.fst =
      remaining (significant (ts.take c.index)) (c.between 0 n) := by
    have split : ts.drop c.index = c.between 0 n ++ c.ahead.drop n := by
      rw [← hts, Cursor.between_zero, List.take_append_drop]
    exact map_fst_keptOf split
  have sub (n : Nat) : (keptOf ts (c.numbered n)).Sublist (c.numbered n) := List.filter_sublist
  cases h.selection with
  | plain hv written => exact emits_of_not_defines hv (sub _) (by rw [kept, written])
  | @defined front rest stop hv ahead hs picked written =>
    have last : keptOf ts [(stop, c.index + o.steps)] = [(stop, c.index + o.steps)] := by
      simp [keptOf, not_leftOut_of_semicolon hs]
    rw [Cursor.numbered_succ ahead, keptOf_append, last]
    exact emits_of_defines hv ahead hs (sub _) (by rw [kept, written, picked])

/-- Nothing of a construct that is no problem matters to the next one. -/
theorem Outcome.Leaves.closed_take (h : o.Leaves (significant (ts.take c.index)) c) (hts : c.ahead = ts.drop c.index)
    (closed : Closed (significant (ts.take c.index))) : Closed (significant (ts.take (c.index + (o.steps + 1)))) := by
  rw [List.take_add, ← hts, significant_append]
  exact closed.append h.closed

end Kept

namespace FileContext

variable (ctx : FileContext σ)

/-- A construct that does not include a file writes what is written while it is read. -/
theorem written_finish (s : FileState σ) (c : Cursor) {o : Outcome Action}
    (h : ∀ written line, o.value ≠ some (.request .included written line)) :
    Journal.written ctx.path (ctx.finish s c o).2 = o.written := by
  have silent (k : Journal) (hk : Journal.written ctx.path k = []) :
      Journal.written ctx.path (o.output.map .output ++ k) = o.written := by
    rw [Journal.written_append, Journal.written_map_output, hk, List.append_nil]
    rfl
  rw [finish]
  cases value : o.value with
  | none => exact silent _ rfl
  | some action =>
    cases action with
    | request m written line =>
      cases m with
      | included => exact absurd value (h written line)
      | linked => exact silent _ (ctx.written_openRequest_linked written line s)
    | _ => exact silent _ rfl

/-! ### Definitions that are completed -/

/-- From a state and a cursor on, a construct defines a struct type and ends on the position. -/
def Completes (s : FileState σ) (c : Cursor) (p : Nat) : Prop :=
  ∃ j t d, ctx.Leads s c j t d ∧ d.ahead ≠ [] ∧ (ctx.read t d).Defines ∧ p = d.index + (ctx.read t d).steps

section Completes

variable {ctx} {s : FileState σ} {c : Cursor} {p : Nat}

theorem not_completes_of_end (h : c.ahead = []) : ¬ ctx.Completes s c p := by
  rintro ⟨j, t, d, leads, hd, -⟩
  cases leads with
  | here => exact hd h
  | further hc _ => exact hc h

theorem Completes.index_le (h : ctx.Completes s c p) : c.index ≤ p := by
  obtain ⟨j, t, d, leads, -, -, rfl⟩ := h
  exact Nat.le_trans leads.index_le (Nat.le_add_right _ _)

/-- A definition that is completed is the construct that comes next or comes later. -/
theorem completes_iff (hc : c.ahead ≠ []) : ctx.Completes s c p ↔
    ((ctx.read s c).Defines ∧ p = c.index + (ctx.read s c).steps) ∨
      ctx.Completes (ctx.finish s c (ctx.read s c)).1 (c.skip ((ctx.read s c).steps + 1)) p := by
  constructor
  · rintro ⟨j, t, d, leads, hd, defines, rfl⟩
    cases leads with
    | here => exact .inl ⟨defines, rfl⟩
    | further _ leads => exact .inr ⟨_, t, d, leads, hd, defines, rfl⟩
  · rintro (⟨defines, rfl⟩ | ⟨j, t, d, leads, hd, defines, rfl⟩)
    · exact ⟨[], s, c, .here s c, hc, defines, rfl⟩
    · exact ⟨_, t, d, .further hc leads, hd, defines, rfl⟩

end Completes

/-- Selected tokens of a file are what is written for it from a cursor on. -/
structure Emits (s : FileState σ) (c : Cursor) (sel : List (Token × Nat)) : Prop where
  /-- They are selected from those that lie ahead. -/
  sublist : sel.Sublist (c.ahead.zipIdx c.index)
  /-- They are written, with a newline where the definition of a struct type ends. -/
  written : Journal.written ctx.path (ctx.walk s c).2 = withBreaks (ctx.Completes s c) sel
  /-- A definition ends on a semicolon, which is one of them. -/
  stop : ∀ p, ctx.Completes s c p → ∃ stop : Token, stop.kind = .semicolon ∧ (stop, p) ∈ sel

variable {ctx} in
/-- What is written for a construct and for the ones after it. -/
theorem Emits.cons {s : FileState σ} {c : Cursor} {sel sel' : List (Token × Nat)} (hc : c.ahead ≠ [])
    (hi : ∀ written line, (ctx.read s c).value ≠ some (.request .included written line))
    (first : (ctx.read s c).Emits c sel)
    (more : ctx.Emits (ctx.finish s c (ctx.read s c)).1 (c.skip ((ctx.read s c).steps + 1)) sel') :
    ctx.Emits s c (sel ++ sel') := by
  have low : ∀ x ∈ sel, x.2 < c.index + ((ctx.read s c).steps + 1) := fun x hx =>
    (Cursor.bounds_of_mem_numbered (first.sublist.mem hx)).2
  have high : ∀ x ∈ sel', c.index + ((ctx.read s c).steps + 1) ≤ x.2 := fun x hx =>
    (List.mem_zipIdx (more.sublist.mem hx)).1
  refine ⟨?_, ?_, fun p completes => ?_⟩
  · rw [zipIdx_eq_append _ _ ((ctx.read s c).steps + 1)]
    exact first.sublist.append more.sublist
  · have before : withBreaks (ctx.Completes s c) sel =
        withBreaks (fun p => (ctx.read s c).Defines ∧ p = c.index + (ctx.read s c).steps) sel := by
      refine withBreaks_congr fun x hx => ?_
      rw [completes_iff hc]
      exact or_iff_left fun later => Nat.not_le_of_gt (low x hx) later.index_le
    have after : withBreaks (ctx.Completes s c) sel' = withBreaks
        (ctx.Completes (ctx.finish s c (ctx.read s c)).1 (c.skip ((ctx.read s c).steps + 1))) sel' := by
      refine withBreaks_congr fun x hx => ?_
      rw [completes_iff hc]
      refine or_iff_right fun here => ?_
      have := high x hx
      omega
    rw [ctx.walk_of_ahead hc]
    simp only
    rw [Journal.written_append, ctx.written_finish s c hi, first.written, more.written, withBreaks_append, before,
      after]
  · rcases (completes_iff hc).1 completes with ⟨defines, rfl⟩ | later
    · obtain ⟨stop, hs, mem⟩ := first.stop defines
      exact ⟨stop, hs, List.mem_append_left _ mem⟩
    · obtain ⟨stop, hs, mem⟩ := more.stop p later
      exact ⟨stop, hs, List.mem_append_right _ mem⟩

/-- What a construct without a problem reports of itself is nothing. -/
theorem faults_read_of_ownFaults {s : FileState σ} {c : Cursor}
    (h : Journal.ownFaults (ctx.finish s c (ctx.read s c)).2 = []) : (ctx.read s c).faults = [] := by
  obtain ⟨ps, own, -⟩ := ctx.own_finish s c (ctx.read s c)
  rw [Journal.ownFaults, own, List.filterMap_append] at h
  exact (List.append_eq_nil_iff.1 h).1

/-- **What is written for a file are selected tokens of it.** If nothing is reported, the others are those that are left
out. -/
theorem exists_emits {ts : List Token} (hi : ∀ t ∈ ts, t.role ≠ .inclusion) (truthful : ∀ t ∈ ts, t.Truthful)
    (s : FileState σ) (c : Cursor) (hts : c.ahead = ts.drop c.index) :
    ∃ sel, ctx.Emits s c sel ∧ (Journal.ownFaults (ctx.walk s c).2 = [] →
      Closed (significant (ts.take c.index)) → sel = keptOf ts (c.ahead.zipIdx c.index)) := by
  induction s, c using ctx.walk_induction with
  | done s c h =>
    refine ⟨[], ⟨List.nil_sublist _, ?_, fun p completes => absurd completes (not_completes_of_end h)⟩, fun _ _ => ?_⟩
    · rw [ctx.walk_of_end h]
      rfl
    · rw [h]
      rfl
  | more s c h ih =>
    have mem : ∀ t ∈ c.ahead, t ∈ ts := fun t ht => List.mem_of_mem_drop (hts ▸ ht)
    have included (written : String) (line : Nat) :
        (ctx.read s c).value ≠ some (.request .included written line) := by
      intro value
      obtain ⟨path, directs, -⟩ := Reader.construct_value_iff.1 value
      obtain ⟨t, under, role⟩ := Option.map_eq_some_iff.1 directs.role
      exact hi t (mem t (List.mem_of_head? under)) role
    obtain ⟨sel', more, kept⟩ := ih (by rw [Cursor.ahead_skip, hts, List.drop_drop]; rfl)
    by_cases clean : Journal.ownFaults (ctx.walk s c).2 = [] ∧ Closed (significant (ts.take c.index))
    · obtain ⟨faultless, closed⟩ := clean
      rw [ctx.walk_of_ahead h, Journal.ownFaults_append] at faultless
      obtain ⟨first, rest⟩ := List.append_eq_nil_iff.1 faultless
      obtain ⟨t, left, ahead⟩ := List.exists_cons_of_ne_nil h
      have leaves : (ctx.read s c).Leaves (significant (ts.take c.index)) c :=
        Reader.leaves_construct closed ahead (fun t ht => truthful t (mem t ht))
          (hi t (mem t (by simp [ahead]))) (ctx.faults_read_of_ownFaults first)
      refine ⟨_, Emits.cons h included (leaves.emits hts) more, fun _ _ => ?_⟩
      rw [kept rest (leaves.closed_take hts closed), ← keptOf_append]
      exact congrArg (keptOf ts) (zipIdx_eq_append _ _ _).symm
    · obtain ⟨sel, first⟩ := (Reader.selection_construct h).exists_emits
      exact ⟨_, Emits.cons h included first more, fun faultless closed => absurd ⟨faultless, closed⟩ clean⟩

end FileContext

/-! ### The main result -/

open Classical in
/-- The characters of selected tokens, with newlines. -/
theorem rendered_withBreaks (ends : Nat → Prop) (sel : List (Token × Nat)) : rendered (withBreaks ends sel) =
    sel.flatMap fun x => x.1.render.toList ++ if ends x.2 then ['\n'] else [] := by
  rw [rendered, withBreaks, List.flatMap_assoc]
  refine List.flatMap_congr fun x _ => ?_
  by_cases h : ends x.2
  · simp [h, Token.newline, Token.render]
  · simp [h]

/-- Selected tokens are told by their positions. -/
theorem exists_positions {ts : List Token} {sel : List (Token × Nat)} (h : sel.Sublist (ts.zipIdx 0)) :
    ∃ ps : List (Fin ts.length), ps.Pairwise (· < ·) ∧ sel = ps.map fun p => (ts[p], p.val) := by
  have all : ts.zipIdx 0 = (List.finRange ts.length).map fun p => (ts[p], p.val) :=
    List.ext_getElem (by simp) fun i _ _ => by simp
  rw [all] at h
  obtain ⟨ps, sub, same⟩ := List.sublist_map_iff.1 h
  exact ⟨ps, (List.pairwise_lt_finRange _).sublist sub, same⟩

theorem mem_keptOf_iff {ts : List Token} (p : Fin ts.length) : (ts[p], p.val) ∈ keptOf ts (ts.zipIdx 0) ↔
    ¬ LeftOut (significant (ts.take p)) ts[p] := by
  have mem : (ts[p], p.val) ∈ ts.zipIdx 0 := List.mem_zipIdx_iff_getElem?.2 (by simp)
  rw [keptOf, List.mem_filter]
  simpa using fun _ => mem

open Classical in
/-- **The woven text selects tokens of its file.** They are written in the order of the file, none of them twice, and a
newline comes after the semicolon with which a struct type is completed. If the file reports nothing, the others are the
tokens that are left out: the marks of templates, the links to vertex shaders with their paths, and the initializers. -/
theorem expandFile_selects (provider : Provider σ) (depth : Nat) (r : FileRequest) (store : σ) (text : String)
    (hn : r.path.namesFile = true) (hl : (provider.load store r.path).1 = .ok text)
    (hi : ∀ t ∈ lex text, t.role ≠ .inclusion) :
    let e := expandFile provider (depth + 1) r store
    let ctx := r.context provider (expandFile provider depth)
    let ts := lex text
    let ends := ctx.Completes (r.initial (provider.load store r.path).2) (.start ts)
    ∃ ps : List (Fin ts.length), ps.Pairwise (· < ·) ∧
      (Journal.woven r.path e.journal).text.toList =
        (ps.flatMap fun p => ts[p].render.toList ++ if ends p.val then ['\n'] else []) ∧
      (∀ n, ends n → ∃ p ∈ ps, p.val = n ∧ ts[p].kind = .semicolon) ∧
      (Journal.ownFaults e.journal = [] → ∀ p, p ∉ ps ↔ LeftOut (significant (ts.take p)) ts[p]) := by
  intro e ctx ts ends
  obtain ⟨sel, emits, kept⟩ := ctx.exists_emits hi (fun _ => truthful_of_mem_lex)
    (r.initial (provider.load store r.path).2) (.start ts) rfl
  have opened : e = r.conclude (ctx.walk (r.initial (provider.load store r.path).2) (.start ts)).1
      (opening r.path text ++ (ctx.walk (r.initial (provider.load store r.path).2) (.start ts)).2) :=
    openFile_of_loaded provider (expandFile provider depth) hn hl
  have sub : sel.Sublist (ts.zipIdx 0) := emits.sublist
  obtain ⟨ps, sorted, rfl⟩ := exists_positions sub
  refine ⟨ps, sorted, ?_, fun n completes => ?_, fun faultless p => ?_⟩
  · rw [opened, FileRequest.conclude, Journal.toList_text_woven, written_opening_append]
    have written : Journal.written r.path (ctx.walk (r.initial (provider.load store r.path).2) (.start ts)).2 =
        withBreaks ends _ := emits.written
    rw [written, rendered_withBreaks, List.flatMap_map]
  · obtain ⟨stop, hs, mem⟩ := emits.stop n completes
    obtain ⟨p, hp, same⟩ := List.mem_map.1 mem
    obtain ⟨rfl, rfl⟩ := Prod.mk.inj same
    exact ⟨p, hp, rfl, hs⟩
  · rw [opened, FileRequest.conclude, Journal.ownFaults_append] at faultless
    have all : (ps.map fun p => (ts[p], p.val)) = keptOf ts (ts.zipIdx 0) :=
      kept (List.append_eq_nil_iff.1 faultless).2 closed_nil
    have injective : Function.Injective fun p : Fin ts.length => (ts[p], p.val) :=
      fun p q same => Fin.ext (Prod.mk.inj same).2
    rw [← List.mem_map_of_injective injective, all, mem_keptOf_iff, not_not]

/-- A template with a link, a struct type and a uniform. -/
def selectedText : String :=
  "#requires_implementation\n#vertex_shader \"b.vert\"\nstruct S \x7b float x = 1; \x7d;\nuniform int n = 2;"

/-- The directives, the path and the initializers are left out, and a newline is added. -/
theorem expandFile_selects_template :
    let files := (MemoryFiles.empty.put "a.frag" [some selectedText]).put "b.vert" [some "x"]
    let r : FileRequest := ⟨⟨"a.frag"⟩, false, .empty, .empty⟩
    let e := expandFile MemoryFiles.provider 2 r files
    let ts := lex selectedText
    (∀ t ∈ ts, t.role ≠ .inclusion) ∧ Journal.ownFaults e.journal = [] ∧
      (Journal.woven r.path e.journal).text = "\n \nstruct S \x7b float x  ; \x7d;\n\nuniform int n  ;\n" ∧
      ∃ ps : List (Fin ts.length), ps.Pairwise (· < ·) ∧
        ∀ p, p ∉ ps ↔ LeftOut (significant (ts.take p)) ts[p] := by
  intro files r e ts
  have included : ∀ t ∈ ts, t.role ≠ .inclusion := by decide +kernel
  have faultless : Journal.ownFaults e.journal = [] := by decide +kernel
  obtain ⟨ps, sorted, -, -, kept⟩ := expandFile_selects MemoryFiles.provider 1 r files selectedText
    (by decide +kernel) (by decide +kernel) included
  exact ⟨included, faultless, by decide +kernel, ps, sorted, kept faultless⟩

end ShaderWeave
