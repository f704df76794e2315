import ShaderWeave.Proofs.Expansion.Declaring
import ShaderWeave.Proofs.Reader.Reach
import ShaderWeave.Provider.Memory

/-!
# Going on after a uniform that is abandoned

A uniform that is abandoned costs no more than itself. Whichever token breaks it, the cursor comes to rest on the first
semicolon behind the word `uniform`: no token of the uniform is read as another construct, and no construct behind it is
passed over. So a file is expanded as if the uniform and its semicolon were not there, but for what is reported about
it (`expandFile_recovers`): some numbers, maybe, and one token that does not belong where it is.

The constructs before the uniform do not look at it, since a construct looks no further than it goes
(`FileContext.Leads.alike`). The constructs behind it do not know at which position they stand. Only the mark of a
template file has to be the first token, so one more of them may be late (`FileContext.walk_later`).
-/

namespace ShaderWeave

variable {σ : Type}

/-- A uniform among the other tokens of its file, up to the first semicolon. -/
structure UniformAmong where
  /-- The tokens before. -/
  before : List Token
  /-- The word `uniform`. -/
  word : Token
  /-- The tokens between the word and the semicolon. -/
  body : List Token
  /-- The semicolon. -/
  stop : Token
  /-- The tokens after. -/
  after : List Token
  /-- The word starts a uniform. -/
  uniform : word.role = .uniform
  /-- It is the first semicolon. -/
  first : Phrase.NoSemicolon body
  /-- It is a semicolon. -/
  semicolon : stop.kind = .semicolon

namespace UniformAmong

/-- All tokens of the file. -/
def tokens (u : UniformAmong) : List Token :=
  u.before ++ u.word :: (u.body ++ u.stop :: u.after)

/-- The tokens of the file without the uniform and its semicolon. -/
def others (u : UniformAmong) : List Token :=
  u.before ++ u.after

/-- The cursor on the word `uniform`. -/
def cursor (u : UniformAmong) : Cursor :=
  (Cursor.start u.tokens).skip u.before.length

/-- The cursor behind the tokens before, where the uniform is left out. -/
def gap (u : UniformAmong) : Cursor :=
  (Cursor.start u.others).skip u.before.length

theorem ahead_cursor (u : UniformAmong) : u.cursor.ahead = u.word :: (u.body ++ u.stop :: u.after) :=
  List.drop_left

theorem ahead_gap (u : UniformAmong) : u.gap.ahead = u.after :=
  List.drop_left

/-- Where something comes after the uniform, the file ends on the same line without it. -/
theorem lastLine_gap (u : UniformAmong) (h : u.after ≠ []) : u.gap.lastLine = u.cursor.lastLine := by
  obtain ⟨ts, t, after⟩ := List.eq_nil_or_concat u.after |>.resolve_left h
  have whole : u.tokens = u.before ++ u.word :: (u.body ++ u.stop :: ts) ++ [t] := by simp [tokens, after]
  have left : u.others = u.before ++ ts ++ [t] := by simp [others, after]
  have last : u.tokens.getLast? = u.others.getLast? := by rw [whole, left, List.getLast?_concat, List.getLast?_concat]
  rw [gap, cursor, Cursor.lastLine_skip, Cursor.lastLine_skip, Cursor.start, Cursor.start, last]

end UniformAmong

/-- The mark of a template file, if it is the first token of all. -/
def Cursor.firstMark (c : Cursor) : Option Token :=
  if c.index = 0 then c.ahead.head?.filter fun t => t.role = .templateMark else none

namespace FileContext

variable (ctx : FileContext σ)

/-! ### Constructs that do not see the difference -/

section Alike

variable {ctx} {s t : FileState σ} {c c' d : Cursor} {j : Journal}

theorem read_alike (hc : c.ahead ≠ []) (alike : c.Alike c' (ctx.read s c).steps)
    (first : ∀ t ∈ c.ahead.head?, t.role = .templateMark → (c'.index = 0 ↔ c.index = 0)) :
    ctx.read s c' = ctx.read s c :=
  Reader.construct_alike hc alike first

/-- A construct is finished without a look at the tokens, but for the line on which it is abandoned. -/
theorem finish_alike {o : Outcome Action} (alike : c.Alike c' o.steps) : ctx.finish s c' o = ctx.finish s c o := by
  have line : (c'.skip o.steps).line = (c.skip o.steps).line := Cursor.Alike.line_eq (n := 0) (Cursor.Alike.skip alike)
  rw [finish, finish, line]

theorem Leads.index_le (h : ctx.Leads s c j t d) : c.index ≤ d.index := by
  induction h with
  | here => exact Nat.le_refl _
  | further _ _ ih => exact Nat.le_trans (Nat.le_add_right _ _) ih

/-- **Constructs one after another do not depend on the tokens behind them.** -/
theorem Leads.alike (h : ctx.Leads s c j t d) {raw rest rest' : List Token} (ahead : c.ahead = raw ++ rest)
    (ahead' : c'.ahead = raw ++ rest') (index : c'.index = c.index) (passed : d.index = c.index + raw.length) :
    ctx.Leads s c' j t (c'.skip raw.length) := by
  induction h generalizing c' raw with
  | here s c =>
    obtain rfl : raw = [] := List.eq_nil_of_length_eq_zero (by omega)
    exact .here s c'
  | @further s t c d j hc leads ih =>
    have fits : (ctx.read s c).steps + 1 ≤ raw.length := by
      have := leads.index_le
      rw [Cursor.index_skip] at this
      omega
    have alike : c.Alike c' (ctx.read s c).steps := .shared fits ahead ahead'
    have hc' : c'.ahead ≠ [] := by
      rw [ahead']
      exact List.append_ne_nil_of_left_ne_nil (List.ne_nil_of_length_pos (by omega)) rest'
    have same : ctx.read s c' = ctx.read s c := read_alike hc alike fun _ _ _ => by rw [index]
    have after : (c.skip ((ctx.read s c).steps + 1)).ahead = raw.drop ((ctx.read s c).steps + 1) ++ rest := by
      rw [Cursor.ahead_skip, ahead, List.drop_append_of_le_length fits]
    have after' : (c'.skip ((ctx.read s c).steps + 1)).ahead = raw.drop ((ctx.read s c).steps + 1) ++ rest' := by
      rw [Cursor.ahead_skip, ahead', List.drop_append_of_le_length fits]
    have more := ih after after' (by rw [Cursor.index_skip, Cursor.index_skip, index])
      (by rw [Cursor.index_skip, List.length_drop]; omega)
    rw [Cursor.skip_skip, List.length_drop, Nat.add_sub_cancel' fits] at more
    have whole : ctx.Leads s c' _ t _ := .further hc' (by rw [same, finish_alike alike]; exact more)
    rwa [same, finish_alike alike] at whole

/-- Behind the first token, the constructs do not depend on the position at which they stand. -/
theorem walk_alike (ahead : c'.ahead = c.ahead) (lastLine : c'.lastLine = c.lastLine) (hi : 0 < c.index)
    (hi' : 0 < c'.index) : ctx.walk s c' = ctx.walk s c := by
  induction s, c using ctx.walk_induction generalizing c' with
  | done s c h => rw [ctx.walk_of_end h, ctx.walk_of_end (ahead.trans h)]
  | more s c h ih =>
    have alike : c.Alike c' (ctx.read s c).steps := .equal ahead lastLine
    have same : ctx.read s c' = ctx.read s c := read_alike h alike fun _ _ _ => by omega
    have after : (c'.skip ((ctx.read s c).steps + 1)).ahead = (c.skip ((ctx.read s c).steps + 1)).ahead := by
      rw [Cursor.ahead_skip, Cursor.ahead_skip, ahead]
    have more := ih after lastLine (Nat.add_pos_left hi _) (Nat.add_pos_left hi' _)
    rw [ctx.walk_of_ahead h, ctx.walk_of_ahead (ahead ▸ h), same]
    simp only [finish_alike alike, more]

section Later

variable (ahead : c'.ahead = c.ahead) (lastLine : c'.lastLine = c.lastLine)
include ahead lastLine

theorem walk_skip_alike (ctx : FileContext σ) (s : FileState σ) (n : Nat) :
    ctx.walk s (c'.skip (n + 1)) = ctx.walk s (c.skip (n + 1)) :=
  walk_alike (by rw [Cursor.ahead_skip, Cursor.ahead_skip, ahead]) lastLine (Nat.succ_pos _) (Nat.succ_pos _)

variable (hi : 0 < c'.index)
include hi

/-- Constructs that come later do the same unless the mark of a template file was the first token. -/
theorem walk_of_firstMark_eq_none (h : c.firstMark = none) : ctx.walk s c' = ctx.walk s c := by
  by_cases hc : c.ahead = []
  · rw [ctx.walk_of_end hc, ctx.walk_of_end (ahead.trans hc)]
  have alike : c.Alike c' (ctx.read s c).steps := .equal ahead lastLine
  have same : ctx.read s c' = ctx.read s c := by
    refine read_alike hc alike fun t ht role => ?_
    have index : c.index ≠ 0 := by
      intro zero
      rw [Cursor.firstMark, if_pos zero, Option.mem_def.1 ht] at h
      simp [role] at h
    omega
  have more := walk_skip_alike ahead lastLine ctx (ctx.finish s c (ctx.read s c)).1 (ctx.read s c).steps
  rw [ctx.walk_of_ahead hc, ctx.walk_of_ahead (ahead ▸ hc), same]
  simp only [finish_alike alike, more]

/-- The mark of a template file is late if it was the first token before. -/
theorem walk_of_firstMark_eq_some {t : Token} (h : c.firstMark = some t) :
    ctx.walk s c' = ((ctx.walk s c).1, .problem .lateTemplateMark t.line :: (ctx.walk s c).2) := by
  obtain ⟨zero, first⟩ := Option.ite_none_right_eq_some.1 h
  obtain ⟨under, role⟩ := Option.filter_eq_some_iff.1 first
  obtain ⟨rest, tokens⟩ := List.head?_eq_some_iff.1 under
  have role : t.role = .templateMark := by simpa using role
  have line : c.line = t.line := by rw [Cursor.line, tokens]; rfl
  have line' : c'.line = t.line := by rw [Cursor.line, ahead, tokens]; rfl
  have read : ctx.read s c =
      ⟨some .nothing, 0, if ctx.standsAlone then [.problem .unfilledTemplate t.line] else []⟩ := by
    rw [FileContext.read, Reader.construct_of_templateMark tokens role, Reader.templateMark_apply, line]
    simp [zero]
  have read' : ctx.read s c' = ⟨some .nothing, 0,
      .problem .lateTemplateMark t.line :: if ctx.standsAlone then [.problem .unfilledTemplate t.line] else []⟩ := by
    rw [FileContext.read, Reader.construct_of_templateMark (ahead.trans tokens) role, Reader.templateMark_apply, line']
    simp [Nat.ne_of_gt hi]
  have more := walk_skip_alike ahead lastLine ctx s 0
  have under : c.ahead ≠ [] := by simp [tokens]
  rw [ctx.walk_of_ahead under, ctx.walk_of_ahead (ahead ▸ under), read, read']
  simp [finish, perform, more, Entry.problem]

end Later

variable (ctx s) in
/-- **Constructs that come later in a file do the same there**, but for the mark of a template file, which is late if it
was the first token. -/
theorem walk_later (ahead : c'.ahead = c.ahead) (lastLine : c.ahead ≠ [] → c'.lastLine = c.lastLine)
    (hi : 0 < c'.index) :
    (ctx.walk s c').1 = (ctx.walk s c).1 ∧ Journal.calls (ctx.walk s c').2 = Journal.calls (ctx.walk s c).2 ∧
    Journal.diagnostics ctx.path (ctx.walk s c').2 =
      (c.firstMark.map fun t => ⟨ctx.path.text, t.line, .lateTemplateMark⟩).toList ++
        Journal.diagnostics ctx.path (ctx.walk s c).2 := by
  by_cases hc : c.ahead = []
  · have none : c.firstMark = none := by simp [Cursor.firstMark, hc]
    rw [ctx.walk_of_end hc, ctx.walk_of_end (ahead.trans hc), none]
    exact ⟨rfl, rfl, rfl⟩
  cases h : c.firstMark with
  | none =>
    rw [walk_of_firstMark_eq_none ahead (lastLine hc) hi h]
    exact ⟨rfl, rfl, rfl⟩
  | some t =>
    rw [walk_of_firstMark_eq_some ahead (lastLine hc) hi h]
    exact ⟨rfl, rfl, rfl⟩

end Alike

end FileContext

/-! ### The uniform itself -/

namespace UniformAmong

variable {u : UniformAmong} {types : Structs}

theorem noSemicolon_significant {ts : List Token} (h : Phrase.NoSemicolon ts) : Phrase.NoSemicolon (significant ts) :=
  fun t ht => h t (List.mem_of_mem_filter ht)

/-- What goes on behind the semicolon begins no declaration that does not end on it. -/
theorem exists_declaration_of_begins {as : List Token}
    (h : (Phrase.Declaration types).Begins (significant (u.body ++ u.stop :: as))) :
    ∃ v fs, Phrase.Declaration types (significant u.body ++ [u.stop]) v fs := by
  obtain ⟨us, v, fs, phrase⟩ := h
  have solid : u.stop.isBlank = false := by simp [Token.isBlank, u.semicolon]
  obtain ⟨xs, stop, split, none, semicolon⟩ := phrase.first_semicolon
  have whole : significant u.body ++ u.stop :: (significant as ++ us) = xs ++ stop :: [] := by
    rw [← split, significant_append]
    simp [significant, solid]
  obtain ⟨rfl, rfl, -⟩ :=
    Phrase.eq_of_first_semicolon (noSemicolon_significant u.first) none u.semicolon semicolon whole
  rw [split] at phrase
  exact ⟨v, fs, phrase⟩

/-- A uniform that is abandoned is abandoned no later than on its semicolon. -/
theorem exists_before_stop (truthful : ∀ t ∈ u.tokens, t.Truthful)
    (fails : (Reader.declaration types u.cursor).value = none) :
    ∃ raw as fs p, u.body = raw ++ as ∧ Reader.Rejected (.Declaration types) u.cursor
      (Reader.declaration types u.cursor) raw (as ++ u.stop :: u.after) fs p := by
  have recognized := Reader.recognizes_declaration types
  have truthful : ∀ t ∈ u.cursor.ahead, t.Truthful := fun t ht => truthful t (List.mem_of_mem_drop ht)
  obtain ⟨raw, rest, fs, p, rejected⟩ := recognized.rejected truthful fails
  have split := rejected.split
  rw [ahead_cursor, List.drop_one, List.tail_cons] at split
  rcases List.append_eq_append_iff.1 split with ⟨as, rfl, stop⟩ | ⟨as, body, rfl⟩
  · cases as with
    | nil =>
      obtain rfl : rest = u.stop :: u.after := stop.symm
      exact ⟨u.body, [], fs, p, (List.append_nil u.body).symm, by simpa using rejected⟩
    | cons t as =>
      obtain ⟨rfl, after⟩ := List.cons.inj stop
      obtain ⟨v, gs, phrase⟩ := exists_declaration_of_begins rejected.begins
      have solid : u.stop.isBlank = false := by simp [Token.isBlank, u.semicolon]
      have read := (recognized.value_eq_some_iff truthful).2 ⟨_, significant u.after, gs, ?_, phrase⟩
      · rw [fails] at read
        simp at read
      · rw [ahead_cursor, List.drop_one, List.tail_cons, significant_append]
        simp [significant, solid]
  · exact ⟨raw, as, fs, p, body, rejected⟩

/-- **An abandoned uniform comes to rest on its semicolon.** Some numbers are reported, and then one of its tokens. -/
theorem exists_of_abandoned (truthful : ∀ t ∈ u.tokens, t.Truthful)
    (fails : (Reader.uniform types u.cursor).value = none) :
    (Reader.uniform types u.cursor).steps = u.body.length + 1 ∧
    ∃ numbers p, ∃ t ∈ u.body ++ [u.stop], (∀ f ∈ numbers, f.1.IsBadNumber) ∧ p.Blames (some t) ∧
      (Reader.uniform types u.cursor).faults = numbers ++ [(p, t.line)] := by
  have read : (Reader.declaration types u.cursor).value = none := by
    refine Option.eq_none_iff_forall_ne_some.2 fun v read => ?_
    simp [FileContext.uniform_value_iff.2 ⟨v, rfl, read⟩] at fails
  have outcome : Reader.uniform types u.cursor = ⟨none, (Reader.declaration types u.cursor).steps,
      .copy u.word :: (Reader.declaration types u.cursor).output⟩ := by
    rw [Reader.uniform, Reader.bind_apply_of_some (a := ()) rfl, Reader.copy_apply u.ahead_cursor, Cursor.skip_zero,
      Reader.bind_apply_of_none read]
    simp
  obtain ⟨raw, as, numbers, p, body, rejected⟩ := exists_before_stop truthful read
  -- the semicolon is the first one from the token on that is to blame
  have none : ∀ t ∈ as, t.kind ≠ .semicolon := fun t ht => u.first t (by rw [body]; exact List.mem_append_right raw ht)
  have resting := rejected.resting
  rw [List.dropWhile_append_of_pos (by simpa using none), List.dropWhile_cons_of_neg (by simp [u.semicolon]),
    Cursor.ahead_skip] at resting
  have steps : (Reader.declaration types u.cursor).steps = u.body.length + 1 := by
    have length := congrArg List.length resting
    simp only [List.length_drop, ahead_cursor, List.length_cons, List.length_append] at length
    omega
  obtain ⟨t, head, mem⟩ : ∃ t, (as ++ u.stop :: u.after).head? = some t ∧ t ∈ u.body ++ [u.stop] := by
    cases as with
    | nil => exact ⟨u.stop, rfl, by simp⟩
    | cons t as => exact ⟨t, rfl, by simp [body]⟩
  have blames := rejected.blames
  have faults := rejected.faults
  rw [head] at blames faults
  rw [outcome]
  refine ⟨steps, numbers, p, t, mem, rejected.numbers, blames, ?_⟩
  exact faults

/-- What is reported on account of an abandoned uniform: in `x`, which is with it, and not in `y`, which is without it.
What is reported before it is told by the journal `j`. -/
structure Reports (u : UniformAmong) (file : Path) (j x y : Journal) (numbers : List Fault) (p : Problem) (t : Token)
    (later : List Diagnostic) : Prop where
  /-- First there may be numbers. -/
  bad : ∀ f ∈ numbers, f.1.IsBadNumber
  /-- Then there is one token that does not belong where it is. -/
  blames : p.Blames (some t)
  /-- It is one of the uniform, or its semicolon. -/
  among : t ∈ u.body ++ [u.stop]
  /-- The rest is reported later. -/
  without : Journal.diagnostics file y = Journal.diagnostics file j ++ later
  /-- All this stands between, and the mark of a template file if it would have been the first token. -/
  within : Journal.diagnostics file x = Journal.diagnostics file j ++
    (((numbers ++ [(p, t.line)]).map fun f => ⟨file.text, f.2, f.1⟩) ++
      ((u.gap.firstMark.map fun t => ⟨file.text, t.line, .lateTemplateMark⟩).toList ++ later))

variable {ctx : FileContext σ} {start s : FileState σ} {j : Journal}

/-- **Tokens with an abandoned uniform are expanded like those without it.** -/
theorem walk_recovers (truthful : ∀ t ∈ u.tokens, t.Truthful)
    (reached : ctx.Leads start (.start u.tokens) j s u.cursor)
    (fails : (Reader.uniform s.scope.structs u.cursor).value = none) :
    let x := ctx.expandTokens start u.tokens
    let y := ctx.expandTokens start u.others
    x.1 = y.1 ∧ Journal.calls x.2 = Journal.calls y.2 ∧
      ∃ numbers p t later, u.Reports ctx.path j x.2 y.2 numbers p t later := by
  intro x y
  obtain ⟨steps, numbers, p, t, among, bad, blames, faults⟩ := exists_of_abandoned truthful fails
  have read : ctx.read s u.cursor = Reader.uniform s.scope.structs u.cursor :=
    Reader.construct_of_uniform u.ahead_cursor u.uniform
  have none : (ctx.read s u.cursor).value = none := by rw [read, fails]
  have steps : (ctx.read s u.cursor).steps = u.body.length + 1 := by rw [read, steps]
  have still : (ctx.finish s u.cursor (ctx.read s u.cursor)).1 = s := FileContext.finish_of_none none
  have goesOn := ctx.goesOn_finish s u.cursor (o := ctx.read s u.cursor) (by simp [none])
  have reports : Journal.diagnostics ctx.path (ctx.finish s u.cursor (ctx.read s u.cursor)).2 =
      (numbers ++ [(p, t.line)]).map fun f => ⟨ctx.path.text, f.2, f.1⟩ := by
    rw [← faults, ← read]
    exact goesOn.diagnostics []
  -- without the uniform, the constructs before it lead to the gap, and those behind it come next
  have whole : (Cursor.start u.tokens).ahead = u.before ++ u.word :: (u.body ++ u.stop :: u.after) := rfl
  have left : (Cursor.start u.others).ahead = u.before ++ u.after := rfl
  have reached' : ctx.Leads start (.start u.others) j s u.gap := reached.alike whole left rfl rfl
  have behind : (u.cursor.skip (u.body.length + 1 + 1)).ahead = u.gap.ahead := by
    rw [ahead_gap, Cursor.ahead_skip, ahead_cursor, List.drop_succ_cons, ← List.drop_drop, List.drop_left]
    rfl
  have within : x = _ := reached.walk_eq_further (by simp [ahead_cursor])
  have without : y = _ := reached'.walk_eq
  obtain ⟨state, calls, later⟩ := ctx.walk_later s behind
    (fun h => (u.lastLine_gap (by rwa [← ahead_gap])).symm) (Nat.succ_pos _)
  rw [steps, still] at within
  rw [within, without]
  refine ⟨state, ?_, numbers, p, t, _, bad, blames, among, Journal.diagnostics_append _ _ _, ?_⟩
  · simp only [Journal.calls_append, goesOn.calls, calls, List.nil_append]
  · simp only [Journal.diagnostics_append, reports, later]

end UniformAmong

/-! ### The file -/

/-- Expands a file that has been loaded, with other tokens in the place of its own. -/
def FileRequest.expandWith (r : FileRequest) (provider : Provider σ) (nested : FileRequest → σ → Expansion σ)
    (store : σ) (content : String) (ts : List Token) : Expansion σ :=
  let body := (r.context provider nested).expandTokens (r.initial store) ts
  r.conclude body.1 (opening r.path content ++ body.2)

theorem openFile_eq_expandWith (provider : Provider σ) (nested : FileRequest → σ → Expansion σ) {r : FileRequest}
    {store : σ} {content : String} (names : r.path.namesFile = true)
    (loaded : (provider.load store r.path).1 = .ok content) :
    openFile provider nested r store =
      r.expandWith provider nested (provider.load store r.path).2 content (lex content) :=
  openFile_of_loaded provider nested names loaded

/-- **A file with an abandoned uniform is expanded like the file without it.** The uniform is reached as a construct and
has no semicolon but the one behind it. With all tokens but these, the same is declared, the same files are visited, the
same is asked of the provider in the same order, and the same vertex shader is found. Nothing else is reported either,
but for some numbers and one token of the uniform, each in its place. -/
theorem expandFile_recovers (provider : Provider σ) (depth : Nat) (r : FileRequest) (store : σ) {content : String}
    (names : r.path.namesFile = true) (loaded : (provider.load store r.path).1 = .ok content) {u : UniformAmong}
    (tokens : lex content = u.tokens) {s : FileState σ} {j : Journal}
    (reached : (r.context provider (expandFile provider depth)).Leads (r.initial (provider.load store r.path).2)
      (.start u.tokens) j s u.cursor)
    (fails : (Reader.uniform s.scope.structs u.cursor).value = none) :
    let e := expandFile provider (depth + 1) r store
    let without := r.expandWith provider (expandFile provider depth) (provider.load store r.path).2 content u.others
    e.result.scope = without.result.scope ∧ e.result.chain = without.result.chain ∧
      (r.path.isVertex = false → e.result.vertex = without.result.vertex) ∧ e.store = without.store ∧
      Journal.calls e.journal = Journal.calls without.journal ∧
      ∃ numbers p t later,
        u.Reports r.path (opening r.path content ++ j) e.journal without.journal numbers p t later := by
  intro e without
  have expanded : e = r.expandWith provider _ _ content u.tokens :=
    tokens ▸ openFile_eq_expandWith provider (expandFile provider depth) names loaded
  obtain ⟨state, calls, numbers, p, t, later, reports⟩ :=
    UniformAmong.walk_recovers (fun t ht => truthful_of_mem_lex (tokens ▸ ht)) reached fails
  rw [expanded]
  refine ⟨congrArg FileState.scope state, ?_, fun ordinary => ?_, congrArg FileState.store state, ?_, numbers, p, t,
    later, { reports with without := ?_, within := ?_ }⟩
  · exact congrArg (fun s => Chain.mk s.visited r.chain.active) state
  · simp only [FileRequest.expandWith, FileRequest.conclude, without, ordinary]
    exact congrArg FileState.vertex state
  · exact (Journal.calls_append _ _).trans ((congrArg _ calls).trans (Journal.calls_append _ _).symm)
  · simp only [FileRequest.expandWith, FileRequest.conclude, without, Journal.diagnostics_append, List.append_assoc]
    exact congrArg _ reports.without
  · simp only [FileRequest.expandWith, FileRequest.conclude, Journal.diagnostics_append, List.append_assoc]
    exact congrArg _ reports.within

/-- A file with a uniform that has something between its value, which is no number of its type, and the semicolon. -/
def overfullText : String :=
  "in vec2 p;\nuniform int n = 99999999999, ;\n#include \"b.glsl\"\nuniform float x;\n"

/-- The file, and the one that it includes. -/
def overfullFiles : MemoryFiles :=
  (MemoryFiles.empty.put "a.glsl" [some overfullText]).put "b.glsl" [some "uniform bool b;\n"]

/-- The uniform in it. -/
def overfullUniform : UniformAmong where
  before := (lex overfullText).take 7
  word := ⟨.keyword, "uniform", 2⟩
  body := ((lex overfullText).drop 8).take 10
  stop := ⟨.semicolon, ";", 2⟩
  after := (lex overfullText).drop 19
  uniform := by decide +kernel
  first := by unfold Phrase.NoSemicolon; decide +kernel
  semicolon := rfl

/-- The number and the comma are reported, and the file goes on with the directive behind the uniform. -/
theorem expandFile_recovers_overfull :
    let r : FileRequest := ⟨⟨"a.glsl"⟩, false, .empty, .empty⟩
    let e := expandFile MemoryFiles.provider 2 r overfullFiles
    let store := (MemoryFiles.provider.load overfullFiles r.path).2
    let without := r.expandWith MemoryFiles.provider (expandFile MemoryFiles.provider 1) store overfullText
      overfullUniform.others
    lex overfullText = overfullUniform.tokens ∧ e.result.scope = without.result.scope ∧
      e.result.scope.uniforms.keys = ["b", "x"] ∧ Journal.calls e.journal = Journal.calls without.journal ∧
      Journal.calls e.journal = [.load ⟨"a.glsl"⟩, .resolve "b.glsl", .load ⟨"b.glsl"⟩] ∧
      Journal.diagnostics r.path without.journal = [] ∧
      Journal.diagnostics r.path e.journal =
        [⟨"a.glsl", 2, .badNumber "99999999999"⟩, ⟨"a.glsl", 2, .unexpected "a semicolon" ","⟩] := by
  intro r e store without
  have loaded : (MemoryFiles.provider.load overfullFiles r.path).1 = .ok overfullText := by decide +kernel
  have tokens : lex overfullText = overfullUniform.tokens := by decide +kernel
  have plain : ∀ t ∈ overfullUniform.before, t.role = .plain := by decide +kernel
  have reached := (r.context MemoryFiles.provider (expandFile MemoryFiles.provider 1)).leads_of_transcript
    (.of_plain .empty plain) (r.initial store) (.start overfullUniform.tokens) overfullUniform.cursor.ahead rfl
    (by rw [UniformAmong.ahead_cursor]; rfl)
  have fails : (Reader.uniform (r.initial store).scope.structs overfullUniform.cursor).value = none := by
    decide +kernel
  obtain ⟨scope, -, -, -, calls, -⟩ := expandFile_recovers MemoryFiles.provider 1 r overfullFiles (by decide +kernel)
    loaded tokens reached fails
  refine ⟨tokens, scope, ?_, calls, ?_, ?_, ?_⟩ <;> decide +kernel

end ShaderWeave
