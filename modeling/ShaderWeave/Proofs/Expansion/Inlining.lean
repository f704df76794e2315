import ShaderWeave.Proofs.Expansion.Sharing
import ShaderWeave.Proofs.Expansion.Twins
import ShaderWeave.Provider.Memory

/-!
# Tokens in place of an inclusion

To include a file that asks for no other file means to write its tokens in the place of the directive. The main result,
`expandFile_inlined`, says so of every directive that is reached in a file without a problem: with the tokens of the
included file in its place, and this file visited from the start, the same text is put out, the same is declared and the
same files are visited, again without a problem.

Up to the directive the two expansions are twins, with the included file as the extra one. At the directive one of them
expands a file and merges what comes back, and the other reads a transcript (`Includes.exists_transcript`). After it
they are twins with nothing extra.
-/

namespace ShaderWeave

variable {σ : Type}

/-- A directive that includes a file, among the other tokens of its file. -/
structure Inclusion where
  /-- The tokens before. -/
  before : List Token
  /-- The directive. -/
  directive : Token
  /-- The blanks between the directive and the name. -/
  blanks : List Token
  /-- The name of the file. -/
  name : Token
  /-- The tokens after. -/
  after : List Token
  /-- The directive includes a file. -/
  inclusion : directive.role = .inclusion
  /-- Nothing but blanks stands before the name. -/
  blank : ∀ b ∈ blanks, b.isBlank = true
  /-- The name is a string. -/
  string : name.kind = .string

namespace Inclusion

/-- All tokens of the file. -/
def tokens (i : Inclusion) : List Token :=
  i.before ++ i.directive :: (i.blanks ++ i.name :: i.after)

/-- The tokens of the file with others in the place of the directive and the name. -/
def inlined (i : Inclusion) (ts : List Token) : List Token :=
  i.before ++ (i.blanks ++ ts ++ i.after)

/-- The cursor on the directive. -/
def cursor (i : Inclusion) : Cursor :=
  (Cursor.start i.tokens).skip i.before.length

theorem ahead_cursor (i : Inclusion) : i.cursor.ahead = i.directive :: (i.blanks ++ i.name :: i.after) :=
  List.drop_left

theorem ahead_skip_cursor (i : Inclusion) : (i.cursor.skip (i.blanks.length + 1 + 1)).ahead = i.after := by
  rw [Cursor.ahead_skip, ahead_cursor, List.drop_succ_cons, ← List.drop_drop, List.drop_left]
  rfl

theorem cursor_meets (i : Inclusion) : i.cursor.Meets i.blanks i.name i.after where
  split := by rw [ahead_cursor, List.drop_one, List.tail_cons]
  blanks := i.blank
  solid := by simp [Token.isBlank, i.string]

/-- The cursor after the tokens before, where the directive is replaced. -/
def inlinedCursor (i : Inclusion) (ts : List Token) : Cursor :=
  (Cursor.start (i.inlined ts)).skip i.before.length

theorem ahead_inlinedCursor (i : Inclusion) (ts : List Token) :
    (i.inlinedCursor ts).ahead = i.blanks ++ ts ++ i.after :=
  List.drop_left

theorem ahead_skip_inlinedCursor (i : Inclusion) (ts : List Token) :
    ((i.inlinedCursor ts).skip (i.blanks ++ ts).length).ahead = i.after := by
  rw [Cursor.ahead_skip, ahead_inlinedCursor, List.drop_left]

/-- The tokens before lead to a state in which the directive includes a file for the first time, and this file asks for
no other one. -/
structure Includes (i : Inclusion) (ctx : FileContext σ) (start s : FileState σ) (path : Path) (text : String) :
    Prop where
  /-- The directive is the start of a construct. -/
  reached : ∃ j, ctx.Leads start (.start i.tokens) j s i.cursor
  /-- The name stands for the file. -/
  resolved : ctx.provider.resolve s.store i.name.text = .ok path
  /-- The file has not been included. -/
  unvisited : path ∉ s.visited
  /-- The file is not being expanded. -/
  inactive : path ∉ ctx.active
  /-- The file is no vertex shader. -/
  ordinary : path.isVertex = false
  /-- The text of the file. -/
  loaded : (ctx.provider.load s.store path).1 = .ok text
  /-- The file asks for no other one. -/
  own : ∀ t ∈ lex text, t.IsOwn

/-- The directive asks for the file. -/
theorem read_cursor (i : Inclusion) (ctx : FileContext σ) (s : FileState σ) : ctx.read s i.cursor =
    ⟨some (.request .included i.name.text i.name.line), i.blanks.length + 1, i.blanks.map .copy⟩ := by
  rw [FileContext.read, Reader.construct_of_inclusion i.ahead_cursor i.inclusion]
  exact Reader.request_apply i.cursor_meets i.string

section Step

variable {i : Inclusion} {ctx : FileContext σ} {start s : FileState σ} {path : Path} {text : String}

/-- The file is expanded, and its scope is merged. -/
theorem Includes.finish_eq (h : i.Includes ctx start s path text) {e : Expansion σ}
    (he : ctx.nested (ctx.order s .included path) s.store = e) :
    ctx.finish s i.cursor (ctx.read s i.cursor) = (s.adopt .included e, (i.blanks.map .copy).map .output ++
      (.request .included i.name.text :: .resolve i.name.text (.ok path) ::
        .expand .included (ctx.order s .included path) e.result e.journal ::
        if s.vertex.isSome && e.result.vertex.isSome then [.problem .secondVertexShader i.name.line] else [])) := by
  subst he
  have opened := ctx.includePath_of_fresh h.unvisited h.inactive i.name.line
  rw [i.read_cursor]
  simp [FileContext.finish, FileContext.perform, FileContext.openRequest, h.resolved, FileContext.openPath, opened]

/-- **An inclusion without a problem does what the tokens of the file do.** -/
theorem Includes.exists_transcript (h : i.Includes ctx start s path text) {depth : Nat}
    (nested : ctx.nested = expandFile ctx.provider (depth + 1)) {x : FileState σ × Journal}
    (hf : ctx.finish s i.cursor (ctx.read s i.cursor) = x) (clean : Journal.diagnostics ctx.path x.2 = []) :
    ∃ t outs, Transcript s.scope (lex text) t outs ∧ x.1.scope = t ∧ x.1.vertex = s.vertex ∧
      x.1.visited = s.visited.insert path ∧ Journal.written ctx.path x.2 = i.blanks ++ writtenTokens outs := by
  obtain ⟨e, he⟩ : ∃ e, ctx.nested (ctx.order s .included path) s.store = e := ⟨_, rfl⟩
  rw [h.finish_eq he] at hf
  subst hf
  rw [nested] at he
  have inner : Journal.diagnostics path e.journal = [] := by
    simp only [Journal.diagnostics_append, Journal.diagnostics, Entry.diagnostics, List.nil_append] at clean
    exact (List.append_eq_nil_iff.1 (List.append_eq_nil_iff.1 clean).2).1
  rw [← he] at inner
  obtain ⟨names, -, t, outs, transcript⟩ :=
    exists_transcript_of_clean (r := ctx.order s .included path) depth h.loaded h.own inner
  have expanded := expandFile_of_transcript depth names h.loaded transcript
  have grown := (expandFile_growsTo ctx.provider (depth + 1) (ctx.order s .included path) s.store).merge_eq
  rw [expanded] at grown he
  subst he
  refine ⟨t, outs, transcript, grown, ?_, rfl, ?_⟩
  · simp [FileState.adopt, FileRequest.conclude, FileRequest.initial, h.ordinary]
  · have inner : Journal.written path (opening path text ++ outs.map .output) = writtenTokens outs := by
      rw [written_opening_append, Journal.written_map_output]
    rw [Journal.written_append, Journal.written_map_output, writtenTokens_copy, ← inner]
    simp [Journal.written, Journal.emissions, Entry.emissions, FileRequest.conclude, FileRequest.initial, h.ordinary]

/-- **In a file without a problem, the tokens of a file may stand in the place of its inclusion.** -/
theorem Includes.walk_inlined (h : i.Includes ctx start s path text) {depth : Nat}
    (nested : ctx.nested = expandFile ctx.provider (depth + 1)) {base : σ} (tame : ctx.Tame base)
    (hr : ctx.provider.Reaches base start.store) (truthful : ∀ t ∈ i.tokens, t.Truthful)
    (clean : Journal.diagnostics ctx.path (ctx.walk start (.start i.tokens)).2 = []) {start' : FileState σ}
    (hs : start.Twin (· = path) start') (hr' : ctx.provider.Reaches base start'.store) :
    let x := ctx.walk start (.start i.tokens)
    let x' := ctx.walk start' (.start (i.inlined (lex text)))
    x.1.Twin NoPath x'.1 ∧ Journal.written ctx.path x'.2 = Journal.written ctx.path x.2 ∧
      Journal.diagnostics ctx.path x'.2 = [] := by
  obtain ⟨j, leads⟩ := h.reached
  have reached := hr.trans (leads.run.reaches tame.reaches)
  have reached₁ := reached.trans ((ctx.finish_run s i.cursor (ctx.read s i.cursor)).reaches tame.reaches)
  have whole := leads.walk_eq_further (by simp [ahead_cursor])
  generalize hf : ctx.finish s i.cursor (ctx.read s i.cursor) = one at whole reached₁
  rw [i.read_cursor] at whole
  simp only [whole, Journal.diagnostics_append, List.append_eq_nil_iff] at clean
  obtain ⟨clean, clean₁, clean₂⟩ := clean
  -- Up to the directive there is one extra file.
  have before : (Cursor.start i.tokens).ahead = i.before ++ i.cursor.ahead := by rw [ahead_cursor]; rfl
  have unincluded : ∀ p, p = path → p ∉ ctx.active ∧ p ∉ s.visited := by
    rintro p rfl
    exact ⟨h.inactive, h.unvisited⟩
  obtain ⟨j', s', leads', twin⟩ := leads.twin tame hr truthful clean unincluded hr' hs before
    (rfl : (Cursor.start (i.inlined (lex text))).ahead = _) (.inl rfl)
  -- One reads a transcript where the other includes a file.
  obtain ⟨t, outs, transcript, scope, vertex, visited, written⟩ := h.exists_transcript nested hf clean₁
  rw [← twin.state.scope] at transcript
  have transcript := (Transcript.of_plain s'.scope fun b hb => Token.role_of_isBlank (i.blank b hb)).append transcript
  have leads' := leads'.trans
    (ctx.leads_of_transcript transcript s' (i.inlinedCursor (lex text)) i.after rfl (i.ahead_inlinedCursor _))
  -- After the directive there is nothing extra.
  have same : one.1.Twin NoPath { s' with scope := t } := by
    refine ⟨scope.symm, twin.state.vertex.trans vertex.symm, adds_noPath.2 fun p => ?_⟩
    rw [visited, PathSet.mem_insert, twin.state.visited p, or_comm]
  have truthful' : ∀ t ∈ (i.cursor.skip (i.blanks.length + 1 + 1)).ahead, t.Truthful := by
    intro t ht
    rw [ahead_skip_cursor] at ht
    exact truthful t (by simp [tokens, ht])
  have rest := FileContext.walk_twin tame same reached₁ (hr'.trans (leads'.run.reaches tame.reaches)) truthful' clean₂
    (fun p hp => hp.elim) ((i.ahead_skip_inlinedCursor (lex text)).trans i.ahead_skip_cursor.symm)
    (.inr (Nat.succ_pos _))
  rw [whole, leads'.walk_eq]
  refine ⟨rest.state, ?_, ?_⟩
  · simp only [Journal.written_append, Journal.written_map_output, writtenTokens_append, writtenTokens_copy]
    rw [twin.journal.written, rest.journal.written, written, List.append_assoc]
  · simp only [Journal.diagnostics_append]
    rw [twin.journal.diagnostics, clean, Journal.diagnostics_map_output, transcript.filterMap_fault?,
      rest.journal.diagnostics, clean₂]
    rfl

end Step

end Inclusion

/-- **Including a file means writing its tokens.** In a file without a problem, a directive is reached that includes a
file which asks for no other one, for the first time and not within itself. With the tokens of that file in the place of
the directive and the name, and that file visited from the start, the tokens are expanded to the same text without a
problem, and the same is declared, the same files are visited and the same vertex shader is found. -/
theorem expandFile_inlined {provider : Provider σ} {store store' : σ} (pure : provider.IsPure store)
    (reached : provider.Reaches store store') (depth : Nat) (r : FileRequest) {content : String}
    (loaded : (provider.load store r.path).1 = .ok content)
    (clean : Journal.diagnostics r.path (expandFile provider (depth + 2) r store).journal = [])
    {i : Inclusion} (tokens : lex content = i.tokens) {s : FileState σ} {path : Path} {text : String}
    (h : i.Includes (r.context provider (expandFile provider (depth + 1))) (r.initial (provider.load store r.path).2)
      s path text) :
    let e := expandFile provider (depth + 2) r store
    let inlined := (r.context provider (expandFile provider (depth + 1))).expandTokens
      { r.initial store' with visited := r.chain.visited.insert path } (i.inlined (lex text))
    (Journal.woven r.path inlined.2).text = (Journal.woven r.path e.journal).text ∧
      inlined.1.scope = e.result.scope ∧ inlined.1.visited = e.result.chain.visited ∧
      (r.path.isVertex = false → inlined.1.vertex = e.result.vertex) ∧ Journal.diagnostics r.path inlined.2 = [] := by
  intro e inlined
  obtain ⟨-, -, clean, expanded⟩ := expandFile_of_clean (depth + 1) loaded clean
  have extra : (r.initial (provider.load store r.path).2).Twin (· = path)
      { r.initial store' with visited := r.chain.visited.insert path } :=
    ⟨rfl, rfl, fun p => by rw [PathSet.mem_insert, or_comm]; rfl⟩
  rw [tokens] at clean expanded
  obtain ⟨twin, written, clean'⟩ := h.walk_inlined rfl (tame_context pure (expandFile_twins pure (depth + 1)) r)
    (.load r.path .refl) (fun t ht => truthful_of_mem_lex (tokens ▸ ht)) clean extra reached
  have expanded : e = _ := expanded
  rw [expanded]
  refine ⟨?_, twin.scope, Std.ExtTreeSet.ext_mem (adds_noPath.1 twin.visited), fun ordinary => ?_, clean'⟩
  · rw [← String.toList_inj, Journal.toList_text_woven, Journal.toList_text_woven, FileRequest.conclude,
      written_opening_append]
    exact congrArg rendered written
  · rw [FileRequest.conclude, ordinary]
    exact twin.vertex

/-- A file that includes another one twice. -/
def twiceIncluding : String :=
  "in vec2 p;\n#include \"b.glsl\"\n#include \"b.glsl\"\nuniform float x;\n"

/-- The two files. -/
def twiceFiles : MemoryFiles :=
  (MemoryFiles.empty.put "a.glsl" [some twiceIncluding]).put "b.glsl" [some "uniform int n;\n"]

/-- The first of the two directives. -/
def firstInclusion : Inclusion where
  before := (lex twiceIncluding).take 7
  directive := ⟨.directive, "#include", 2⟩
  blanks := [⟨.whitespace, " ", 2⟩]
  name := ⟨.string, "b.glsl", 2⟩
  after := (lex twiceIncluding).drop 10
  inclusion := by decide +kernel
  blank := by decide +kernel
  string := rfl

/-- With the tokens of the file in the place of the first directive, the second one includes nothing as well. -/
theorem expandFile_inlined_first :
    let r : FileRequest := ⟨⟨"a.glsl"⟩, false, .empty, .empty⟩
    let e := expandFile MemoryFiles.provider 2 r twiceFiles
    let inlined := (r.context MemoryFiles.provider (expandFile MemoryFiles.provider 1)).expandTokens
      { r.initial twiceFiles with visited := r.chain.visited.insert ⟨"b.glsl"⟩ }
      (firstInclusion.inlined (lex "uniform int n;\n"))
    lex twiceIncluding = firstInclusion.tokens ∧ Journal.diagnostics r.path e.journal = [] ∧
      (Journal.woven r.path inlined.2).text = "in vec2 p;\n uniform int n;\n\n \nuniform float x;\n" ∧
      inlined.1.scope = e.result.scope ∧ inlined.1.visited = e.result.chain.visited ∧
      Journal.diagnostics r.path inlined.2 = [] := by
  intro r e inlined
  have loaded : (MemoryFiles.provider.load twiceFiles r.path).1 = .ok twiceIncluding := by decide +kernel
  have clean : Journal.diagnostics r.path e.journal = [] := by decide +kernel
  have tokens : lex twiceIncluding = firstInclusion.tokens := by decide +kernel
  have plain : ∀ t ∈ firstInclusion.before, t.role = .plain := by decide +kernel
  have reached := (r.context MemoryFiles.provider (expandFile MemoryFiles.provider 1)).leads_of_transcript
    (.of_plain .empty plain) (r.initial twiceFiles) (.start firstInclusion.tokens) firstInclusion.cursor.ahead rfl
    (by rw [Inclusion.ahead_cursor]; rfl)
  have settled : twiceFiles.Settled := (MemoryFiles.settled_empty.put _ _).put _ _
  have still : (MemoryFiles.provider.load twiceFiles r.path).2 = twiceFiles := settled.load_eq r.path
  have includes : firstInclusion.Includes (r.context MemoryFiles.provider (expandFile MemoryFiles.provider 1))
      (r.initial twiceFiles) (r.initial twiceFiles) ⟨"b.glsl"⟩ "uniform int n;\n" :=
    { reached := ⟨_, reached⟩
      resolved := by rfl
      unvisited := by decide +kernel
      inactive := by decide +kernel
      ordinary := by decide +kernel
      loaded := by rfl
      own := by decide +kernel }
  obtain ⟨text, scope, visited, -, clean'⟩ :=
    expandFile_inlined settled.isPure .refl 0 r loaded clean tokens (by rw [still]; exact includes)
  exact ⟨tokens, clean, text.trans (by decide +kernel), scope, visited, clean'⟩

end ShaderWeave
