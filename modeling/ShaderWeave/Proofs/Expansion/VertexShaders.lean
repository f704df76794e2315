import ShaderWeave.Proofs.Expansion.Cycles
import ShaderWeave.Proofs.Expansion.Declaring
import ShaderWeave.Proofs.Expansion.Placement
import ShaderWeave.Proofs.Reader.Requests
import ShaderWeave.Provider.Memory

/-!
# Which vertex shader counts

A file can come by a vertex shader in two ways: a file that it includes hands one back, or it links one. The first that
comes back counts, and nothing that comes later changes it. What comes later is reported, each on the line of its path:
a link before the path is resolved, an inclusion after the file has been expanded, and then all else that it hands back
is taken in. A vertex shader that is loaded counts as its own.

`FileContext.Reply` says what can come of a request, and `FileContext.Minds` what a construct does about vertex shaders.
The main result is `expandFile_first_vertex`. Of a whole file it says that there are as many reports as links, and
vertex shaders from included files, after the first one that has come back (`Journal.afterFirst`).
-/

namespace ShaderWeave

variable {σ : Type}

/-! ### Vertex shaders in a journal -/

/-- The vertex shader that comes back from the file that is opened with an entry. -/
def Entry.vertex? : Entry → Option Weave
  | .expand _ _ result _ => result.vertex
  | _ => none

/-- A vertex shader is asked for, or comes back from an included file. Where one has been found, that is a problem. -/
def Entry.isRival : Entry → Bool
  | .request .linked _ => true
  | .expand .included _ result _ => result.vertex.isSome
  | _ => false

namespace Journal

/-- The vertex shaders that come back from the files that a file opens, in order. -/
def vertices (j : Journal) : List Weave :=
  j.filterMap Entry.vertex?

/-- The entries after the first one with which a vertex shader comes back. -/
def afterFirst (j : Journal) : Journal :=
  (j.dropWhile fun e => e.vertex?.isNone).tail

/-- The lines on which a file itself reports a second vertex shader. -/
def seconds (j : Journal) : List Nat :=
  ((ownFaults j).filter fun f => f.1 = .secondVertexShader).map Prod.snd

theorem vertices_append (j k : Journal) : vertices (j ++ k) = vertices j ++ vertices k :=
  List.filterMap_append

theorem seconds_append (j k : Journal) : seconds (j ++ k) = seconds j ++ seconds k := by
  rw [seconds, ownFaults_append, List.filter_append, List.map_append]
  rfl

@[simp] theorem vertices_expand (m : Manner) (q : FileRequest) (result : FileResult) (body j : Journal) :
    vertices (.expand m q result body :: j) = result.vertex.toList ++ vertices j := by
  cases h : result.vertex <;> simp [vertices, Entry.vertex?, h]

@[simp] theorem vertices_problem (p : Problem) (line : Nat) : vertices [.output (.problem p line)] = [] := rfl

@[simp] theorem vertices_request (m : Manner) (written : String) (j : Journal) :
    vertices (.request m written :: j) = vertices j := rfl

@[simp] theorem seconds_expand (m : Manner) (q : FileRequest) (result : FileResult) (body j : Journal) :
    seconds (.expand m q result body :: j) = seconds j := rfl

@[simp] theorem vertices_nil : vertices [] = [] := rfl

@[simp] theorem seconds_nil : seconds [] = [] := rfl

@[simp] theorem seconds_second (line : Nat) : seconds [.output (.problem .secondVertexShader line)] = [line] :=
  rfl

@[simp] theorem seconds_request (m : Manner) (written : String) (j : Journal) :
    seconds (.request m written :: j) = seconds j := rfl

theorem vertices_map_output (os : List Output) : vertices (os.map .output) = [] := by
  simp [vertices, Entry.vertex?]

theorem vertices_eq_nil_iff {j : Journal} : vertices j = [] ↔ ∀ e ∈ j, e.vertex?.isNone := by
  simp [vertices]

theorem afterFirst_append_of_nil {j : Journal} (h : vertices j = []) (k : Journal) :
    afterFirst (j ++ k) = afterFirst k := by
  rw [afterFirst, List.dropWhile_append_of_pos (vertices_eq_nil_iff.1 h), afterFirst]

theorem afterFirst_of_none {j : Journal} (h : vertices j = []) : afterFirst j = [] := by
  rw [← List.append_nil j, afterFirst_append_of_nil h]
  rfl

theorem afterFirst_append_of_ne_nil {j : Journal} (h : vertices j ≠ []) (k : Journal) :
    afterFirst (j ++ k) = afterFirst j ++ k := by
  induction j with
  | nil => exact absurd rfl h
  | cons e j ih =>
    cases found : e.vertex? with
    | none =>
      have more : vertices j ≠ [] := by rwa [vertices, List.filterMap_cons_none found] at h
      simpa [afterFirst, found] using ih more
    | some w => simp [afterFirst, found]

/-- The rivals of the vertex shader among some entries, where one may have been found before them. -/
def rivals (found : Bool) (j : Journal) : Nat :=
  (if found then j else afterFirst j).countP Entry.isRival

theorem rivals_append (found : Bool) (j k : Journal) :
    rivals found (j ++ k) = rivals found j + rivals (found || !(vertices j).isEmpty) k := by
  cases found with
  | true => exact List.countP_append
  | false =>
    by_cases h : vertices j = []
    · simp [rivals, afterFirst_append_of_nil h, afterFirst_of_none h, h]
    · simp [rivals, afterFirst_append_of_ne_nil h, h]

theorem rivals_map_output_append (found : Bool) (os : List Output) (j : Journal) :
    rivals found (os.map .output ++ j) = rivals found j := by
  have none : rivals found (os.map .output) = 0 := by
    have count : (os.map Entry.output).countP Entry.isRival = 0 := by simp [List.countP_eq_zero, Entry.isRival]
    cases found <;> simp [rivals, afterFirst_of_none (vertices_map_output os), count]
  rw [rivals_append, none, vertices_map_output]
  simp

/-- Up to the first entry with which a vertex shader comes back there are no rivals. -/
theorem rivals_false_concat {j : Journal} (h : vertices j = []) (e : Entry) : rivals false (j ++ [e]) = 0 := by
  have none : afterFirst (j ++ [e]) = [] := by
    rw [afterFirst_append_of_nil h]
    cases found : e.vertex? <;> simp [afterFirst, found]
  simp [rivals, none]

end Journal

/-! ### What comes of a request -/

/-- Entries of a request that have nothing to do with vertex shaders. -/
inductive Entry.IsIdle : Entry → Prop
  /-- A path is resolved. -/
  | resolve (written : String) (answer : Except String Path) : IsIdle (.resolve written answer)
  /-- The file has been included before. -/
  | skip (path : Path) : IsIdle (.skip path)
  /-- Something else is wrong. -/
  | problem {p : Problem} (h : p ≠ .secondVertexShader) (line : Nat) : IsIdle (.problem p line)

namespace Journal

variable {j : Journal} (idle : ∀ e ∈ j, e.IsIdle)
include idle

theorem vertices_of_idle : vertices j = [] :=
  vertices_eq_nil_iff.2 fun e he => by cases idle e he <;> rfl

theorem seconds_of_idle : seconds j = [] := by
  induction j with
  | nil => rfl
  | cons e j ih =>
    rw [← List.singleton_append, seconds_append, ih fun e he => idle e (List.mem_cons_of_mem _ he), List.append_nil]
    cases idle e List.mem_cons_self with
    | problem h line => simp [seconds, ownFaults, own, Entry.own?, Entry.problem, Output.fault?, h]
    | _ => rfl

theorem countP_isRival_of_idle : j.countP Entry.isRival = 0 :=
  List.countP_eq_zero.2 fun e he => by cases idle e he <;> simp [Entry.isRival, Entry.problem]

theorem write_of_idle (file : Path) (w : Weave) : write file w j = w := by
  induction j with
  | nil => rfl
  | cons e j ih =>
    have still : Entry.write file w e = w := by cases idle e List.mem_cons_self <;> rfl
    rw [write, still, ih fun e he => idle e (List.mem_cons_of_mem _ he)]

theorem expand_notMem_of_idle (m : Manner) (q : FileRequest) (result : FileResult) (body : Journal) :
    .expand m q result body ∉ j :=
  fun he => by cases idle _ he

end Journal

namespace FileContext

/-- What can come of a request, as far as vertex shaders matter. -/
inductive Reply (ctx : FileContext σ) (s : FileState σ) (line : Nat) : Manner → FileState σ × Journal → Prop
  /-- A vertex shader is not linked where one has been found. -/
  | second (found : s.vertex.isSome) : Reply ctx s line .linked (s, [.problem .secondVertexShader line])
  /-- No file is opened, for another reason. -/
  | declined {m : Manner} {j : Journal} (vertexless : m = .linked → s.vertex = none) (idle : ∀ e ∈ j, e.IsIdle) :
    Reply ctx s line m (s, j)
  /-- A file is included. -/
  | included {j : Journal} (idle : ∀ e ∈ j, e.IsIdle) (clean : Journal.diagnostics ctx.path j = [])
    (q : FileRequest) (e : Expansion σ) :
    Reply ctx s line .included (s.adopt .included e, j ++ .expand .included q e.result e.journal ::
      if s.vertex.isSome && e.result.vertex.isSome then [.problem .secondVertexShader line] else [])
  /-- A vertex shader is linked where none has been found. -/
  | linked {j : Journal} (vertexless : s.vertex = none) (idle : ∀ e ∈ j, e.IsIdle) (q : FileRequest)
    (e : Expansion σ) :
    Reply ctx s line .linked (s.adopt .linked e, j ++ [.expand .linked q e.result e.journal])

variable (ctx : FileContext σ) (s : FileState σ)

theorem reply_includePath (path : Path) (line : Nat) : ctx.Reply s line .included (ctx.includePath path line s) := by
  by_cases hv : path ∈ s.visited
  · rw [includePath, if_pos hv]
    exact .declined (by simp) (by simpa using .skip path)
  by_cases ha : path ∈ ctx.active
  · rw [includePath, if_neg hv, if_pos ha]
    exact .declined (by simp) (by simpa using .problem (by simp) line)
  · rw [ctx.includePath_of_fresh hv ha]
    exact .included (j := []) (by simp) rfl _ _

theorem reply_linkPath (path : Path) (line : Nat) (vertexless : s.vertex = none) :
    ctx.Reply s line .linked (ctx.linkPath path line s) := by
  have check : ∀ e ∈ linkCheck path line, e.IsIdle := by
    rw [linkCheck]
    split_ifs
    · simp
    · simpa using .problem (by simp) line
  by_cases ha : path ∈ ctx.active
  · rw [ctx.linkPath_of_active ha]
    refine .declined (fun _ => vertexless) (List.forall_mem_append.2 ⟨check, ?_⟩)
    simpa using .problem (by simp) line
  · rw [ctx.linkPath_of_inactive ha]
    exact .linked vertexless check _ _

/-- **A request is answered in one of these ways.** -/
theorem reply_openRequest (m : Manner) (written : String) (line : Nat) :
    ctx.Reply s line m (ctx.openRequest m written line s) := by
  have resolved {answer : Except String Path} {r : FileState σ × Journal} (h : ctx.Reply s line m r)
      (free : m = .linked → s.vertex = none) : ctx.Reply s line m (r.1, .resolve written answer :: r.2) := by
    have first {j : Journal} (idle : ∀ e ∈ j, e.IsIdle) : ∀ e ∈ Entry.resolve written answer :: j, e.IsIdle :=
      List.forall_mem_cons.2 ⟨.resolve written answer, idle⟩
    cases h with
    | second found => simp [free rfl] at found
    | declined vertexless idle => exact .declined vertexless (first idle)
    | included idle clean q e => exact .included (first idle) clean q e
    | linked vertexless idle q e => exact .linked vertexless (first idle) q e
  rw [openRequest]
  split_ifs with h
  · obtain ⟨rfl, found⟩ := h
    exact .second found
  · have free : m = .linked → s.vertex = none := by simpa using h
    refine resolved ?_ free
    cases ctx.provider.resolve s.store written with
    | error cause => exact .declined free (by simpa using .problem (by simp) line)
    | ok path =>
      cases m with
      | included => exact ctx.reply_includePath s path line
      | linked => exact ctx.reply_linkPath s path line (free rfl)

section Reply

variable {ctx s} {line : Nat} {m : Manner} {r : FileState σ × Journal}

/-- A second vertex shader is reported if it is linked or if it comes back. -/
theorem Reply.seconds_eq (h : ctx.Reply s line m r) :
    Journal.seconds r.2 = if s.vertex.isSome ∧ (m = .linked ∨ Journal.vertices r.2 ≠ []) then [line] else [] := by
  cases h with
  | second found =>
    rw [if_pos ⟨found, .inl rfl⟩]
    rfl
  | declined vertexless idle =>
    rw [Journal.seconds_of_idle idle, Journal.vertices_of_idle idle, if_neg]
    rintro ⟨found, rfl | h⟩
    · simp [vertexless rfl] at found
    · exact h rfl
  | included idle _ q e =>
    rw [Journal.seconds_append, Journal.vertices_append, Journal.seconds_of_idle idle, Journal.vertices_of_idle idle]
    cases found : s.vertex with
    | none => simp
    | some w => cases back : e.result.vertex <;> simp [back, Entry.problem]
  | linked vertexless idle q e =>
    rw [Journal.seconds_append, Journal.seconds_of_idle idle, vertexless]
    rfl

/-- As many second vertex shaders are reported as there are rivals. -/
theorem Reply.length_seconds (h : ctx.Reply s line m r) (written : String) :
    (Journal.seconds r.2).length = Journal.rivals s.vertex.isSome (.request m written :: r.2) := by
  cases h with
  | second found =>
    rw [found]
    rfl
  | @declined m j vertexless idle =>
    have none := Journal.vertices_of_idle idle
    rw [Journal.seconds_of_idle idle]
    cases found : s.vertex with
    | none =>
      have none : Journal.vertices (.request m written :: j) = [] := none
      simp [Journal.rivals, Journal.afterFirst_of_none none]
    | some w =>
      have free : m = .included := by
        cases m with
        | included => rfl
        | linked => simp [vertexless rfl] at found
      simp [Journal.rivals, free, Entry.isRival, Journal.countP_isRival_of_idle idle]
  | @included j idle _ q e =>
    have none : Journal.vertices (.request .included written :: j) = [] := by simp [Journal.vertices_of_idle idle]
    rw [Journal.seconds_append, Journal.seconds_of_idle idle]
    cases found : s.vertex with
    | none =>
      rw [← List.cons_append]
      exact (Journal.rivals_false_concat none _).symm
    | some w =>
      cases back : e.result.vertex <;>
        simp [Journal.rivals, Entry.isRival, Entry.problem, Journal.countP_isRival_of_idle idle, back]
  | @linked j vertexless idle q e =>
    have none : Journal.vertices (.request .linked written :: j) = [] := by simp [Journal.vertices_of_idle idle]
    rw [Journal.seconds_append, Journal.seconds_of_idle idle, vertexless, ← List.cons_append]
    exact (Journal.rivals_false_concat none _).symm

end Reply

/-! ### What a construct does -/

/-- The expansion of an included file is taken in by a construct that reads `o`, between two states and with some
entries: what it declares and visits, its text and its diagnostics, in the place of the directive. -/
structure TakesIn (o : Outcome Action) (t : FileState σ) (j : Journal) (q : FileRequest) (result : FileResult)
    (body : Journal) : Prop where
  /-- What the file declares is declared. -/
  scope : t.scope = s.scope.merge result.scope
  /-- What it has visited is visited. -/
  visited : t.visited = result.chain.visited
  /-- Its text is appended. -/
  woven : ∀ before, Journal.woven ctx.path (before ++ j) =
    (Journal.woven ctx.path (before ++ o.output.map .output)).append (Journal.woven q.path body)
  /-- Its diagnostics come before a report about its vertex shader. -/
  diagnostics : Journal.diagnostics ctx.path j = Journal.diagnostics ctx.path (o.output.map .output) ++
    (Journal.diagnostics q.path body ++
      (Journal.seconds j).map fun line => ⟨ctx.path.text, line, .secondVertexShader⟩)

/-- What a construct does about vertex shaders, from a state to another and with some entries. -/
structure Minds (c : Cursor) (t : FileState σ) (j : Journal) : Prop where
  /-- The vertex shader that has been found stays, and otherwise the one counts that comes back. -/
  vertex : t.vertex = s.vertex.or (Journal.vertices j).head?
  /-- Where one has been found, a link is reported, and so is a vertex shader that comes back. -/
  directive : ∀ m path, c.Directs m path → Journal.seconds j =
    if s.vertex.isSome ∧ (m = .linked ∨ Journal.vertices j ≠ []) then [path.line] else []
  /-- What is no directive with a path is not about vertex shaders. -/
  other : (∀ m path, ¬ c.Directs m path) → Journal.seconds j = [] ∧ Journal.vertices j = []
  /-- Where one has been found, a link does nothing: no path is resolved, and no file is opened. -/
  link : ∀ path, c.Directs .linked path → s.vertex.isSome →
    t = s ∧ Journal.calls j = [] ∧ ∀ m q result body, .expand m q result body ∉ j
  /-- What is included is taken in, whether its vertex shader counts or not. -/
  inclusion : ∀ q result body, .expand .included q result body ∈ j →
    ctx.TakesIn s (ctx.read s c) t j q result body

section Minds

variable {ctx s} {t : FileState σ} {c d : Cursor} {j : Journal}

theorem Step.vertex_eq (h : ctx.Step s j t) : t.vertex = s.vertex.or (Journal.vertices j).head? := by
  cases h with
  | @expand m path admits =>
    cases m with
    | included => cases back : (ctx.nested (ctx.order s .included path) s.store).result.vertex <;>
        simp [FileState.adopt, back]
    | linked => cases back : (ctx.nested (ctx.order s .linked path) s.store).result.vertex <;>
        simp [FileState.adopt, back, admits.vertexless rfl]
  | _ => simp [Journal.vertices, Entry.vertex?]

/-- **The first vertex shader that comes back counts.** -/
theorem Run.vertex_eq (h : ctx.Run s j t) : t.vertex = s.vertex.or (Journal.vertices j).head? := by
  induction h with
  | done s => simp
  | step step _ ih => rw [ih, step.vertex_eq, Journal.vertices_append, List.head?_append, Option.or_assoc]

/-- Nothing that a construct reports while it is read is about a second vertex shader. -/
theorem seconds_output_read (hc : c.Ordered) :
    Journal.seconds ((ctx.read s c).output.map .output) = [] := by
  have found := (Reader.reporting_construct ctx.path ctx.standsAlone s.scope.structs c hc).found
  have other : (ctx.read s c).faults.filter (fun f => f.1 = .secondVertexShader) = [] := by
    refine List.filter_eq_nil_iff.2 fun f hf second => ?_
    have reading := found f hf
    rw [of_decide_eq_true second] at reading
    cases reading
  rw [Journal.seconds, Journal.ownFaults, Journal.own_map_output]
  exact congrArg _ other

theorem finish_of_request_fst {o : Outcome Action} {m : Manner} {written : String} {line : Nat}
    (h : o.value = some (.request m written line)) :
    (ctx.finish s c o).1 = (ctx.openRequest m written line s).1 := by
  rw [finish, h]
  rfl

/-- What is included is taken in. -/
theorem Reply.takesIn {o : Outcome Action} {m : Manner} {written : String} {line : Nat} {r : FileState σ × Journal}
    (h : ctx.Reply s line m r) (quiet : Journal.seconds (o.output.map .output) = []) {q : FileRequest}
    {result : FileResult} {body : Journal} (he : .expand .included q result body ∈ r.2) :
    ctx.TakesIn s o r.1 (o.output.map .output ++ .request m written :: r.2) q result body := by
  cases h with
  | second found => simp [Entry.problem] at he
  | declined vertexless idle => exact absurd he (Journal.expand_notMem_of_idle idle _ q result body)
  | @included j idle clean q' e =>
    obtain ⟨rfl, rfl, rfl⟩ : q = q' ∧ result = e.result ∧ body = e.journal := by
      rcases List.mem_append.1 he with he | he
      · exact absurd he (Journal.expand_notMem_of_idle idle _ q result body)
      · rcases List.mem_cons.1 he with he | he
        · simpa using he
        · split at he <;> simp [Entry.problem] at he
    refine ⟨rfl, rfl, fun before => ?woven, ?diagnostics⟩
    case woven =>
      have last : ∀ w : Weave, Journal.write ctx.path w
          (if s.vertex.isSome && e.result.vertex.isSome then [.problem .secondVertexShader line] else []) = w := by
        intro w
        split <;> rfl
      rw [← List.append_assoc, Journal.woven, Journal.write_append]
      simp only [Journal.write, Journal.write_append, Entry.write, Journal.write_of_idle idle, last, Journal.woven]
    case diagnostics =>
      have reported : ∀ both : Bool, Journal.diagnostics ctx.path
          (if both then [.problem .secondVertexShader line] else []) =
            (Journal.seconds (if both then [.problem .secondVertexShader line] else [])).map
              fun line => ⟨ctx.path.text, line, .secondVertexShader⟩ := by
        rintro (_ | _) <;> rfl
      rw [Journal.diagnostics_append, Journal.seconds_append, quiet, Journal.seconds_request, Journal.seconds_append,
        Journal.seconds_of_idle idle]
      simp only [Journal.diagnostics, Entry.diagnostics, Journal.diagnostics_append, clean, reported]
      simp
  | linked vertexless idle q' e =>
    rcases List.mem_append.1 he with he | he
    · exact absurd he (Journal.expand_notMem_of_idle idle _ q result body)
    · simp at he

/-- Where a vertex shader has been found, a link is reported and nothing else. -/
theorem Reply.eq_of_found {line : Nat} {r : FileState σ × Journal} (h : ctx.Reply s line .linked r)
    (found : s.vertex.isSome) : r = (s, [.problem .secondVertexShader line]) := by
  cases h with
  | second _ => rfl
  | declined vertexless _ => simp [vertexless rfl] at found
  | linked vertexless _ _ _ => simp [vertexless] at found

theorem minds_of_request {m : Manner} {written : String} {line : Nat}
    (value : (ctx.read s c).value = some (.request m written line)) (hc : c.Ordered) :
    ctx.Minds s c (ctx.finish s c (ctx.read s c)).1 (ctx.finish s c (ctx.read s c)).2 := by
  have quiet := ctx.seconds_output_read (s := s) hc
  have vertex := (ctx.finish_run s c (ctx.read s c)).vertex_eq
  have reply := ctx.reply_openRequest s m written line
  have asked {m' : Manner} {path : Token} (h : c.Directs m' path) : m = m' ∧ line = path.line := by
    have value' : (ctx.read s c).value = _ := Reader.construct_value_iff.2 ⟨path, h, rfl, rfl⟩
    have same := Option.some.inj (value.symm.trans value')
    injection same with manner _ line
    exact ⟨manner, line⟩
  rw [ctx.finish_of_request s c value, ctx.finish_of_request_fst value] at vertex ⊢
  refine ⟨vertex, fun m' path h => ?directive, fun h => ?other, fun path h found => ?link,
    fun q result body he => ?inclusion⟩
  case directive =>
    obtain ⟨rfl, rfl⟩ := asked h
    rw [Journal.seconds_append, quiet, Journal.vertices_append, Journal.vertices_map_output]
    exact reply.seconds_eq
  case other =>
    obtain ⟨path, directs, -⟩ := Reader.construct_value_iff.1 value
    exact absurd directs (h m path)
  case link =>
    obtain ⟨rfl, rfl⟩ := asked h
    rw [reply.eq_of_found found]
    refine ⟨rfl, ?_, by simp [Entry.problem]⟩
    rw [Journal.calls_append, Journal.calls_map_output]
    rfl
  case inclusion =>
    refine reply.takesIn quiet ?_
    simpa using he

theorem minds_of_silent (silent : ∀ m written line, (ctx.read s c).value ≠ some (.request m written line))
    (hc : c.Ordered) : ctx.Minds s c (ctx.finish s c (ctx.read s c)).1 (ctx.finish s c (ctx.read s c)).2 := by
  have undirected (m : Manner) (path : Token) : ¬ c.Directs m path :=
    fun h => silent _ _ _ (Reader.construct_value_iff.2 ⟨path, h, rfl, rfl⟩)
  obtain ⟨k, entries, abandoned⟩ := ctx.exists_silent_finish s c silent
  refine ⟨(ctx.finish_run s c (ctx.read s c)).vertex_eq, fun m path h => absurd h (undirected m path),
    fun _ => ?other, fun path h => absurd h (undirected _ path), fun q result body he => ?inclusion⟩
  case other =>
    rw [entries, Journal.seconds_append, seconds_output_read hc, Journal.vertices_append,
      Journal.vertices_map_output]
    rcases abandoned with rfl | ⟨line, rfl⟩ <;> exact ⟨rfl, rfl⟩
  case inclusion =>
    rw [entries] at he
    rcases abandoned with rfl | ⟨line, rfl⟩ <;> simp at he

/-- **What a construct does about vertex shaders.** -/
theorem minds_finish (hc : c.Ordered) :
    ctx.Minds s c (ctx.finish s c (ctx.read s c)).1 (ctx.finish s c (ctx.read s c)).2 := by
  by_cases asks : ∃ m written line, (ctx.read s c).value = some (.request m written line)
  · obtain ⟨m, written, line, value⟩ := asks
    exact minds_of_request value hc
  · exact minds_of_silent (fun m written line value => asks ⟨m, written, line, value⟩) hc

/-- As many second vertex shaders are reported for a construct as it has rivals. -/
theorem length_seconds_finish (hc : c.Ordered) : (Journal.seconds (ctx.finish s c (ctx.read s c)).2).length =
    Journal.rivals s.vertex.isSome (ctx.finish s c (ctx.read s c)).2 := by
  have quiet := ctx.seconds_output_read (s := s) hc
  by_cases asks : ∃ m written line, (ctx.read s c).value = some (.request m written line)
  · obtain ⟨m, written, line, value⟩ := asks
    rw [ctx.finish_of_request s c value, Journal.seconds_append, quiet, Journal.rivals_map_output_append]
    exact (ctx.reply_openRequest s m written line).length_seconds written
  · obtain ⟨k, entries, abandoned⟩ := ctx.exists_silent_finish s c (o := ctx.read s c)
      fun m written line value => asks ⟨m, written, line, value⟩
    rw [entries, Journal.seconds_append, quiet, Journal.rivals_map_output_append]
    rcases abandoned with rfl | ⟨line, rfl⟩ <;> cases s.vertex.isSome <;> rfl

/-- **From every stage on, there are as many reports as rivals of the vertex shader that has been found.** -/
theorem Leads.length_seconds (h : ctx.Leads s c j t d) (hc : c.Ordered) :
    (Journal.seconds j).length = Journal.rivals s.vertex.isSome j := by
  induction h with
  | here s c => cases found : s.vertex.isSome <;> simp [Journal.rivals, Journal.afterFirst]
  | @further s t c d j ahead leads ih =>
    have found : (ctx.finish s c (ctx.read s c)).1.vertex.isSome =
        (s.vertex.isSome || !(Journal.vertices (ctx.finish s c (ctx.read s c)).2).isEmpty) := by
      rw [(ctx.finish_run s c (ctx.read s c)).vertex_eq]
      cases s.vertex <;> cases Journal.vertices (ctx.finish s c (ctx.read s c)).2 <;> rfl
    rw [Journal.seconds_append, List.length_append, Journal.rivals_append, ih (hc.skip _), found,
      length_seconds_finish hc]

end Minds

end FileContext

/-! ### Whole files -/

/-- Which vertex shader a file hands back. -/
inductive FileRequest.Yields (r : FileRequest) (j : Journal) : Option Weave → Prop
  /-- A vertex shader that has been loaded counts as its own, whatever it includes or links. -/
  | own {content : String} (vertex : r.path.isVertex = true) (loaded : .load r.path (.ok content) ∈ j) :
    Yields r j (some (Journal.woven r.path j))
  /-- Otherwise the first one counts that comes back from a file that is opened. -/
  | first (h : r.path.isVertex = true → ∀ content, .load r.path (.ok content) ∉ j) :
    Yields r j (Journal.vertices j).head?

section Opening

variable (path : Path) (content : String)

theorem vertices_opening : Journal.vertices (opening path content) = [] :=
  Journal.vertices_eq_nil_iff.2 fun e he => by
    cases e with
    | expand m q result body => exact absurd he (expand_notMem_opening path content m q result body)
    | _ => rfl

theorem seconds_opening : Journal.seconds (opening path content) = [] := by
  rw [Journal.seconds, Journal.ownFaults_opening, List.filter_eq_nil_iff.2, List.map_nil]
  simp

end Opening

section OpenFile

variable {provider : Provider σ} {nested : FileRequest → σ → Expansion σ} {r : FileRequest} {store : σ}

theorem Opened.yields {e : Expansion σ} (h : Opened provider nested r store e) :
    r.Yields e.journal e.result.vertex := by
  cases h with
  | nameless _ => exact .first (by simp [Entry.problem])
  | unloaded _ _ => exact .first (by simp [Entry.problem])
  | @expanded content j s _ loaded run =>
    cases vertex : r.path.isVertex with
    | true =>
      have mem : Entry.load r.path (.ok content) ∈ opening r.path content ++ j := by simp [opening]
      simp only [FileRequest.conclude, vertex, if_true]
      exact .own vertex mem
    | false =>
      have first : s.vertex = (Journal.vertices (opening r.path content ++ j)).head? := by
        rw [run.vertex_eq, Journal.vertices_append, vertices_opening]
        rfl
      simp only [FileRequest.conclude, vertex, Bool.false_eq_true, if_false, first]
      exact .first (by simp [vertex])

theorem length_seconds_openFile (provider : Provider σ) (nested : FileRequest → σ → Expansion σ) (r : FileRequest)
    (store : σ) : (Journal.seconds (openFile provider nested r store).journal).length =
      Journal.rivals false (openFile provider nested r store).journal := by
  cases names : r.path.namesFile with
  | false => rw [openFile_of_nameless provider nested store names]; rfl
  | true =>
    cases loaded : (provider.load store r.path).1 with
    | error cause => rw [openFile_of_unloaded provider nested names loaded]; rfl
    | ok content =>
      obtain ⟨d, leads, -⟩ := (r.context provider nested).leads_walk (r.initial (provider.load store r.path).2)
        (.start (lex content))
      have ordered := Cursor.ordered_start (pairwise_line_lex content)
      rw [openFile_of_loaded provider nested names loaded]
      simp only [FileRequest.conclude]
      rw [Journal.seconds_append, seconds_opening, Journal.rivals_append, vertices_opening, List.nil_append,
        leads.length_seconds ordered]
      simp [Journal.rivals, Journal.afterFirst_of_none (vertices_opening r.path content), FileRequest.initial]

end OpenFile

/-- **The first vertex shader counts, and each later one is reported.** A file hands back the first vertex shader that
comes back from a file it opens, unless it is one itself. As many are reported as are asked for or come back afterwards,
and each construct does its part from every cursor and in every state. -/
theorem expandFile_first_vertex (provider : Provider σ) (depth : Nat) (r : FileRequest) (store : σ) :
    let e := expandFile provider depth r store
    r.Yields e.journal e.result.vertex ∧
    (∀ m q result body, .expand m q result body ∈ e.journal →
      ∃ d u, result = (expandFile provider d q u).result ∧ body = (expandFile provider d q u).journal) ∧
    (Journal.seconds e.journal).length = (Journal.afterFirst e.journal).countP Entry.isRival ∧
    ∀ (ctx : FileContext σ) (s : FileState σ) (text : String) (n : Nat),
      let c := (Cursor.start (lex text)).skip n
      ctx.Minds s c (ctx.finish s c (ctx.read s c)).1 (ctx.finish s c (ctx.read s c)).2 := by
  intro e
  refine ⟨?vertex, fun m q result body he => (order_of_mem_expandFile he).2.2, ?reports,
    fun ctx s text n => ctx.minds_finish ?construct⟩
  case vertex =>
    cases depth with
    | zero => exact .first (by simp [e, expandFile])
    | succ depth => exact (openFile_opened provider (expandFile provider depth) r store).yields
  case reports =>
    cases depth with
    | zero => rfl
    | succ depth =>
      have counted := length_seconds_openFile provider (expandFile provider depth) r store
      rwa [Journal.rivals, if_neg (by simp)] at counted
  case construct => exact (Cursor.ordered_start (pairwise_line_lex text)).skip n

/-- Of two links, the second one is reported, and its path is not resolved. -/
example :
    let files := (MemoryFiles.empty.put "a.frag" [some "#vertex_shader \"b.vert\"\n#vertex_shader \"c.vert\"\n"]).put
      "b.vert" [some "in vec2 p;\n"]
    let e := expandFile MemoryFiles.provider 2 (.entry ⟨"a.frag"⟩) files
    e.result.vertex.map Weave.text = some "in vec2 p;\n" ∧ Journal.seconds e.journal = [2] ∧
      Journal.calls e.journal = [.load ⟨"a.frag"⟩, .resolve "b.vert", .load ⟨"b.vert"⟩] := by
  decide +kernel

end ShaderWeave
