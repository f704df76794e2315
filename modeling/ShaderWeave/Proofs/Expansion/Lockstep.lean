import ShaderWeave.Proofs.Expansion.Run
import ShaderWeave.Proofs.Reader.Pairs

/-!
# Expansions in lockstep

Two expansions may start from other scopes, or ask other providers, and still do the same step by step. A `Comparison`
says in what they may differ: which stores, scopes, vertex shaders, variables, lines and journals belong together. What
is only known of the two journals as they turn out is supposed, and handed on to the parts of the journals.

* `Lockstep.finish`: constructs that are read alike are finished alike, if the files they open are expanded alike.
* `Comparison.Files.walk`: so are the constructs of one file, where only the scopes differ.
* `Comparison.Files.nested`: so are whole files, to any depth to which they open one another.
-/

namespace ShaderWeave

variable {σ τ : Type}

/-! ### What is compared -/

/-- What of two expansions belongs together. -/
structure Comparison (σ τ : Type) where
  /-- The stores of the providers. -/
  stores : σ → τ → Prop
  /-- The scopes. -/
  scopes : Scope → Scope → Prop
  /-- The vertex shaders that have been found. -/
  vertices : Option Weave → Option Weave → Prop
  /-- The variables that are declared. -/
  V : Variable → Variable → Prop
  /-- The lines of constructs. -/
  lines : Nat → Nat → Prop
  /-- The journals of a file. -/
  journals : Path → Journal → Journal → Prop
  /-- What is supposed of two journals of a file. -/
  supposed : Journal → Journal → Prop
  /-- A vertex shader has been found in both or in neither. -/
  isSome : ∀ {v v'}, vertices v v' → v'.isSome = v.isSome
  /-- Uniforms may be declared. -/
  declare : ∀ {t t' v v'}, scopes t t' → V v v' → scopes (t.declare v) (t'.declare v')
  /-- A struct type may be defined. -/
  define : ∀ {t t'} (name : String) {fields fields'}, scopes t t' → List.Forall₂ V fields fields' →
    scopes (t.define name fields) (t'.define name fields')
  /-- A journal belongs to itself. -/
  refl : ∀ file j, journals file j j
  /-- Journals that belong together may follow one another. -/
  append : ∀ {file j j' k k'}, journals file j j' → journals file k k' → journals file (j ++ k) (j' ++ k')
  /-- A problem may be reported. -/
  problem : ∀ file p {l l'}, lines l l' → journals file [.problem p l] [.problem p l']
  /-- A declaration may be abandoned. -/
  abandon : ∀ file {l l'}, lines l l' → journals file [.abandon l] [.abandon l']
  /-- What is supposed of journals is supposed of their first parts. -/
  supposed_left : ∀ {j j' k k'}, supposed (j ++ k) (j' ++ k') → supposed j j'
  /-- After journals that belong together, it is supposed of what follows. -/
  supposed_right : ∀ {file j j' k k'}, journals file j j' → supposed (j ++ k) (j' ++ k') → supposed k k'

namespace Comparison

/-! A comparison may ask scopes, variables or vertex shaders to be equal. -/

theorem isSome_of_eq {v v' : Option Weave} (h : v = v') : v'.isSome = v.isSome := by
  rw [h]

theorem declare_of_eq {t t' : Scope} {v v' : Variable} (ht : t = t') (hv : v = v') : t.declare v = t'.declare v' := by
  rw [ht, hv]

theorem define_of_eq {t t' : Scope} (name : String) {fields fields' : List Variable} (ht : t = t')
    (hf : List.Forall₂ Eq fields fields') : t.define name fields = t'.define name fields' := by
  rw [List.forall₂_eq_eq_eq] at hf
  rw [ht, hf]

variable (C : Comparison σ τ)

/-- Two states of files belong together. The same files have been included. -/
structure States (s : FileState σ) (s' : FileState τ) : Prop where
  /-- The stores belong together. -/
  store : C.stores s.store s'.store
  /-- So do the scopes. -/
  scope : C.scopes s.scope s'.scope
  /-- The same files have been included. -/
  visited : s'.visited = s.visited
  /-- The vertex shaders belong together. -/
  vertex : C.vertices s.vertex s'.vertex

/-- Two requests ask for the same file, from scopes that belong together. -/
structure Requests (q q' : FileRequest) : Prop where
  /-- The file is the same. -/
  path : q'.path = q.path
  /-- It may be a template in both or in neither. -/
  standsAlone : q'.standsAlone = q.standsAlone
  /-- The scopes belong together. -/
  scope : C.scopes q.scope q'.scope
  /-- The same files have been opened. -/
  chain : q'.chain = q.chain

/-- What two expansions hand back, but for the files they have included, belongs together. -/
structure Results (e : Expansion σ) (e' : Expansion τ) : Prop where
  /-- The stores. -/
  store : C.stores e.store e'.store
  /-- The scopes. -/
  scope : C.scopes e.result.scope e'.result.scope
  /-- The vertex shaders. -/
  vertex : C.vertices e.result.vertex e'.result.vertex

/-- Two expansions of a file belong together. -/
structure Expansions (file : Path) (e : Expansion σ) (e' : Expansion τ) : Prop extends C.Results e e' where
  /-- The same files have been included. -/
  chain : e'.result.chain = e.result.chain
  /-- The journals belong together. -/
  journal : C.journals file e.journal e'.journal

/-- Two states with what has happened since belong together. -/
structure Runs (file : Path) (x : FileState σ × Journal) (x' : FileState τ × Journal) : Prop where
  /-- The states belong together. -/
  state : C.States x.1 x'.1
  /-- So do the journals. -/
  journal : C.journals file x.2 x'.2

/-- Requests that belong together lead to expansions that do. -/
def Nested (nested : FileRequest → σ → Expansion σ) (nested' : FileRequest → τ → Expansion τ) : Prop :=
  ∀ q q' store store', C.Requests q q' → C.stores store store' →
    C.supposed (nested q store).journal (nested' q' store').journal →
    C.Expansions q.path (nested q store) (nested' q' store')

variable {C} {file : Path}

theorem States.still {s : FileState σ} {s' : FileState τ} (h : C.States s s') (j : Journal) :
    C.Runs file (s, j) (s', j) :=
  ⟨h, C.refl file j⟩

/-- What has happened before may be put in front. -/
theorem Runs.after {s : FileState σ} {s' : FileState τ} {j j' k k' : Journal} (hk : C.journals file k k')
    (h : C.Runs file (s, j) (s', j')) : C.Runs file (s, k ++ j) (s', k' ++ j') :=
  ⟨h.state, C.append hk h.journal⟩

end Comparison

/-! ### Constructs -/

/-- Two files are expanded side by side: they resolve paths alike, and what they open is expanded alike. -/
structure Lockstep (C : Comparison σ τ) (ctx : FileContext σ) (ctx' : FileContext τ) : Prop where
  /-- It is one file. -/
  path : ctx'.path = ctx.path
  /-- The same files are being expanded. -/
  active : ctx'.active = ctx.active
  /-- A written path stands for the same file. -/
  resolve : ∀ {s s'}, C.stores s s' → ∀ written, ctx'.provider.resolve s' written = ctx.provider.resolve s written
  /-- What is opened is expanded alike. -/
  expand : ∀ {s s' m path}, C.States s s' → ctx.Admits s m path →
    let q := ctx.order s m path
    let q' := ctx'.order s' m path
    let e := ctx.nested q s.store
    let e' := ctx'.nested q' s'.store
    C.supposed [.expand m q e.result e.journal] [.expand m q' e'.result e'.journal] →
      C.Runs ctx.path (s.adopt m e, [.expand m q e.result e.journal])
          (s'.adopt m e', [.expand m q' e'.result e'.journal]) ∧
        e'.result.vertex.isSome = e.result.vertex.isSome

namespace Lockstep

variable {C : Comparison σ τ} {ctx : FileContext σ} {ctx' : FileContext τ} (h : Lockstep C ctx ctx')
  {s : FileState σ} {s' : FileState τ} (hs : C.States s s') {l l' : Nat}
include h hs

theorem includePath (hl : C.lines l l') {path : Path}
    (hj : C.supposed (ctx.includePath path l s).2 (ctx'.includePath path l' s').2) :
    C.Runs ctx.path (ctx.includePath path l s) (ctx'.includePath path l' s') := by
  by_cases hv : path ∈ s.visited
  · have hv' : path ∈ s'.visited := hs.visited ▸ hv
    rw [FileContext.includePath, FileContext.includePath, if_pos hv, if_pos hv']
    exact hs.still _
  have hv' : path ∉ s'.visited := hs.visited ▸ hv
  by_cases ha : path ∈ ctx.active
  · have ha' : path ∈ ctx'.active := h.active ▸ ha
    rw [FileContext.includePath, FileContext.includePath, if_neg hv, if_neg hv', if_pos ha, if_pos ha', h.path]
    exact ⟨hs, C.problem ctx.path _ hl⟩
  · have ha' : path ∉ ctx'.active := h.active ▸ ha
    rw [ctx.includePath_of_fresh hv ha, ctx'.includePath_of_fresh hv' ha'] at hj ⊢
    obtain ⟨⟨state, opened⟩, found⟩ := h.expand hs ⟨ha, fun _ => hv, by simp⟩ (C.supposed_left (j := [_]) hj)
    have second {both both' : Bool} (hb : both' = both) :
        C.journals ctx.path (if both then [.problem .secondVertexShader l] else [])
          (if both' then [.problem .secondVertexShader l'] else []) := by
      subst hb
      cases both' with
      | true => exact C.problem ctx.path _ hl
      | false => exact C.refl ctx.path []
    exact ⟨state, C.append (j := [_]) opened (second (by rw [C.isSome hs.vertex, found]))⟩

theorem linkPath (hl : C.lines l l') {path : Path} (unfound : s.vertex = none)
    (hj : C.supposed (ctx.linkPath path l s).2 (ctx'.linkPath path l' s').2) :
    C.Runs ctx.path (ctx.linkPath path l s) (ctx'.linkPath path l' s') := by
  have check : C.journals ctx.path (FileContext.linkCheck path l) (FileContext.linkCheck path l') := by
    rw [FileContext.linkCheck, FileContext.linkCheck]
    split
    · exact C.refl ctx.path []
    · exact C.problem ctx.path _ hl
  by_cases ha : path ∈ ctx.active
  · have ha' : path ∈ ctx'.active := h.active ▸ ha
    rw [ctx.linkPath_of_active ha, ctx'.linkPath_of_active ha', h.path]
    exact .after check ⟨hs, C.problem ctx.path _ hl⟩
  · have ha' : path ∉ ctx'.active := h.active ▸ ha
    rw [ctx.linkPath_of_inactive ha, ctx'.linkPath_of_inactive ha'] at hj ⊢
    exact .after check (h.expand hs ⟨ha, by simp, fun _ => unfound⟩ (C.supposed_right check hj)).1

theorem openRequest (hl : C.lines l l') {m : Manner} {written : String}
    (hj : C.supposed (ctx.openRequest m written l s).2 (ctx'.openRequest m written l' s').2) :
    C.Runs ctx.path (ctx.openRequest m written l s) (ctx'.openRequest m written l' s') := by
  rw [FileContext.openRequest, FileContext.openRequest, C.isSome hs.vertex, h.resolve hs.store] at hj ⊢
  by_cases hm : m = .linked ∧ s.vertex.isSome
  · rw [if_pos hm, if_pos hm]
    exact ⟨hs, C.problem ctx.path _ hl⟩
  · rw [if_neg hm, if_neg hm] at hj ⊢
    have resolved := C.refl ctx.path [.resolve written (ctx.provider.resolve s.store written)]
    have hj := C.supposed_right resolved hj
    refine .after resolved ?_
    cases hr : ctx.provider.resolve s.store written with
    | error cause => exact ⟨hs, C.problem ctx.path _ hl⟩
    | ok path =>
      rw [hr] at hj
      cases m with
      | included => exact h.includePath hs hl hj
      | linked => exact h.linkPath hs hl (by simpa using hm) hj

theorem perform {a a' : Action} (ha : a.Like C.lines C.V a')
    (hj : C.supposed (ctx.perform s a).2 (ctx'.perform s' a').2) :
    C.Runs ctx.path (ctx.perform s a) (ctx'.perform s' a') := by
  cases ha with
  | nothing => exact hs.still []
  | declare hv => exact ⟨⟨hs.store, C.declare hs.scope hv, hs.visited, hs.vertex⟩, C.refl ctx.path []⟩
  | define name hf => exact ⟨⟨hs.store, C.define name hs.scope hf, hs.visited, hs.vertex⟩, C.refl ctx.path []⟩
  | request m written hl =>
    have asked := C.refl ctx.path [.request m written]
    exact .after asked (h.openRequest hs hl (C.supposed_right asked hj))

/-- **Constructs that are read alike are finished alike.** -/
theorem finish {c c' : Cursor} {o o' : Outcome Action} (value : Option.Rel (Action.Like C.lines C.V) o.value o'.value)
    (output : C.journals ctx.path (o.output.map .output) (o'.output.map .output))
    (line : C.lines (c.skip o.steps).line (c'.skip o'.steps).line)
    (hj : C.supposed (ctx.finish s c o).2 (ctx'.finish s' c' o').2) :
    C.Runs ctx.path (ctx.finish s c o) (ctx'.finish s' c' o') := by
  rw [FileContext.finish, FileContext.finish] at hj ⊢
  have hj := C.supposed_right output hj
  refine .after output ?_
  cases hv : o.value with
  | none =>
    cases hv' : o'.value with
    | some a' => simp [hv, hv'] at value
    | none => exact ⟨hs, C.abandon ctx.path line⟩
  | some a =>
    cases hv' : o'.value with
    | none => simp [hv, hv'] at value
    | some a' =>
      rw [hv, hv'] at hj value
      exact h.perform hs (by simpa using value) hj

end Lockstep

/-! ### Whole files -/

/-- The first thing that happens to a file is that it is loaded. -/
theorem exists_journal_of_openFile (provider : Provider σ) (nested : FileRequest → σ → Expansion σ) {r : FileRequest}
    (store : σ) (hn : r.path.namesFile = true) :
    ∃ j, (openFile provider nested r store).journal = .load r.path (provider.load store r.path).1 :: j := by
  cases hl : (provider.load store r.path).1 with
  | error cause =>
    rw [openFile_of_unloaded provider nested hn hl]
    exact ⟨_, rfl⟩
  | ok content =>
    rw [openFile_of_loaded provider nested hn hl]
    exact ⟨_, rfl⟩

namespace Comparison

/-- What is to be shown of a comparison so that whole files are expanded in lockstep. -/
structure Files (C : Comparison σ τ) (provider : Provider σ) (provider' : Provider τ) : Prop where
  /-- Lines are compared by what they are. -/
  lines : C.lines = Eq
  /-- A variable belongs to itself. -/
  self : ∀ v, C.V v v
  /-- In scopes that belong together, the same words name types. -/
  types : ∀ {t t'}, C.scopes t t' → t.structs.Like C.V t'.structs
  /-- Scopes that belong together may be merged. -/
  merge : ∀ {t t' u u'}, C.scopes t t' → C.scopes u u' → C.scopes (t.merge u) (t'.merge u')
  /-- At first, no vertex shader has been found. -/
  none : C.vertices none none
  /-- The first vertex shader counts. -/
  orElse : ∀ {v v' w w'}, C.vertices v v' → C.vertices w w' → C.vertices (v <|> w) (v' <|> w')
  /-- A vertex shader counts as its own. -/
  woven : ∀ {file j j'}, C.journals file j j' →
    C.vertices (some (Journal.woven file j)) (some (Journal.woven file j'))
  /-- A written path stands for the same file. -/
  resolve : ∀ {s s'}, C.stores s s' → ∀ written, provider'.resolve s' written = provider.resolve s written
  /-- Loading a file leads to stores that belong together. -/
  stores : ∀ {s s'}, C.stores s s' → ∀ path, C.stores (provider.load s path).2 (provider'.load s' path).2
  /-- A file that is loaded has the same text. -/
  load : ∀ {s s'}, C.stores s s' → ∀ path,
    C.supposed [.load path (provider.load s path).1] [.load path (provider'.load s' path).1] →
    (provider'.load s' path).1 = (provider.load s path).1
  /-- What is supposed of a file is supposed of a file it includes. -/
  supposed : ∀ {q q' : FileRequest} {result result' : FileResult} {j j' : Journal},
    C.supposed [.expand .included q result j] [.expand .included q' result' j'] → C.supposed j j'
  /-- A file may be included. -/
  included : ∀ file {q q' : FileRequest} {e : Expansion σ} {e' : Expansion τ}, C.Requests q q' →
    C.Expansions q.path e e' →
    C.journals file [.expand .included q e.result e.journal] [.expand .included q' e'.result e'.journal]
  /-- A vertex shader may be linked. -/
  linked : ∀ file depth {q q' : FileRequest} {s : σ} {s' : τ}, C.Requests q q' → C.stores s s' →
    C.Nested (expandFile provider depth) (expandFile provider' depth) →
    let e := expandFile provider depth q s
    let e' := expandFile provider' depth q' s'
    C.supposed [.expand .linked q e.result e.journal] [.expand .linked q' e'.result e'.journal] →
      C.Results e e' ∧
        C.journals file [.expand .linked q e.result e.journal] [.expand .linked q' e'.result e'.journal]

namespace Files

variable {C : Comparison σ τ} {provider : Provider σ} {provider' : Provider τ} (h : C.Files provider provider')
  {r r' : FileRequest} (hr : C.Requests r r')
include h

include hr in
omit h in
theorem order {depth : Nat} {s : FileState σ} {s' : FileState τ} (hs : C.States s s') (m : Manner) (path : Path) :
    C.Requests ((r.context provider (expandFile provider depth)).order s m path)
      ((r'.context provider' (expandFile provider' depth)).order s' m path) := by
  have active : r'.chain.active ++ [r'.path] = r.chain.active ++ [r.path] := by rw [hr.chain, hr.path]
  cases m with
  | included => exact ⟨rfl, rfl, hs.scope, by simp [FileContext.order, FileRequest.context, active, hs.visited]⟩
  | linked => exact ⟨rfl, rfl, hs.scope, by simp [FileContext.order, FileRequest.context, active]⟩

include hr in
/-- Requests that belong together start files in lockstep, if what they open is expanded alike. -/
theorem lockstep {depth : Nat} (nested : C.Nested (expandFile provider depth) (expandFile provider' depth)) :
    Lockstep C (r.context provider (expandFile provider depth))
      (r'.context provider' (expandFile provider' depth)) where
  path := hr.path
  active := by simp [FileRequest.context, hr.chain, hr.path]
  resolve := h.resolve
  expand := by
    intro s s' m path hs admits q q' e e' hj
    have order : C.Requests q q' := order hr hs m path
    cases m with
    | included =>
      have child := nested q q' s.store s'.store order hs.store (h.supposed hj)
      refine ⟨⟨⟨child.store, h.merge hs.scope child.scope, ?_, h.orElse hs.vertex child.vertex⟩, ?_⟩, ?_⟩
      · exact congrArg Chain.visited child.chain
      · exact h.included _ order child
      · exact C.isSome child.vertex
    | linked =>
      obtain ⟨child, journal⟩ := h.linked _ depth order hs.store nested hj
      refine ⟨⟨⟨child.store, h.merge hs.scope child.scope, hs.visited, child.vertex⟩, journal⟩, ?_⟩
      exact C.isSome child.vertex

include hr in
theorem walk {depth : Nat} (nested : C.Nested (expandFile provider depth) (expandFile provider' depth))
    (s : FileState σ) (c : Cursor) :
    let ctx := r.context provider (expandFile provider depth)
    let ctx' := r'.context provider' (expandFile provider' depth)
    ∀ s', C.States s s' → C.supposed (ctx.walk s c).2 (ctx'.walk s' c).2 →
      C.Runs r.path (ctx.walk s c) (ctx'.walk s' c) := by
  intro ctx ctx'
  induction s, c using ctx.walk_induction with
  | done s c hc =>
    intro s' hs _
    rw [ctx.walk_of_end hc, ctx'.walk_of_end hc]
    exact hs.still []
  | more s c hc ih =>
    intro s' hs hj
    have lockstep : Lockstep C ctx ctx' := h.lockstep hr nested
    have same : ctx'.read s' c = Reader.construct r.path r.standsAlone s'.scope.structs c := by
      simp only [ctx', FileContext.read, FileRequest.context, hr.path, hr.standsAlone]
    obtain ⟨value, output, ended⟩ :=
      Reader.Likeness.same.kept_construct h.self (h.types hs.scope) r.path r.standsAlone c c rfl
    rw [← same] at value output ended
    have steps : (ctx'.read s' c).steps = (ctx.read s c).steps :=
      (Nat.add_left_cancel (congrArg Cursor.index ended)).symm
    have line : C.lines (c.skip (ctx.read s c).steps).line (c.skip (ctx'.read s' c).steps).line := by
      rw [h.lines, steps]
    have value : Option.Rel (Action.Like C.lines C.V) (ctx.read s c).value (ctx'.read s' c).value := by
      rw [h.lines]
      exact value
    have outputs : C.journals r.path ((ctx.read s c).output.map .output) ((ctx'.read s' c).output.map .output) := by
      have output : (ctx.read s c).output = (ctx'.read s' c).output := output
      rw [← output]
      exact C.refl _ _
    simp only [ctx.walk_of_ahead hc, ctx'.walk_of_ahead hc, steps] at hj ⊢
    have one := lockstep.finish hs value outputs line (C.supposed_left hj)
    have more := ih _ one.state (C.supposed_right one.journal hj)
    exact ⟨more.state, C.append one.journal more.journal⟩

/-- What is handed back after the constructs of a file belongs together. -/
theorem conclude (hr : C.Requests r r') {s : FileState σ} {s' : FileState τ} {j j' : Journal}
    (x : C.Runs r.path (s, j) (s', j')) : C.Expansions r.path (r.conclude s j) (r'.conclude s' j') where
  store := x.state.store
  scope := x.state.scope
  vertex := by
    simp only [FileRequest.conclude, hr.path]
    split
    · exact h.woven x.journal
    · exact x.state.vertex
  chain := by
    have visited : s'.visited = s.visited := x.state.visited
    simp only [FileRequest.conclude, hr.chain, visited]
  journal := x.journal

/-- What is handed back for a file that is not read belongs together. -/
theorem unread (hr : C.Requests r r') {store : σ} {store' : τ}
    (hs : C.stores store store') (j : Journal) :
    C.Expansions r.path ⟨r.unread, j, store⟩ ⟨r'.unread, j, store'⟩ :=
  ⟨⟨hs, hr.scope, h.none⟩, hr.chain, C.refl r.path j⟩

/-- **Whole files are expanded in lockstep**, to any depth to which they open one another. -/
theorem nested (depth : Nat) : C.Nested (expandFile provider depth) (expandFile provider' depth) := by
  induction depth with
  | zero =>
    intro r r' store store' hr hs _
    rw [expandFile, expandFile, hr.path]
    exact h.unread hr hs _
  | succ depth ih =>
    intro r r' store store' hr hs hj
    rw [expandFile, expandFile] at hj ⊢
    cases hn : r.path.namesFile with
    | false =>
      rw [openFile_of_nameless provider _ store hn, openFile_of_nameless provider' _ store' (hr.path ▸ hn), hr.path]
      exact h.unread hr hs _
    | true =>
      have hn' : r'.path.namesFile = true := hr.path ▸ hn
      have stores := h.stores hs r.path
      have load : (provider'.load store' r.path).1 = (provider.load store r.path).1 := by
        obtain ⟨j, hl⟩ := exists_journal_of_openFile provider (expandFile provider depth) store hn
        obtain ⟨j', hl'⟩ := exists_journal_of_openFile provider' (expandFile provider' depth) store' hn'
        rw [hl, hl', hr.path] at hj
        have first : C.supposed ([_] ++ j) ([_] ++ j') := hj
        exact h.load hs r.path (C.supposed_left first)
      cases hl : (provider.load store r.path).1 with
      | error cause =>
        have hl' : (provider'.load store' r'.path).1 = .error cause := by rw [hr.path, load, hl]
        rw [openFile_of_unloaded provider _ hn hl, openFile_of_unloaded provider' _ hn' hl', hr.path]
        exact h.unread hr stores _
      | ok content =>
        have hl' : (provider'.load store' r'.path).1 = .ok content := by rw [hr.path, load, hl]
        rw [openFile_of_loaded provider _ hn hl, openFile_of_loaded provider' _ hn' hl'] at hj ⊢
        have start : C.States (r.initial (provider.load store r.path).2)
            (r'.initial (provider'.load store' r'.path).2) := by
          rw [hr.path]
          exact ⟨stores, hr.scope, congrArg Chain.visited hr.chain, h.none⟩
        have opened := C.refl r.path (opening r.path content)
        simp only [FileRequest.conclude, hr.path] at hj
        have body := h.walk hr ih _ (.start (lex content)) _ start (by rw [hr.path]; exact C.supposed_right opened hj)
        rw [hr.path] at body ⊢
        exact h.conclude hr (.after opened body)

end Files

end Comparison

end ShaderWeave
