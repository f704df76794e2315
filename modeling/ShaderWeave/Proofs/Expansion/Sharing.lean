import ShaderWeave.Proofs.Expansion.Ledger
import ShaderWeave.Proofs.Expansion.Run

/-!
# Copied scopes and the shared ledger

A file hands a copy of its scope to each file it opens and merges what comes back. The main results say that nothing is
lost on the way.

* `expandFile_growsTo`: a file hands back a scope that has grown from the one it was given. So the merge of the two is
  the scope handed back, whatever was copied or declared in between.
* `expandFile_eq_expandOnLedger`: the expansion with copies and the one on a shared ledger agree in all they put out. Of
  the uniforms of one name the last declaration in the order of the expansion counts, of the struct types the first one.

`LedgerState.Mirrors` is the relation between the two: what the ledger holds is what the views of the journal show.
-/

namespace ShaderWeave

variable {σ : Type}

/-! ### Scopes grow -/

/-- A file opened by one hands back a scope that has grown. -/
def Grows (nested : FileRequest → σ → Expansion σ) : Prop :=
  ∀ (r : FileRequest) (store : σ), r.scope.GrowsTo (nested r store).result.scope

theorem FileContext.Step.growsTo {ctx : FileContext σ} (hn : Grows ctx.nested) {s t : FileState σ} {j : Journal}
    (h : ctx.Step s j t) : s.scope.GrowsTo t.scope := by
  cases h with
  | declare v => exact Scope.growsTo_declare s.scope v
  | define name fields => exact Scope.growsTo_define s.scope name fields
  | @expand m path _ =>
    have hg : s.scope.GrowsTo (ctx.nested (ctx.order s m path) s.store).result.scope := by
      simpa using hn (ctx.order s m path) s.store
    rw [FileState.adopt_scope, hg.merge_eq]
    exact hg
  | _ => exact .refl _

theorem FileContext.Run.growsTo {ctx : FileContext σ} (hn : Grows ctx.nested) {s t : FileState σ} {j : Journal}
    (h : ctx.Run s j t) : s.scope.GrowsTo t.scope := by
  induction h with
  | done s => exact .refl _
  | step hs _ ih => exact (hs.growsTo hn).trans ih

/-- **A file hands back a scope that has grown from the one it was given.** -/
theorem expandFile_growsTo (provider : Provider σ) (depth : Nat) : Grows (expandFile provider depth) := by
  intro r store
  refine expandFile_induction (motive := fun _ r _ e => r.scope.GrowsTo e.result.scope) ?_ ?_ depth r store
  · exact fun r _ => .refl r.scope
  · intro depth ih r store e he
    cases he with
    | nameless _ => exact .refl r.scope
    | unloaded _ _ => exact .refl r.scope
    | expanded _ _ run =>
      have hn : Grows (r.context provider (expandFile provider depth)).nested := ih
      exact run.growsTo hn

/-! ### The sets of included files -/

mutual

/-- The files included in the chains of linked vertex shaders that ended with an entry. -/
def Entry.linkedChains : Entry → List PathSet
  | .expand .included _ _ body => Journal.linkedChains body
  | .expand .linked _ result body => Journal.linkedChains body ++ [result.chain.visited]
  | _ => []

/-- The files included in the chains of linked vertex shaders, in the order in which the chains ended. -/
def Journal.linkedChains : List Entry → List PathSet
  | [] => []
  | e :: j => Entry.linkedChains e ++ Journal.linkedChains j

end

namespace Journal

theorem isView_linkedChains : IsView linkedChains Entry.linkedChains :=
  ⟨rfl, fun _ _ => rfl⟩

@[simp] theorem linkedChains_append (j k : Journal) : linkedChains (j ++ k) = linkedChains j ++ linkedChains k :=
  isView_linkedChains.append j k

/-- The text after one more entry. -/
theorem woven_append_single (file : Path) (j : Journal) (e : Entry) :
    woven file (j ++ [e]) = Entry.write file (woven file j) e := by
  simp [woven, write]

theorem diagnostics_append_single (file : Path) (j : Journal) (e : Entry) :
    diagnostics file (j ++ [e]) = diagnostics file j ++ Entry.diagnostics file e := by
  simp [diagnostics]

theorem linkedChains_append_single (j : Journal) (e : Entry) :
    linkedChains (j ++ [e]) = linkedChains j ++ Entry.linkedChains e := by
  simp [linkedChains]

end Journal

/-! ### The relation between the two -/

/-- What an expansion leaves behind, as the state of a file. -/
def Expansion.state (e : Expansion σ) : FileState σ :=
  ⟨e.store, e.result.scope, e.result.chain.visited, e.result.vertex⟩

/-- The state of a file on a ledger shows what the state and the journal of the file show, where the file was opened
on the ledger `base`. -/
structure LedgerState.Mirrors (t : LedgerState σ) (base : Ledger σ) (file : Path) (s : FileState σ) (j : Journal) :
    Prop where
  /-- The provider is in the same state. -/
  store : t.ledger.store = s.store
  /-- The scopes agree. -/
  scope : t.ledger.scope = s.scope
  /-- The sets of included files agree. -/
  visited : t.visited = s.visited
  /-- The vertex shaders agree. -/
  vertex : t.vertex = s.vertex
  /-- The texts agree. -/
  text : t.text = Journal.woven file j
  /-- The diagnostics of the file have been added. -/
  diagnostics : t.ledger.diagnostics = base.diagnostics ++ Journal.diagnostics file j
  /-- The chains of linked vertex shaders have been added. -/
  linkedChains : t.ledger.linkedChains = base.linkedChains ++ Journal.linkedChains j
  /-- The declarations have been added, and the scope is what they make of the one before. -/
  declared : ∃ ds, t.ledger.declared = base.declared ++ ds ∧ t.ledger.scope = base.scope.enterAll ds

/-- Files are expanded alike with copies of scopes and on a ledger. -/
def Alike (nested : FileRequest → σ → Expansion σ) (onLedger : LedgerExpander σ) : Prop :=
  ∀ (r : FileRequest) (l : Ledger σ), r.scope = l.scope →
    (onLedger r.path r.standsAlone r.chain l).Mirrors l r.path (nested r l.store).state (nested r l.store).journal

/-- An entry that leaves no trace in the text, the diagnostics and the chains. -/
def Entry.Silent (file : Path) (e : Entry) : Prop :=
  (∀ w, e.write file w = w) ∧ e.diagnostics file = [] ∧ e.linkedChains = []

namespace LedgerState.Mirrors

variable {t : LedgerState σ} {base : Ledger σ} {file : Path} {s : FileState σ} {j : Journal}

theorem silent (h : t.Mirrors base file s j) {e : Entry} (he : e.Silent file) : t.Mirrors base file s (j ++ [e]) where
  store := h.store
  scope := h.scope
  visited := h.visited
  vertex := h.vertex
  text := by rw [Journal.woven_append_single, he.1, h.text]
  diagnostics := by rw [Journal.diagnostics_append_single, he.2.1, List.append_nil, h.diagnostics]
  linkedChains := by rw [Journal.linkedChains_append_single, he.2.2, List.append_nil, h.linkedChains]
  declared := h.declared

theorem report (h : t.Mirrors base file s j) (p : Problem) (line : Nat) :
    (t.report file p line).Mirrors base file s (j ++ [.problem p line]) where
  store := h.store
  scope := h.scope
  visited := h.visited
  vertex := h.vertex
  text := h.text.trans (Journal.woven_append_single file j (.problem p line)).symm
  diagnostics := by
    rw [Journal.diagnostics_append_single, ← List.append_assoc, ← h.diagnostics]
    rfl
  linkedChains := by
    rw [Journal.linkedChains_append_single, ← List.append_assoc, ← h.linkedChains]
    exact (List.append_nil _).symm
  declared := h.declared

/-- Writing a text is one more entry of the journal. -/
theorem write (h : t.Mirrors base file s j) {e : Entry} {w : Weave} (hw : e.write file t.text = w)
    (hd : e.diagnostics file = []) (hc : e.linkedChains = []) :
    ({ t with text := w } : LedgerState σ).Mirrors base file s (j ++ [e]) where
  store := h.store
  scope := h.scope
  visited := h.visited
  vertex := h.vertex
  text := by rw [Journal.woven_append_single, ← h.text, hw]
  diagnostics := by rw [Journal.diagnostics_append_single, hd, List.append_nil, h.diagnostics]
  linkedChains := by rw [Journal.linkedChains_append_single, hc, List.append_nil, h.linkedChains]
  declared := h.declared

theorem put (h : t.Mirrors base file s j) (o : Output) : (t.put file o).Mirrors base file s (j ++ [.output o]) := by
  cases o with
  | copy token => exact h.write rfl rfl rfl
  | newline line => exact h.write rfl rfl rfl
  | problem p line => exact h.report p line
  | misread index => exact h.silent ⟨fun _ => rfl, rfl, rfl⟩

theorem putAll (h : t.Mirrors base file s j) (os : List Output) :
    (os.foldl (fun t o => t.put file o) t).Mirrors base file s (j ++ os.map .output) := by
  induction os generalizing t j with
  | nil => simpa using h
  | cons o os ih => simpa using ih (h.put o)

/-- A declaration leaves no entry. -/
theorem enter (h : t.Mirrors base file s j) (d : Declared) :
    (t.enter d).Mirrors base file { s with scope := s.scope.enter d } j where
  store := h.store
  scope := congrArg (Scope.enter · d) h.scope
  visited := h.visited
  vertex := h.vertex
  text := h.text
  diagnostics := h.diagnostics
  linkedChains := h.linkedChains
  declared := by
    obtain ⟨ds, hd, hs⟩ := h.declared
    refine ⟨ds ++ [d], ?_, ?_⟩
    · rw [← List.append_assoc, ← hd]
      rfl
    · rw [Scope.enterAll_append, ← hs]
      rfl

/-- What a nested file adds to a ledger comes after what the file that opened it has added. -/
theorem declared_trans (h : t.Mirrors base file s j) {u : LedgerState σ} {inner : Path} {s' : FileState σ}
    {k : Journal} (hu : u.Mirrors t.ledger inner s' k) :
    ∃ ds, u.ledger.declared = base.declared ++ ds ∧ u.ledger.scope = base.scope.enterAll ds := by
  obtain ⟨ds, hd, hs⟩ := h.declared
  obtain ⟨es, he, hs'⟩ := hu.declared
  refine ⟨ds ++ es, ?_, ?_⟩
  · rw [he, hd, List.append_assoc]
  · rw [hs', hs, Scope.enterAll_append]

end LedgerState.Mirrors

/-! ### Files in lockstep -/

namespace FileContext

/-- The context of the same file on a ledger. -/
def onLedger (ctx : FileContext σ) (nested : LedgerExpander σ) : LedgerContext σ :=
  ⟨ctx.provider, nested, ctx.path, ctx.standsAlone, ctx.active⟩

variable {ctx : FileContext σ} {onL : LedgerExpander σ} {t : LedgerState σ} {base : Ledger σ} {s : FileState σ}
  {j : Journal}

/-- The file that is opened mirrors on the ledger, and its scope is the merged one. -/
theorem order_mirrors (hg : Grows ctx.nested) (hn : Alike ctx.nested onL) (h : t.Mirrors base ctx.path s j)
    (m : Manner) (path : Path) :
    let q := ctx.order s m path
    let e := ctx.nested q s.store
    (onL path q.standsAlone q.chain t.ledger).Mirrors t.ledger path e.state e.journal ∧
      s.scope.merge e.result.scope = e.result.scope := by
  intro q e
  constructor
  · have hu := hn q t.ledger (by rw [h.scope]; exact ctx.order_scope s m path)
    rwa [h.store, ctx.order_path] at hu
  · have hq : s.scope.GrowsTo e.result.scope := by simpa [q] using hg q s.store
    exact hq.merge_eq

theorem include_mirrors (hg : Grows ctx.nested) (hn : Alike ctx.nested onL) (h : t.Mirrors base ctx.path s j)
    (path : Path) :
    let e := ctx.nested (ctx.order s .included path) s.store
    let u := onL path false ⟨t.visited.insert path, ctx.active⟩ t.ledger
    LedgerState.Mirrors ⟨u.ledger, u.visited, t.vertex <|> u.vertex, t.text.append u.text⟩ base ctx.path
      (s.adopt .included e) (j ++ [.expand .included (ctx.order s .included path) e.result e.journal]) := by
  intro e u
  obtain ⟨hu, hm⟩ := order_mirrors hg hn h .included path
  have hu : u.Mirrors t.ledger path e.state e.journal := by
    simp only [u, h.visited]
    exact hu
  have hd := h.declared_trans hu
  exact {
    store := hu.store
    scope := hu.scope.trans hm.symm
    visited := hu.visited
    vertex := by
      simp only [h.vertex, hu.vertex]
      rfl
    text := by
      rw [Journal.woven_append_single, ← h.text]
      exact congrArg t.text.append hu.text
    diagnostics := by
      rw [Journal.diagnostics_append_single, ← List.append_assoc, ← h.diagnostics]
      exact hu.diagnostics
    linkedChains := by
      rw [Journal.linkedChains_append_single, ← List.append_assoc, ← h.linkedChains]
      exact hu.linkedChains
    declared := hd }

theorem link_mirrors (hg : Grows ctx.nested) (hn : Alike ctx.nested onL) (h : t.Mirrors base ctx.path s j)
    (path : Path) :
    let e := ctx.nested (ctx.order s .linked path) s.store
    let u := onL path true ⟨∅, ctx.active⟩ t.ledger
    LedgerState.Mirrors ⟨u.ledger.closeChain u.visited, t.visited, u.vertex, t.text⟩ base ctx.path
      (s.adopt .linked e) (j ++ [.expand .linked (ctx.order s .linked path) e.result e.journal]) := by
  intro e u
  obtain ⟨hu, hm⟩ := order_mirrors hg hn h .linked path
  have hd := h.declared_trans hu
  exact {
    store := hu.store
    scope := hu.scope.trans hm.symm
    visited := h.visited
    vertex := hu.vertex
    text := by
      rw [Journal.woven_append_single]
      exact h.text
    diagnostics := by
      rw [Journal.diagnostics_append_single, ← List.append_assoc, ← h.diagnostics]
      exact hu.diagnostics
    linkedChains := by
      have hc : u.ledger.linkedChains ++ [u.visited] =
          t.ledger.linkedChains ++ (Journal.linkedChains e.journal ++ [e.result.chain.visited]) := by
        rw [← List.append_assoc, ← hu.linkedChains]
        exact congrArg (u.ledger.linkedChains ++ [·]) hu.visited
      rw [Journal.linkedChains_append_single, ← List.append_assoc, ← h.linkedChains]
      exact hc
    declared := hd }

theorem includePath_mirrors (hg : Grows ctx.nested) (hn : Alike ctx.nested onL) (h : t.Mirrors base ctx.path s j)
    (path : Path) (line : Nat) :
    ((ctx.onLedger onL).includePath path line t).Mirrors base ctx.path (ctx.includePath path line s).1
      (j ++ (ctx.includePath path line s).2) := by
  by_cases hv : path ∈ s.visited
  · rw [includePath, if_pos hv, LedgerContext.includePath, if_pos (h.visited ▸ hv)]
    exact h.silent ⟨fun _ => rfl, rfl, rfl⟩
  by_cases ha : path ∈ ctx.active
  · rw [includePath, if_neg hv, if_pos ha, LedgerContext.includePath, if_neg (h.visited ▸ hv),
      if_pos (show path ∈ (ctx.onLedger onL).active from ha)]
    exact h.report _ line
  · rw [ctx.includePath_of_fresh hv ha, LedgerContext.includePath, if_neg (h.visited ▸ hv),
      if_neg (show path ∉ (ctx.onLedger onL).active from ha)]
    have hc := include_mirrors hg hn h path
    have both : (t.vertex.isSome && (onL path false ⟨t.visited.insert path, ctx.active⟩ t.ledger).vertex.isSome) =
        (s.vertex.isSome && (ctx.nested (ctx.order s .included path) s.store).result.vertex.isSome) := by
      have hu := (order_mirrors hg hn h .included path).1.vertex
      rw [h.vertex, h.visited]
      exact congrArg (s.vertex.isSome && ·.isSome) hu
    simp only [onLedger, both]
    cases s.vertex.isSome && (ctx.nested (ctx.order s .included path) s.store).result.vertex.isSome with
    | true => simpa using hc.report .secondVertexShader line
    | false => exact hc

theorem linkPath_mirrors (hg : Grows ctx.nested) (hn : Alike ctx.nested onL) (h : t.Mirrors base ctx.path s j)
    (path : Path) (line : Nat) :
    ((ctx.onLedger onL).linkPath path line t).Mirrors base ctx.path (ctx.linkPath path line s).1
      (j ++ (ctx.linkPath path line s).2) := by
  have hc : ((ctx.onLedger onL).checkLink path line t).Mirrors base ctx.path s (j ++ linkCheck path line) := by
    rw [LedgerContext.checkLink, linkCheck]
    split_ifs
    · simpa using h
    · exact h.report _ line
  by_cases ha : path ∈ ctx.active
  · rw [ctx.linkPath_of_active ha, LedgerContext.linkPath, if_pos (show path ∈ (ctx.onLedger onL).active from ha),
      ← List.append_assoc]
    exact hc.report _ line
  · rw [ctx.linkPath_of_inactive ha, LedgerContext.linkPath,
      if_neg (show path ∉ (ctx.onLedger onL).active from ha), ← List.append_assoc]
    have hl := link_mirrors hg hn hc path
    have rest : ((ctx.onLedger onL).checkLink path line t).visited = t.visited ∧
        ((ctx.onLedger onL).checkLink path line t).text = t.text := by
      rw [LedgerContext.checkLink]
      split_ifs
      · exact ⟨rfl, rfl⟩
      · exact ⟨rfl, rfl⟩
    rw [rest.1, rest.2] at hl
    exact hl

theorem openRequest_mirrors (hg : Grows ctx.nested) (hn : Alike ctx.nested onL) (h : t.Mirrors base ctx.path s j)
    (m : Manner) (written : String) (line : Nat) :
    ((ctx.onLedger onL).openRequest m written line t).Mirrors base ctx.path (ctx.openRequest m written line s).1
      (j ++ (ctx.openRequest m written line s).2) := by
  by_cases hm : m = .linked ∧ s.vertex.isSome = true
  · rw [openRequest, if_pos hm, LedgerContext.openRequest, if_pos (h.vertex ▸ hm)]
    exact h.report _ line
  · rw [openRequest, if_neg hm, LedgerContext.openRequest, if_neg (h.vertex ▸ hm), h.store]
    have hr : t.Mirrors base ctx.path s (j ++ [.resolve written (ctx.provider.resolve s.store written)]) :=
      h.silent ⟨fun _ => rfl, rfl, rfl⟩
    rw [List.append_cons]
    simp only [onLedger]
    generalize ctx.provider.resolve s.store written = answer at hr
    cases answer with
    | error cause => exact hr.report (.notFound written cause) line
    | ok path =>
      cases m with
      | included => exact includePath_mirrors hg hn hr path line
      | linked => exact linkPath_mirrors hg hn hr path line

theorem perform_mirrors (hg : Grows ctx.nested) (hn : Alike ctx.nested onL) (h : t.Mirrors base ctx.path s j)
    (a : Action) :
    ((ctx.onLedger onL).perform t a).Mirrors base ctx.path (ctx.perform s a).1 (j ++ (ctx.perform s a).2) := by
  cases a with
  | nothing =>
    rw [perform, List.append_nil]
    exact h
  | declare v =>
    rw [perform, List.append_nil]
    exact h.enter (.uniform v)
  | define name fields =>
    rw [perform, List.append_nil]
    exact h.enter (.struct name fields)
  | request m written line =>
    have hr : t.Mirrors base ctx.path s (j ++ [.request m written]) := h.silent ⟨fun _ => rfl, rfl, rfl⟩
    rw [perform, List.append_cons]
    exact openRequest_mirrors hg hn hr m written line

theorem finish_mirrors (hg : Grows ctx.nested) (hn : Alike ctx.nested onL) (h : t.Mirrors base ctx.path s j)
    (c : Cursor) (o : Outcome Action) :
    ((ctx.onLedger onL).finish t o).Mirrors base ctx.path (ctx.finish s c o).1 (j ++ (ctx.finish s c o).2) := by
  have ho := h.putAll o.output
  rw [LedgerContext.finish, finish]
  simp only [← List.append_assoc]
  cases o.value with
  | none => exact ho.silent ⟨fun _ => rfl, rfl, rfl⟩
  | some a => exact perform_mirrors hg hn ho a

/-- The two expansions of the tokens of a file stay in step, since a construct is read in the light of the struct
types alone. -/
theorem walk_mirrors (hg : Grows ctx.nested) (hn : Alike ctx.nested onL) (s : FileState σ) (c : Cursor) :
    ∀ {t : LedgerState σ} {j : Journal}, t.Mirrors base ctx.path s j →
      ((ctx.onLedger onL).walk t c).Mirrors base ctx.path (ctx.walk s c).1 (j ++ (ctx.walk s c).2) := by
  induction s, c using ctx.walk_induction with
  | done s c hc =>
    intro t j h
    rw [ctx.walk_of_end hc, LedgerContext.walk, dif_pos hc, List.append_nil]
    exact h
  | more s c hc ih =>
    intro t j h
    have hread : Reader.construct (ctx.onLedger onL).path (ctx.onLedger onL).standsAlone t.ledger.scope.structs c =
        ctx.read s c := by
      rw [h.scope]
      rfl
    rw [ctx.walk_of_ahead hc, LedgerContext.walk, dif_neg hc]
    simp only [hread, ← List.append_assoc]
    exact ih (finish_mirrors hg hn h c (ctx.read s c))

end FileContext

/-! ### Whole files -/

/-- The entries before the first construct of a file, on the ledger. -/
theorem LedgerState.Mirrors.opening {t : LedgerState σ} {base : Ledger σ} {s : FileState σ} {path : Path}
    (h : t.Mirrors base path s []) (content : String) :
    ((unclosedLines content).foldl (fun t line => t.report path .unclosedString line) t).Mirrors base path s
      (opening path content) := by
  have problems (lines : List Nat) : ∀ {t : LedgerState σ} {j : Journal}, t.Mirrors base path s j →
      (lines.foldl (fun t line => t.report path .unclosedString line) t).Mirrors base path s
        (j ++ lines.map (Entry.problem .unclosedString)) := by
    induction lines with
    | nil => simp
    | cons line lines ih => exact fun h => by simpa using ih (h.report .unclosedString line)
  have loaded : t.Mirrors base path s ([] ++ [.load path (.ok content)]) := h.silent ⟨fun _ => rfl, rfl, rfl⟩
  exact (problems _ loaded).silent ⟨fun _ => rfl, rfl, rfl⟩

/-- A file that has just been opened on a ledger mirrors the one that has just been opened with a copy. -/
theorem mirrors_initial {r : FileRequest} {l : Ledger σ} (h : r.scope = l.scope) :
    LedgerState.Mirrors ⟨l, r.chain.visited, none, .empty⟩ l r.path (r.initial l.store) [] where
  store := rfl
  scope := h.symm
  visited := rfl
  vertex := rfl
  text := rfl
  diagnostics := (List.append_nil _).symm
  linkedChains := (List.append_nil _).symm
  declared := ⟨[], (List.append_nil _).symm, rfl⟩

theorem openFile_alike {provider : Provider σ} {nested : FileRequest → σ → Expansion σ} {onL : LedgerExpander σ}
    (hg : Grows nested) (hn : Alike nested onL) :
    Alike (openFile provider nested) (openOnLedger provider onL) := by
  intro r l hr
  have fresh := mirrors_initial hr
  cases hf : r.path.namesFile with
  | false =>
    rw [openFile_of_nameless provider nested l.store hf]
    simp only [openOnLedger, hf]
    exact fresh.report _ 0
  | true =>
    have ready : LedgerState.Mirrors ⟨{ l with store := (provider.load l.store r.path).2 }, r.chain.visited, none,
        .empty⟩ l r.path (r.initial (provider.load l.store r.path).2) [] :=
      { fresh with store := rfl }
    cases hl : (provider.load l.store r.path).1 with
    | error cause =>
      rw [openFile_of_unloaded provider nested hf hl]
      simp only [openOnLedger, hf, hl]
      have loaded : LedgerState.Mirrors _ l r.path _ ([] ++ [.load r.path (.error cause)]) :=
        ready.silent ⟨fun _ => rfl, rfl, rfl⟩
      exact loaded.report _ 0
    | ok content =>
      have hg : Grows (r.context provider nested).nested := hg
      have hn : Alike (r.context provider nested).nested onL := hn
      have body := FileContext.walk_mirrors hg hn _ (.start (lex content)) (ready.opening content)
      rw [openFile_of_loaded provider nested hf hl]
      simp only [openOnLedger, hf, hl]
      by_cases hv : r.path.isVertex = true
      · simp only [FileRequest.conclude, if_pos hv]
        exact { body with vertex := congrArg some body.text }
      · simp only [FileRequest.conclude, if_neg hv]
        exact body

theorem expandFile_alike (provider : Provider σ) (depth : Nat) :
    Alike (expandFile provider depth) (expandOnLedger provider depth) := by
  induction depth with
  | zero => exact fun r l hr => (mirrors_initial hr).silent ⟨fun _ => rfl, rfl, rfl⟩
  | succ depth ih => exact openFile_alike (expandFile_growsTo provider depth) ih

/-- **Nothing is lost between copies.** The scope that a file hands back has grown from the one it was given, so that
merging the two gives the scope handed back. And where all files work on one ledger, they end with the same scope, the
same files included in every chain and the same diagnostics, in the same order, as well as the same texts and the same
store. In that scope the last uniform of a name counts that was declared, and the first struct type. -/
theorem expandFile_eq_expandOnLedger (provider : Provider σ) (depth : Nat) (r : FileRequest) (store : σ) :
    let e := expandFile provider depth r store
    let t := expandOnLedger provider depth r.path r.standsAlone r.chain (.start store r.scope)
    r.scope.GrowsTo e.result.scope ∧ r.scope.merge e.result.scope = e.result.scope ∧
      t.ledger.scope = e.result.scope ∧
      t.visited = e.result.chain.visited ∧ t.ledger.linkedChains = Journal.linkedChains e.journal ∧
      t.ledger.diagnostics = Journal.diagnostics r.path e.journal ∧
      t.vertex = e.result.vertex ∧ t.text = Journal.woven r.path e.journal ∧ t.ledger.store = e.store ∧
      (∀ name : String, e.result.scope.uniforms[name]? =
        (lastUniform? name t.ledger.declared).or r.scope.uniforms[name]?) ∧
      ∀ name : String, e.result.scope.structs[name]? =
        (r.scope.structs[name]?).or (firstStruct? name t.ledger.declared) := by
  intro e t
  have hg : r.scope.GrowsTo e.result.scope := expandFile_growsTo provider depth r store
  have h := expandFile_alike provider depth r (.start store r.scope) rfl
  obtain ⟨ds, hd, hs⟩ := h.declared
  have hds : t.ledger.declared = ds := hd
  have hscope : e.result.scope = r.scope.enterAll ds := h.scope.symm.trans hs
  refine ⟨hg, hg.merge_eq, h.scope, h.visited, h.linkedChains, h.diagnostics, h.vertex, h.text, h.store, ?_, ?_⟩
  · intro name
    rw [hscope, hds, Scope.uniforms_enterAll]
  · intro name
    rw [hscope, hds, Scope.structs_enterAll]

end ShaderWeave
