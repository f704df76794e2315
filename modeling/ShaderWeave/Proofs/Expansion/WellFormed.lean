import ShaderWeave.Program
import ShaderWeave.Proofs.Declaration.WellFormed
import ShaderWeave.Proofs.Expansion.Sharing
import ShaderWeave.Proofs.Expansion.Stages

/-!
# Scopes are well-formed at every stage

Each construct keeps a scope well-formed (`Effect.wellFormed`): what it adds itself is well-formed, and the scope of a
file that it opens has grown from the one handed down, so that taking it in changes nothing in it.

The main result, `scopes_wellFormed`, says that all scopes of a run that starts with an empty one are well-formed, and
that the leaves of the uniforms of a program therefore have one to nine components.
-/

namespace ShaderWeave

variable {σ : Type}

/-- From a well-formed scope, a file hands back a well-formed one. -/
def Preserves (nested : FileRequest → σ → Expansion σ) : Prop :=
  ∀ (r : FileRequest) (store : σ), r.scope.WellFormed → (nested r store).result.scope.WellFormed

namespace FileContext

variable {ctx : FileContext σ} {s t : FileState σ} {c d : Cursor} {j : Journal}

/-- The scope of a file that is opened may be taken in. -/
theorem adopt_wellFormed (hg : Grows ctx.nested) (hn : Preserves ctx.nested) (hs : s.scope.WellFormed) (m : Manner)
    (path : Path) : (s.adopt m (ctx.child s m path)).scope.WellFormed := by
  have same : (ctx.order s m path).scope = s.scope := ctx.order_scope s m path
  have grown := hg (ctx.order s m path) s.store
  have kept := hn (ctx.order s m path) s.store
  rw [same] at grown kept
  rw [FileState.adopt_scope]
  exact (kept hs).merge grown

/-- **A construct keeps the scope well-formed.** -/
theorem Effect.wellFormed {done : FileState σ × Journal} (h : ctx.Effect s c done) (hg : Grows ctx.nested)
    (hn : Preserves ctx.nested) (hs : s.scope.WellFormed) (hc : ∀ t ∈ c.ahead, t.Faithful) :
    done.1.scope.WellFormed := by
  have yields := Reader.yields_construct hs.structs ctx.path ctx.standsAlone c
  cases h with
  | nothing => exact hs
  | declare read =>
    cases yields _ hc read with
    | declare hv => exact hs.declare hv
  | define read =>
    cases yields _ hc read with
    | define named each => exact hs.define named each
  | opened => exact adopt_wellFormed hg hn hs _ _

/-- Constructs one after another keep the scope well-formed. -/
theorem Leads.wellFormed (h : ctx.Leads s c j t d) (hg : Grows ctx.nested) (hn : Preserves ctx.nested)
    (hs : s.scope.WellFormed) (hc : ∀ t ∈ c.ahead, t.Faithful) : t.scope.WellFormed := by
  induction h with
  | here => exact hs
  | further _ _ ih =>
    exact ih ((ctx.finish_effect _ _).wellFormed hg hn hs hc) fun t ht => hc t (List.mem_of_mem_drop ht)

end FileContext

section Files

variable {provider : Provider σ} {depth : Nat} {r : FileRequest} {store : σ} {s : FileState σ} {c : Cursor}

/-- Wherever the constructs of a file lead, the scope is well-formed. -/
theorem FileRequest.Reaches.wellFormed (h : r.Reaches provider (expandFile provider depth) store s c)
    (hn : Preserves (expandFile provider depth)) (hr : r.scope.WellFormed) : s.scope.WellFormed := by
  obtain ⟨-, content, j, -, leads⟩ := h
  exact leads.wellFormed (expandFile_growsTo provider depth) hn hr fun t ht => faithful_of_mem_lex ht

variable (provider depth) in
/-- **A file that is handed a well-formed scope hands back a well-formed one.** -/
theorem expandFile_preserves : Preserves (expandFile provider depth) := by
  induction depth with
  | zero => exact fun r _ hr => hr
  | succ depth ih =>
    intro r store hr
    cases hn : r.path.namesFile with
    | false =>
      rw [expandFile, openFile_of_nameless provider _ store hn]
      exact hr
    | true =>
      cases hl : (provider.load store r.path).1 with
      | error cause =>
        rw [expandFile, openFile_of_unloaded provider _ hn hl]
        exact hr
      | ok content =>
        obtain ⟨s, c, reached, same⟩ := exists_reaches_of_loaded hn hl
        rw [expandFile, same]
        exact reached.wellFormed ih hr

/-- **At every stage of a run, the scope is well-formed if the first one is.** -/
theorem Occurs.wellFormed {q : FileRequest} (h : Occurs provider depth r store q s c) (hr : r.scope.WellFormed) :
    s.scope.WellFormed := by
  induction h with
  | here reached => exact reached.wellFormed (expandFile_preserves provider _) hr
  | @within depth r q store s t c d m path reached _ _ ih =>
    refine ih ?_
    rw [FileContext.order_scope]
    exact reached.wellFormed (expandFile_preserves provider depth) hr

/-- What a file is handed that is opened in a run and what it hands back is well-formed. -/
theorem Opens.wellFormed {opener q : FileRequest} {m : Manner} {result : FileResult} {body : Journal}
    (h : Opens r (expandFile provider depth r store).journal opener m q result body) (hr : r.scope.WellFormed) :
    q.scope.WellFormed ∧ result.scope.WellFormed := by
  obtain ⟨k, s, c, path, occurs, -, same⟩ := h.exists_occurs rfl
  obtain ⟨-, rfl, rfl, -⟩ := Entry.expand.inj same
  have handed : ((opener.context provider (expandFile provider k)).order s m path).scope.WellFormed := by
    rw [FileContext.order_scope]
    exact occurs.wellFormed hr
  exact ⟨handed, expandFile_preserves provider k _ _ handed⟩

end Files

/-- **Every scope of a run that starts with an empty one is well-formed.** This holds at every stage of the run, of what
each file is handed that is opened in it and hands back, and of the scope that the run ends with. So the leaves of the
uniforms of a program have one to nine components. -/
theorem scopes_wellFormed (provider : Provider σ) (depth : Nat) (path : Path) (standsAlone : Bool) (chain : Chain)
    (store : σ) :
    let r : FileRequest := ⟨path, standsAlone, .empty, chain⟩
    let e := expandFile provider depth r store
    (∀ q s c, Occurs provider depth r store q s c → s.scope.WellFormed) ∧
      (∀ opener m q result body, Opens r e.journal opener m q result body →
        q.scope.WellFormed ∧ result.scope.WellFormed) ∧
      e.result.scope.WellFormed ∧
      ∀ u ∈ (provider.program path store).1.uniforms, 1 ≤ u.values.size ∧ u.values.size ≤ 9 := by
  intro r e
  have first : r.scope.WellFormed := Scope.wellFormed_empty
  have program := expandFile_preserves provider (provider.reach store) (.entry path) store Scope.wellFormed_empty
  exact ⟨fun q s c h => h.wellFormed first, fun opener m q result body h => h.wellFormed first,
    expandFile_preserves provider depth r store first, program.leaves⟩

/-- A file that includes the definition of a struct type. -/
def lampText : String :=
  "#include \"lamp.glsl\"\nuniform Lamp spare;\n"

/-- The definition of the struct type, and a uniform of it. -/
def lampLibrary : String :=
  "struct Lamp \x7b vec3 color = (1, 0.5, 0); float glow; \x7d;\nuniform Lamp lamp;\n"

/-- The two files, which never change. -/
def lampProvider : Provider Unit where
  resolve _ written := .ok ⟨written⟩
  load _ path := (if path.text = "a.glsl" then .ok lampText else .ok lampLibrary, ())
  reach _ := 2

/-- At the last stage of the included file, the scope holds the uniform and its type. -/
theorem scopes_wellFormed_lamp :
    let r : FileRequest := .entry ⟨"a.glsl"⟩
    let ctx := r.context lampProvider (expandFile lampProvider 1)
    let q := ctx.order (r.initial ()) .included ⟨"lamp.glsl"⟩
    ∃ s c, Occurs lampProvider 2 r () q s c ∧ s.scope.WellFormed ∧
      s.scope.leaves.map (fun leaf => (leaf.name, leaf.values.size)) = [("lamp.color", 3), ("lamp.glow", 1)] := by
  intro r ctx q
  have start : r.Reaches lampProvider (expandFile lampProvider 1) () (r.initial ()) (.start (lex lampText)) :=
    ⟨by decide +kernel, lampText, [], by rfl, .here _ _⟩
  have asks : ctx.Asks (r.initial ()) (.start (lex lampText)) .included ⟨"lamp.glsl"⟩ :=
    ⟨⟨"lamp.glsl", 1, by decide +kernel, rfl⟩, by decide, by decide, by decide⟩
  have loaded : (lampProvider.load () ⟨"lamp.glsl"⟩).1 = .ok lampLibrary := by rfl
  obtain ⟨s, c, reached, same⟩ : ∃ s c, q.Reaches lampProvider (expandFile lampProvider 0) () s c ∧
      (expandFile lampProvider 1 q ()).result.scope = s.scope :=
    exists_reaches_of_loaded (by decide +kernel) loaded
  have occurs : Occurs lampProvider 2 r () q s c := .within start asks (.here reached)
  refine ⟨s, c, occurs, (scopes_wellFormed lampProvider 2 ⟨"a.glsl"⟩ true .empty ()).1 q s c occurs, ?_⟩
  rw [← same]
  decide +kernel

end ShaderWeave
