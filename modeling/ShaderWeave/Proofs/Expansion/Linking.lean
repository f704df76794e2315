import ShaderWeave.Proofs.Expansion.Locality
import ShaderWeave.Proofs.Reader.Excerpts
import ShaderWeave.Proofs.Scope.Names

/-!
# What a linked vertex shader does to the file that links it

A linked vertex shader is expanded in the middle of a file, with the scope and the stores of that file, and yet it does
not show in the text of the file. All that comes back from it is which struct types there are and whether a vertex
shader has been found. The main result is `expandFile_of_links`: with other texts for the files that only linked vertex
shaders load, the same text is woven, the same files are included, and the same is reported outside the vertex shaders,
as long as corresponding links come back with the same types and the same success.

`Journal.links` is what the links of a file and of those that it includes hand back, and `Journal.chainDiagnostics` is
what is reported outside of them. The link itself writes the blanks within it (`written_link`).
-/

namespace ShaderWeave

variable {σ τ : Type}

/-! ### Links and what is reported outside of them -/

mutual

/-- What a vertex shader hands back that is linked with an entry. -/
def Entry.links : Entry → List FileResult
  | .expand .included _ _ body => Journal.links body
  | .expand .linked _ result _ => [result]
  | _ => []

/-- What the vertex shaders hand back that a file or a file it includes links, in order. -/
def Journal.links : List Entry → List FileResult
  | [] => []
  | e :: j => Entry.links e ++ Journal.links j

end

/-- The problem that is put out in a file, if it is one. -/
def Emission.diagnostic? (x : Emission) : Option Diagnostic :=
  x.output.fault?.map fun f => ⟨x.file.text, f.2, f.1⟩

/-- The diagnostics of a file and of the files it includes, without those of linked vertex shaders. -/
def Journal.chainDiagnostics (file : Path) (j : Journal) : List Diagnostic :=
  (emissions file j).filterMap Emission.diagnostic?

namespace Journal

theorem isView_links : IsView links Entry.links :=
  ⟨rfl, fun _ _ => rfl⟩

@[simp] theorem links_append (j k : Journal) : links (j ++ k) = links j ++ links k :=
  isView_links.append j k

end Journal

mutual

theorem Entry.diagnostics_of_links (file : Path) :
    ∀ e : Entry, Entry.links e = [] →
      Entry.diagnostics file e = (Entry.emissions file e).filterMap Emission.diagnostic?
  | .output o, _ => by
    cases o <;> simp [Entry.diagnostics, Entry.emissions, Emission.diagnostic?, Output.fault?]
  | .expand .included q _ body, h => by
    rw [Entry.links] at h
    rw [Entry.diagnostics, Entry.emissions, Journal.diagnostics_of_links q.path body h]
    rfl
  | .expand .linked _ result _, h => by simp [Entry.links] at h
  | .request _ _, _ | .resolve _ _, _ | .load _ _, _ | .lexed _, _ | .abandon _, _ | .skip _, _ | .tooDeep _, _ => by
    simp [Entry.diagnostics, Entry.emissions]

/-- Where nothing is linked, all that is reported is reported outside of links. -/
theorem Journal.diagnostics_of_links (file : Path) :
    ∀ j : List Entry, Journal.links j = [] → Journal.diagnostics file j = Journal.chainDiagnostics file j
  | [], _ => rfl
  | e :: j, h => by
    rw [Journal.links, List.append_eq_nil_iff] at h
    rw [Journal.diagnostics, Entry.diagnostics_of_links file e h.1, Journal.diagnostics_of_links file j h.2,
      Journal.chainDiagnostics, Journal.chainDiagnostics, Journal.emissions, List.filterMap_append]

end

/-! ### The link itself -/

namespace FileContext

variable (ctx : FileContext σ)

theorem written_linkPath (path : Path) (line : Nat) (s : FileState σ) :
    Journal.written ctx.path (ctx.linkPath path line s).2 = [] := by
  have check : Journal.written ctx.path (linkCheck path line) = [] := by
    rw [linkCheck]
    split <;> rfl
  by_cases ha : path ∈ ctx.active
  · rw [ctx.linkPath_of_active ha, Journal.written_append, check]
    rfl
  · rw [ctx.linkPath_of_inactive ha, Journal.written_append, check]
    rfl

/-- A vertex shader writes nothing to the file that links it. -/
theorem written_openRequest_linked (written : String) (line : Nat) (s : FileState σ) :
    Journal.written ctx.path (ctx.openRequest .linked written line s).2 = [] := by
  rw [openRequest]
  split
  · rfl
  · have resolved (answer : Except String Path) (j : Journal) :
        Journal.written ctx.path (.resolve written answer :: j) = Journal.written ctx.path j := rfl
    rw [resolved]
    cases ctx.provider.resolve s.store written with
    | error cause => rfl
    | ok path => exact ctx.written_linkPath path line s

/-- **A link writes the blanks between the directive and the path.** -/
theorem written_link {s : FileState σ} {c : Cursor} {directive path : Token} {blanks rest : List Token}
    (ahead : c.ahead = directive :: (blanks ++ path :: rest)) (link : directive.role = .vertexLink)
    (blank : ∀ b ∈ blanks, b.isBlank = true) (string : path.kind = .string) :
    Journal.written ctx.path (ctx.finish s c (ctx.read s c)).2 = blanks := by
  have meets : c.Meets blanks path rest := by
    refine ⟨by rw [ahead, List.drop_one, List.tail_cons], blank, ?_⟩
    simp [Token.isBlank, string]
  have request : Reader.request .linked "a file path after #vertex_shader" c = _ := Reader.request_apply meets string
  obtain ⟨outs, read, outs_written⟩ : ∃ outs,
      ctx.read s c = ⟨some (.request .linked path.text path.line), blanks.length + 1, outs⟩ ∧
        writtenTokens outs = blanks := by
    rw [FileContext.read, Reader.construct_of_vertexLink ahead link]
    split
    · exact ⟨_, request, writtenTokens_copy blanks⟩
    · refine ⟨.problem .linkOutsideFragment c.line :: blanks.map .copy, ?_, writtenTokens_copy blanks⟩
      exact (Reader.bind_apply_of_eq rfl request).trans (by rw [Nat.zero_add, List.singleton_append])
  have asked (j : Journal) :
      Journal.written ctx.path (.request .linked path.text :: j) = Journal.written ctx.path j := rfl
  rw [read, finish]
  simp only [perform]
  rw [Journal.written_append, Journal.written_map_output, outs_written, asked, ctx.written_openRequest_linked,
    List.append_nil]

end FileContext

/-! ### Corresponding links -/

/-- Two linked vertex shaders come back with the same types, and with a vertex shader or without one. -/
structure FileResult.Agrees (l l' : FileResult) : Prop where
  /-- The scopes have the same types. -/
  types : l.scope.SameTypes l'.scope
  /-- A vertex shader has been found in both or in neither. -/
  found : l'.vertex.isSome = l.vertex.isSome

/-- The links of two files agree, one with the other in their order. -/
def LinksAgree (ls ls' : List FileResult) : Prop :=
  ∀ (i : Nat) (l l' : FileResult), ls[i]? = some l → ls'[i]? = some l' → l.Agrees l'

theorem LinksAgree.left {ls ls' ms ms' : List FileResult} (h : LinksAgree (ls ++ ms) (ls' ++ ms')) :
    LinksAgree ls ls' := by
  intro i l l' hl hl'
  exact h i l l' (List.getElem?_append_left (List.getElem?_eq_some_iff.1 hl).1 ▸ hl)
    (List.getElem?_append_left (List.getElem?_eq_some_iff.1 hl').1 ▸ hl')

theorem LinksAgree.right {ls ls' ms ms' : List FileResult} (length : ls'.length = ls.length)
    (h : LinksAgree (ls ++ ms) (ls' ++ ms')) : LinksAgree ms ms' := by
  intro i l l' hl hl'
  refine h (ls.length + i) l l' ?_ ?_
  · rwa [List.getElem?_append_right (by omega), Nat.add_sub_cancel_left]
  · rwa [← length, List.getElem?_append_right (by omega), Nat.add_sub_cancel_left]

/-! ### Files in lockstep outside of links -/

section Links

variable {provider : Provider σ} {base : σ} {provider' : Provider τ} {base' : τ}

/-- What is supposed of two expansions: outside of links, files are loaded that have the same text, and corresponding
links agree. -/
structure AlikeButLinks (provider : Provider σ) (base : σ) (provider' : Provider τ) (base' : τ) (j j' : Journal) :
    Prop where
  /-- The files that are loaded outside of links have the same text. -/
  texts : ∀ path ∈ Journal.chainLoads j, SameText provider base provider' base' path
  /-- Corresponding links agree. -/
  links : LinksAgree (Journal.links j) (Journal.links j')

/-- Two journals put out the same and link as often. -/
structure Journal.SameButLinks (file : Path) (j j' : Journal) : Prop where
  /-- The same is put out. -/
  emissions : emissions file j' = emissions file j
  /-- There are as many links. -/
  links : (links j').length = (links j).length

variable (provider base provider' base') in
/-- Outside of links, nothing differs but the stores and the contents of scopes and vertex shaders. -/
def butLinks : Comparison σ τ where
  stores := ReachTwo provider base provider' base'
  scopes := Scope.SameTypes
  vertices v v' := v'.isSome = v.isSome
  V := Variable.SameName
  lines := Eq
  journals := Journal.SameButLinks
  supposed := AlikeButLinks provider base provider' base'
  isSome := id
  declare ht _ := ht.declare _ _
  define name _ _ ht _ := ht.define name _ _
  refl _ _ := ⟨rfl, rfl⟩
  append h k := ⟨by rw [Journal.emissions_append, Journal.emissions_append, h.emissions, k.emissions],
    by simp [h.links, k.links]⟩
  problem := by rintro _ _ _ _ rfl; exact ⟨rfl, rfl⟩
  abandon := by rintro _ _ _ rfl; exact ⟨rfl, rfl⟩
  supposed_left h := ⟨fun path hp => h.texts path (by simp [hp]), by
    have links := h.links
    rw [Journal.links_append, Journal.links_append] at links
    exact links.left⟩
  supposed_right hj h := ⟨fun path hp => h.texts path (by simp [hp]), by
    have links := h.links
    rw [Journal.links_append, Journal.links_append] at links
    exact links.right hj.links⟩

/-- Outside of links, files are expanded in lockstep. -/
theorem files_butLinks (two : PureTwo provider base provider' base') :
    (butLinks provider base provider' base').Files provider provider' where
  lines := rfl
  self _ := rfl
  types := Scope.SameTypes.like
  merge := Scope.SameTypes.merge
  none := rfl
  orElse {v v' w w'} hv hw := by
    have hv : v'.isSome = v.isSome := hv
    have hw : w'.isSome = w.isSome := hw
    cases v <;> cases v' <;> simp_all
  woven _ := rfl
  resolve := two.resolve_eq
  stores := ReachTwo.load
  load hs path supposed := two.load_eq hs (supposed.texts path (by simp [Journal.chainLoads, Entry.chainLoads]))
  supposed {q q' result result' j j'} h := by
    obtain ⟨texts, links⟩ := h
    simp only [Journal.chainLoads, Entry.chainLoads, Journal.links, Entry.links, List.append_nil] at texts links
    exact ⟨texts, links⟩
  included file _ _ _ _ hq he := ⟨by simp [Journal.emissions, Entry.emissions, hq.path, he.journal.emissions],
    by simp [Journal.links, Entry.links, he.journal.links]⟩
  linked file depth q q' _ _ _ hs _ supposed :=
    have agrees := supposed.links 0 _ _ rfl rfl
    ⟨⟨hs.expandFile depth q q', agrees.types, agrees.found⟩, rfl, rfl⟩

/-- **A linked vertex shader does not show in the file that links it.** Two pure providers resolve paths alike, and the
files that are loaded outside of links have the same texts in both. If corresponding links come back with the same
types, and with a vertex shader in both or in neither, then the same text is woven from the same places, the same files
are included, and the same is reported outside of links. A link writes to the file the blanks within it and nothing
else. -/
theorem expandFile_of_links (two : PureTwo provider base provider' base') (depth : Nat) (r : FileRequest)
    (supposed : AlikeButLinks provider base provider' base' (expandFile provider depth r base).journal
      (expandFile provider' depth r base').journal) :
    let e := expandFile provider depth r base
    let e' := expandFile provider' depth r base'
    (Journal.woven r.path e'.journal = Journal.woven r.path e.journal ∧ e'.result.chain = e.result.chain ∧
        Journal.chainDiagnostics r.path e'.journal = Journal.chainDiagnostics r.path e.journal ∧
        e.result.Agrees e'.result ∧ (Journal.links e'.journal).length = (Journal.links e.journal).length) ∧
      ∀ (ctx : FileContext σ) (s : FileState σ) (c : Cursor) (directive path : Token) (blanks rest : List Token),
        c.ahead = directive :: (blanks ++ path :: rest) → directive.role = .vertexLink →
        (∀ b ∈ blanks, b.isBlank = true) → path.kind = .string →
        Journal.written ctx.path (ctx.finish s c (ctx.read s c)).2 = blanks := by
  intro e e'
  have twin : (butLinks provider base provider' base').Expansions r.path e e' :=
    (files_butLinks two).nested depth r r base base' ⟨rfl, rfl, .refl _, rfl⟩ ⟨.refl, .refl⟩ supposed
  refine ⟨⟨?_, twin.chain, ?_, ⟨twin.scope, twin.vertex⟩, twin.journal.links⟩, ?_⟩
  · rw [Journal.woven_eq_write, Journal.woven_eq_write, twin.journal.emissions]
  · rw [Journal.chainDiagnostics, twin.journal.emissions, Journal.chainDiagnostics]
  · exact fun ctx s c directive path blanks rest ahead link blank string => ctx.written_link ahead link blank string

/-- A fragment shader that links a vertex shader with the given text and declares a uniform of a type that is defined
there. -/
def linkingFiles (vertex : String) : MemoryFiles :=
  (MemoryFiles.empty.put "a.frag" [some "#vertex_shader \"b.vert\"\nuniform Light sun;\n"]).put "b.vert" [some vertex]

/-- Another vertex shader with a type of the same name leaves the fragment shader as it is. -/
theorem expandFile_of_links_vertex :
    let provider := MemoryFiles.provider
    let base := linkingFiles "struct Light \x7b float level; \x7d;\n"
    let base' := linkingFiles "uniform mat4 m;\nstruct Light \x7b vec3 color; \x7d;\nvoid main();\n"
    let r : FileRequest := .entry ⟨"a.frag"⟩
    let e := expandFile provider 2 r base
    let e' := expandFile provider 2 r base'
    PureTwo provider base provider base' ∧ AlikeButLinks provider base provider base' e.journal e'.journal ∧
      (Journal.woven r.path e'.journal).text = " \nuniform Light sun;\n" ∧ e'.result.chain = e.result.chain ∧
      Journal.chainDiagnostics r.path e'.journal = [] := by
  intro provider base base' r e e'
  have settled (vertex : String) : (linkingFiles vertex).Settled := (MemoryFiles.settled_empty.put _ _).put _ _
  have two : PureTwo provider base provider base' := ⟨(settled _).isPure, (settled _).isPure, fun _ => rfl⟩
  have texts : ∀ path ∈ Journal.chainLoads e.journal, (provider.load base' path).1 = (provider.load base path).1 := by
    decide +kernel
  have keys : (Journal.links e.journal).map (fun l => (l.scope.structs.keys, l.vertex.isSome)) =
      [(["Light"], true)] := by
    decide +kernel
  have keys' : (Journal.links e'.journal).map (fun l => (l.scope.structs.keys, l.vertex.isSome)) =
      [(["Light"], true)] := by
    decide +kernel
  have links : LinksAgree (Journal.links e.journal) (Journal.links e'.journal) := by
    intro i l l' hl hl'
    have same : (l'.scope.structs.keys, l'.vertex.isSome) = (l.scope.structs.keys, l.vertex.isSome) := by
      have at_i := congrArg (·[i]?) (keys'.trans keys.symm)
      simpa [hl, hl'] using at_i
    exact ⟨.of_keys (congrArg Prod.fst same), congrArg Prod.snd same⟩
  have supposed : AlikeButLinks provider base provider base' e.journal e'.journal := ⟨texts, links⟩
  obtain ⟨⟨woven, chain, diagnostics, -⟩, -⟩ := expandFile_of_links two 2 r supposed
  exact ⟨two, supposed, (congrArg Weave.text woven).trans (by decide +kernel), chain,
    diagnostics.trans (by decide +kernel)⟩

end Links

end ShaderWeave
