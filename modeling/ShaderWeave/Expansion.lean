import ShaderWeave.Journal
import ShaderWeave.LexedFile

/-!
# Expanding files

A file is loaded, cut into tokens and read construct by construct. Each construct is read first, and then does what it
asks for: a declaration goes into the scope, and a request opens another file, which starts from the same scope and
chain and whose scope is merged back.

* A file that is included is expanded once in a chain. A file that is being expanded is never opened again.
* A linked vertex shader starts a chain of its own. It contributes its declarations and its text, and nothing to the
  text of the file that links it.
* The first vertex shader counts, and every later one is a problem. A vertex shader that is loaded counts as its own.

`openFile` expands one file, given how the files it asks for are expanded. `expandFile` ties the knot over the depth to
which files may open one another.
-/

namespace ShaderWeave

/-- The outcome of expanding a file. -/
structure Expansion (σ : Type) where
  /-- What the file hands back. -/
  result : FileResult
  /-- What happened. -/
  journal : Journal
  /-- The store of the provider after it. -/
  store : σ

/-- What stays the same while a file is expanded. -/
structure FileContext (σ : Type) where
  /-- Where files come from. -/
  provider : Provider σ
  /-- How another file is expanded. -/
  nested : FileRequest → σ → Expansion σ
  /-- The file. -/
  path : Path
  /-- The file must not be a template. -/
  standsAlone : Bool
  /-- The files that are being expanded, this one last. -/
  active : List Path

/-- What later constructs of a file depend on. -/
structure FileState (σ : Type) where
  /-- The store of the provider. -/
  store : σ
  /-- What has been declared. -/
  scope : Scope
  /-- The files that have been included. -/
  visited : PathSet
  /-- The text of the vertex shader that has been found. -/
  vertex : Option Weave

namespace FileContext

variable {σ : Type}

/-- Expands an included file in its place. -/
def includePath (ctx : FileContext σ) (path : Path) (line : Nat) (s : FileState σ) : FileState σ × Journal :=
  if path ∈ s.visited then (s, [.skip path])
  else if path ∈ ctx.active then (s, [.problem (.cycle path.text ctx.path.text) line])
  else
    let request : FileRequest := ⟨path, false, s.scope, ⟨s.visited.insert path, ctx.active⟩⟩
    let child := ctx.nested request s.store
    let result := child.result
    (⟨child.store, s.scope.merge result.scope, result.chain.visited, s.vertex <|> result.vertex⟩,
      .expand .included request result child.journal ::
        if s.vertex.isSome && result.vertex.isSome then [.problem .secondVertexShader line] else [])

/-- Expands a vertex shader for the program. -/
def linkPath (ctx : FileContext σ) (path : Path) (line : Nat) (s : FileState σ) : FileState σ × Journal :=
  let check : Journal := if path.isVertex then [] else [.problem (.linkToOther path.text) line]
  if path ∈ ctx.active then
    (s, check ++ [.problem (.cycle path.text ctx.path.text) line])
  else
    let request : FileRequest := ⟨path, true, s.scope, ⟨∅, ctx.active⟩⟩
    let child := ctx.nested request s.store
    (⟨child.store, s.scope.merge child.result.scope, s.visited, child.result.vertex⟩,
      check ++ [.expand .linked request child.result child.journal])

/-- Expands a file in the manner asked for. -/
def openPath (ctx : FileContext σ) : Manner → Path → Nat → FileState σ → FileState σ × Journal
  | .included => ctx.includePath
  | .linked => ctx.linkPath

/-- Opens the file behind a written path, unless a second vertex shader is asked for. -/
def openRequest (ctx : FileContext σ) (manner : Manner) (written : String) (line : Nat) (s : FileState σ) :
    FileState σ × Journal :=
  if manner = .linked ∧ s.vertex.isSome then (s, [.problem .secondVertexShader line])
  else
    let answer := ctx.provider.resolve s.store written
    let opened : FileState σ × Journal :=
      match answer with
      | .error cause => (s, [.problem (.notFound written cause) line])
      | .ok path => ctx.openPath manner path line s
    (opened.1, .resolve written answer :: opened.2)

/-- Does what a construct asks for. -/
def perform (ctx : FileContext σ) (s : FileState σ) : Action → FileState σ × Journal
  | .nothing => (s, [])
  | .declare v => ({ s with scope := s.scope.declare v }, [])
  | .define name fields => ({ s with scope := s.scope.define name fields }, [])
  | .request manner written line =>
    let opened := ctx.openRequest manner written line s
    (opened.1, .request manner written :: opened.2)

/-- Reads the construct under the cursor. -/
def read (ctx : FileContext σ) (s : FileState σ) (c : Cursor) : Outcome Action :=
  Reader.construct ctx.path ctx.standsAlone s.scope.structs c

/-- Finishes the construct that was read from a cursor on. -/
def finish (ctx : FileContext σ) (s : FileState σ) (c : Cursor) (o : Outcome Action) : FileState σ × Journal :=
  let done : FileState σ × Journal :=
    match o.value with
    | some action => ctx.perform s action
    | none => (s, [.abandon (c.skip o.steps).line])
  (done.1, o.output.map .output ++ done.2)

/-- Expands the constructs from a cursor on. A construct ends on its last token, so the next one starts a token
later. -/
def walk (ctx : FileContext σ) (s : FileState σ) (c : Cursor) : FileState σ × Journal :=
  if _h : c.ahead = [] then (s, [])
  else
    let o := ctx.read s c
    let one := ctx.finish s c o
    let more := ctx.walk one.1 (c.skip (o.steps + 1))
    (more.1, one.2 ++ more.2)
termination_by c.ahead.length
decreasing_by
  have := List.length_pos_iff.2 _h
  simp only [Cursor.ahead_skip, List.length_drop]
  omega

/-- Expands a sequence of tokens. -/
def expandTokens (ctx : FileContext σ) (s : FileState σ) (ts : List Token) : FileState σ × Journal :=
  ctx.walk s (.start ts)

end FileContext

section Files

variable {σ : Type}

/-- What a file hands back that cannot be read. -/
def FileRequest.unread (r : FileRequest) : FileResult :=
  ⟨r.scope, r.chain, none⟩

/-- The entries before the first construct of a file. -/
def opening (path : Path) (content : String) : Journal :=
  .load path (.ok content) :: (unclosedLines content).map (Entry.problem .unclosedString) ++
    [.lexed (lex content).length]

/-- Expands a file, given how the files it asks for are expanded. -/
def openFile (provider : Provider σ) (nested : FileRequest → σ → Expansion σ) (r : FileRequest) (store : σ) :
    Expansion σ :=
  if !r.path.namesFile then
    ⟨r.unread, [Entry.problem (.noExtension r.path.text) 0], store⟩
  else
    let loaded := provider.load store r.path
    match loaded.1 with
    | .error cause =>
      ⟨r.unread, [.load r.path (.error cause), .problem (.notFound r.path.text cause) 0], loaded.2⟩
    | .ok content =>
      let ctx : FileContext σ := ⟨provider, nested, r.path, r.standsAlone, r.chain.active ++ [r.path]⟩
      let body := ctx.expandTokens ⟨loaded.2, r.scope, r.chain.visited, none⟩ (lex content)
      let journal := opening r.path content ++ body.2
      let vertex := if r.path.isVertex then some (Journal.woven r.path journal) else body.1.vertex
      ⟨⟨body.1.scope, ⟨body.1.visited, r.chain.active⟩, vertex⟩, journal, body.1.store⟩

/-- Expands a file where files open one another to the given depth at most. -/
def expandFile (provider : Provider σ) : Nat → FileRequest → σ → Expansion σ
  | 0, r, store => ⟨r.unread, [.tooDeep r.path], store⟩
  | depth + 1, r, store => openFile provider (expandFile provider depth) r store

/-- Expands a file to the depth that the files of the provider can have. -/
def Provider.expand (provider : Provider σ) (r : FileRequest) (store : σ) : Expansion σ :=
  expandFile provider (provider.reach store) r store

end Files

end ShaderWeave
