import ShaderWeave.Expansion
import ShaderWeave.Proofs.Scope.Growth

/-!
# Expansion on one ledger

A second way to expand files. Here all files of a run work on one ledger, which holds the scope, the diagnostics and the
store of the provider. A file that is opened is handed the ledger itself and leaves it to the next one; no scope is
copied, and none is merged. Only what belongs to a chain, the set of the files that have been included, starts anew with
each linked vertex shader, and only the text of a file is its own.

The ledger also keeps a record of what has been declared, in the order of the expansion, and of the sets of included
files with which the chains of linked vertex shaders ended.

`expandOnLedger` is to `expandFile` what one shared table is to tables that are copied on the way down and merged on the
way up. `ShaderWeave.Proofs.Expansion.Sharing` proves that they agree.
-/

namespace ShaderWeave

variable {σ : Type}

/-- What all files of a run share. -/
structure Ledger (σ : Type) where
  /-- The store of the provider. -/
  store : σ
  /-- What has been declared. -/
  scope : Scope
  /-- The declarations, in the order of the expansion. -/
  declared : List Declared
  /-- The diagnostics, in the order in which they were found. -/
  diagnostics : List Diagnostic
  /-- The files that were included in the chain of each linked vertex shader, in the order in which the chains ended. -/
  linkedChains : List PathSet

namespace Ledger

/-- The ledger before a run. -/
def start (store : σ) (scope : Scope) : Ledger σ :=
  ⟨store, scope, [], [], []⟩

/-- Adds a diagnostic. -/
def report (l : Ledger σ) (d : Diagnostic) : Ledger σ :=
  { l with diagnostics := l.diagnostics ++ [d] }

/-- Adds a declaration. -/
def enter (l : Ledger σ) (d : Declared) : Ledger σ :=
  { l with scope := l.scope.enter d, declared := l.declared ++ [d] }

/-- Ends the chain of a linked vertex shader. -/
def closeChain (l : Ledger σ) (visited : PathSet) : Ledger σ :=
  { l with linkedChains := l.linkedChains ++ [visited] }

end Ledger

/-- A file that is expanded on a ledger. -/
structure LedgerState (σ : Type) where
  /-- The ledger. -/
  ledger : Ledger σ
  /-- The files that have been included in the chain of the file. -/
  visited : PathSet
  /-- The text of the vertex shader that has been found. -/
  vertex : Option Weave
  /-- The text of the file. -/
  text : Weave

namespace LedgerState

/-- Reports a problem on a line of a file. -/
def report (t : LedgerState σ) (file : Path) (p : Problem) (line : Nat) : LedgerState σ :=
  { t with ledger := t.ledger.report ⟨file.text, line, p⟩ }

/-- Puts out what reading a file has left behind. -/
def put (t : LedgerState σ) (file : Path) : Output → LedgerState σ
  | .copy token => { t with text := t.text.push token.render ⟨file.text, token.line⟩ }
  | .newline line => { t with text := t.text.push "\n" ⟨file.text, line⟩ }
  | .problem p line => t.report file p line
  | .misread _ => t

/-- Adds a declaration. -/
def enter (t : LedgerState σ) (d : Declared) : LedgerState σ :=
  { t with ledger := t.ledger.enter d }

end LedgerState

/-- How a file is expanded on a ledger: the file, whether it must not be a template, and its chain. -/
abbrev LedgerExpander (σ : Type) :=
  Path → Bool → Chain → Ledger σ → LedgerState σ

/-- What stays the same while a file is expanded on a ledger. -/
structure LedgerContext (σ : Type) where
  /-- Where files come from. -/
  provider : Provider σ
  /-- How another file is expanded. -/
  nested : LedgerExpander σ
  /-- The file. -/
  path : Path
  /-- The file must not be a template. -/
  standsAlone : Bool
  /-- The files that are being expanded, this one last. -/
  active : List Path

namespace LedgerContext

/-- Expands an included file in its place. -/
def includePath (ctx : LedgerContext σ) (path : Path) (line : Nat) (t : LedgerState σ) : LedgerState σ :=
  if path ∈ t.visited then t
  else if path ∈ ctx.active then t.report ctx.path (.cycle path.text ctx.path.text) line
  else
    let child := ctx.nested path false ⟨t.visited.insert path, ctx.active⟩ t.ledger
    let after : LedgerState σ :=
      ⟨child.ledger, child.visited, t.vertex <|> child.vertex, t.text.append child.text⟩
    if t.vertex.isSome && child.vertex.isSome then after.report ctx.path .secondVertexShader line else after

/-- Reports a link to a file that is no vertex shader. -/
def checkLink (ctx : LedgerContext σ) (path : Path) (line : Nat) (t : LedgerState σ) : LedgerState σ :=
  if path.isVertex then t else t.report ctx.path (.linkToOther path.text) line

/-- Expands a vertex shader for the program. -/
def linkPath (ctx : LedgerContext σ) (path : Path) (line : Nat) (t : LedgerState σ) : LedgerState σ :=
  let checked := ctx.checkLink path line t
  if path ∈ ctx.active then checked.report ctx.path (.cycle path.text ctx.path.text) line
  else
    let linked := ctx.nested path true ⟨∅, ctx.active⟩ checked.ledger
    ⟨linked.ledger.closeChain linked.visited, t.visited, linked.vertex, t.text⟩

/-- Expands a file in the manner asked for. -/
def openPath (ctx : LedgerContext σ) : Manner → Path → Nat → LedgerState σ → LedgerState σ
  | .included => ctx.includePath
  | .linked => ctx.linkPath

/-- Opens the file behind a written path, unless a second vertex shader is asked for. -/
def openRequest (ctx : LedgerContext σ) (manner : Manner) (written : String) (line : Nat) (t : LedgerState σ) :
    LedgerState σ :=
  if manner = .linked ∧ t.vertex.isSome then t.report ctx.path .secondVertexShader line
  else
    match ctx.provider.resolve t.ledger.store written with
    | .error cause => t.report ctx.path (.notFound written cause) line
    | .ok path => ctx.openPath manner path line t

/-- Does what a construct asks for. -/
def perform (ctx : LedgerContext σ) (t : LedgerState σ) : Action → LedgerState σ
  | .nothing => t
  | .declare v => t.enter (.uniform v)
  | .define name fields => t.enter (.struct name fields)
  | .request manner written line => ctx.openRequest manner written line t

/-- Finishes a construct that was read. -/
def finish (ctx : LedgerContext σ) (t : LedgerState σ) (o : Outcome Action) : LedgerState σ :=
  let written := o.output.foldl (fun t out => t.put ctx.path out) t
  match o.value with
  | some action => ctx.perform written action
  | none => written

/-- Expands the constructs from a cursor on. -/
def walk (ctx : LedgerContext σ) (t : LedgerState σ) (c : Cursor) : LedgerState σ :=
  if _h : c.ahead = [] then t
  else
    let o := Reader.construct ctx.path ctx.standsAlone t.ledger.scope.structs c
    ctx.walk (ctx.finish t o) (c.skip (o.steps + 1))
termination_by c.ahead.length
decreasing_by
  have := List.length_pos_iff.2 _h
  simp only [Cursor.ahead_skip, List.length_drop]
  omega

end LedgerContext

/-- Expands a file on a ledger, given how the files it asks for are expanded. -/
def openOnLedger (provider : Provider σ) (nested : LedgerExpander σ) : LedgerExpander σ :=
  fun path standsAlone chain ledger =>
    let fresh : LedgerState σ := ⟨ledger, chain.visited, none, .empty⟩
    if !path.namesFile then fresh.report path (.noExtension path.text) 0
    else
      let loaded := provider.load ledger.store path
      let ready : LedgerState σ := { fresh with ledger := { ledger with store := loaded.2 } }
      match loaded.1 with
      | .error cause => ready.report path (.notFound path.text cause) 0
      | .ok content =>
        let ctx : LedgerContext σ := ⟨provider, nested, path, standsAlone, chain.active ++ [path]⟩
        let lexed := (unclosedLines content).foldl (fun t line => t.report path .unclosedString line) ready
        let done := ctx.walk lexed (.start (lex content))
        if path.isVertex then { done with vertex := some done.text } else done

/-- Expands a file on a ledger where files open one another to the given depth at most. -/
def expandOnLedger (provider : Provider σ) : Nat → LedgerExpander σ
  | 0 => fun _ _ chain ledger => ⟨ledger, chain.visited, none, .empty⟩
  | depth + 1 => openOnLedger provider (expandOnLedger provider depth)

end ShaderWeave
