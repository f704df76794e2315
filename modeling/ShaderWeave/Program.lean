import ShaderWeave.Expansion

/-!
# Programs

A program starts from one file, the entry. The woven text of the entry is the fragment shader, if the entry is one, and
the vertex shader is the one that was found on the way. The uniforms of all files are listed by their leaves, and two
leaves of one name are reported as a warning.

A program is valid if nothing but warnings has been reported.
-/

namespace ShaderWeave

/-- A program with all that has been found out about it. -/
structure Program where
  /-- The file it starts from. -/
  entry : Path
  /-- What the expansion of the entry hands back. -/
  result : FileResult
  /-- What happened during the expansion. -/
  journal : Journal

/-- The order to expand the entry of a program. -/
def FileRequest.entry (path : Path) : FileRequest :=
  ⟨path, true, .empty, .empty⟩

/-- Puts together the program that starts from a file. -/
def Provider.program {σ : Type} (provider : Provider σ) (entry : Path) (store : σ) : Program × σ :=
  let expansion := provider.expand (.entry entry) store
  (⟨entry, expansion.result, expansion.journal⟩, expansion.store)

namespace Scope

/-- The warnings for leaves of one name, which concern a file as a whole. -/
def collisionWarnings (t : Scope) (file : String) : List Diagnostic :=
  t.collisions.map fun name => ⟨file, 0, .repeatedLeaf name⟩

/-- The messages for leaves of one name. -/
def collisionLog (t : Scope) : List LogLine :=
  t.collisions.map fun name => ⟨.warn, "Uniform " ++ name ++ " is present twice"⟩

end Scope

namespace Program

/-- The problems of the program. The collisions of uniforms come last. -/
def diagnostics (p : Program) : List Diagnostic :=
  Journal.diagnostics p.entry p.journal ++ p.result.scope.collisionWarnings p.entry.text

/-- Nothing but warnings has been reported. -/
def isValid (p : Program) : Bool :=
  p.diagnostics.all Diagnostic.isWarning

/-- The text of the vertex shader. It is empty if there is none. -/
def vertex (p : Program) : Weave :=
  p.result.vertex.getD .empty

/-- The text of the fragment shader. It is empty if the entry is none. -/
def fragment (p : Program) : Weave :=
  if p.entry.isFragment then Journal.woven p.entry p.journal else .empty

/-- The leaves of all uniforms, in the order of the names of the uniforms. -/
def uniforms (p : Program) : List Uniform :=
  p.result.scope.leaves

/-- What the provider was asked. -/
def calls (p : Program) : List Call :=
  Journal.calls p.journal

/-- The messages of the run. -/
def log (p : Program) : List LogLine :=
  Journal.log p.entry p.journal ++ p.result.scope.collisionLog

end Program

end ShaderWeave
