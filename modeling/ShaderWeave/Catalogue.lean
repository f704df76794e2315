import ShaderWeave.FileTree
import ShaderWeave.Program

/-!
# Catalogues of programs

Every file below some directories whose extension contains a given text is tried as the entry of a program. The entries
of valid programs are listed in the order of the walk. The diagnostics of the other files are kept, and those of valid
programs, which are warnings, are dropped. A directory that does not exist is reported.

The directories, like the names of all entries below them, are given as texts. A directory or a file whose path is no
text is not part of a `FileTree`, and nothing is said of it here.
-/

namespace ShaderWeave

/-- The programs that have been found below some directories. -/
structure Catalogue where
  /-- The entries of valid programs. -/
  programs : List Path
  /-- Why other files were rejected. -/
  diagnostics : List Diagnostic
  /-- What the provider was asked. -/
  calls : List Call

namespace Catalogue

/-- Nothing has been found. -/
def empty : Catalogue :=
  ⟨[], [], []⟩

/-- What has been found in two places, one after the other. -/
def append (first second : Catalogue) : Catalogue :=
  ⟨first.programs ++ second.programs, first.diagnostics ++ second.diagnostics, first.calls ++ second.calls⟩

/-- What is found in a program. -/
def ofProgram (p : Program) : Catalogue :=
  if p.isValid then ⟨[p.entry], [], p.calls⟩ else ⟨[], p.diagnostics, p.calls⟩

/-- What is found of a directory that does not exist. -/
def missingRoot (root : String) : Catalogue :=
  ⟨[], [⟨root, 0, .notFound root "directory does not exist"⟩], []⟩

end Catalogue

/-- The files at or below a path whose extension contains a text, or nothing if there is nothing at the path. -/
def FileTree.matchingFiles? (tree : FileTree) (extension root : String) : Option (List Path) :=
  match tree.locate root with
  | .error _ => none
  | .ok node => some ((node.filesAt root).filter fun path => path.extensionContains extension)

namespace Provider

variable {σ : Type} (provider : Provider σ)

/-- Tries files as programs, one after another. -/
def catalogueFiles : List Path → σ → Catalogue × σ
  | [], store => (.empty, store)
  | path :: paths, store =>
    let one := provider.program path store
    let more := catalogueFiles paths one.2
    ((Catalogue.ofProgram one.1).append more.1, more.2)

/-- Tries the files below one path. -/
def catalogueRoot (tree : FileTree) (extension root : String) (store : σ) : Catalogue × σ :=
  match tree.matchingFiles? extension root with
  | none => (.missingRoot root, store)
  | some paths => provider.catalogueFiles paths store

/-- Tries the files below several paths, one after another. -/
def catalogue (tree : FileTree) (extension : String) : List String → σ → Catalogue × σ
  | [], store => (.empty, store)
  | root :: roots, store =>
    let one := provider.catalogueRoot tree extension root store
    let more := catalogue tree extension roots one.2
    (one.1.append more.1, more.2)

end Provider

end ShaderWeave
