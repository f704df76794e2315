import ShaderWeave.Path
import Std.Data.ExtTreeMap

/-!
# Files in memory

A provider whose files are given by a list of versions each. Every load of a file takes the next version, and the last
one stays. A version may be missing, which means that the file cannot be loaded at that time.

Written paths stand for themselves unless an alias is given for them, or a reason why they stand for nothing.
-/

namespace ShaderWeave

/-- Files in memory. -/
structure MemoryFiles where
  /-- The versions of each file that are still to be loaded. -/
  versions : Std.ExtTreeMap String (List (Option String)) compare
  /-- The paths that written paths stand for. -/
  aliases : Std.ExtTreeMap String String compare
  /-- Why written paths cannot be resolved. -/
  refusals : Std.ExtTreeMap String String compare

namespace MemoryFiles

/-- No files. -/
def empty : MemoryFiles :=
  ⟨∅, ∅, ∅⟩

/-- Puts a file in place of the one that has its path. -/
def put (files : MemoryFiles) (path : String) (versions : List (Option String)) : MemoryFiles :=
  { files with versions := files.versions.insert path versions }

/-- The path that a written path stands for. -/
def resolve (files : MemoryFiles) (written : String) : Except String Path :=
  match files.refusals[written]? with
  | some cause => .error cause
  | none => .ok ⟨files.aliases[written]?.getD written⟩

/-- The content of a version of a file. -/
def contentOf (path : Path) : Option String → Except String String
  | some content => .ok content
  | none => .error ("no such file: " ++ path.text)

/-- Loads the next version of a file. -/
def load (files : MemoryFiles) (path : Path) : Except String String × MemoryFiles :=
  match files.versions[path.text]? with
  | none | some [] => (contentOf path none, files)
  | some [version] => (contentOf path version, files)
  | some (version :: later) => (contentOf path version, files.put path.text later)

/-- The provider of files in memory. A file is opened by one that loads, and no file is opened within itself. By
`MemoryFiles.expand_complete` the depth is enough. -/
def provider : Provider MemoryFiles where
  resolve := resolve
  load := load
  reach files := files.versions.size + 1

end MemoryFiles

end ShaderWeave
