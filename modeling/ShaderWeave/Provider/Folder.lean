import ShaderWeave.FileTree
import ShaderWeave.Text.Character

/-!
# Files below a root directory

A provider that resolves written paths against a root directory and reads files from a file tree. The root comes from
the system and need not be text. A path below such a root has no name as a text, and a message shows it with its
stray bytes.
-/

namespace ShaderWeave

/-- A directory that written paths are resolved against. -/
structure Folder where
  /-- The path of the directory. -/
  root : List Text.Piece

namespace Folder

/-- A piece of a quoted path. -/
def escapePiece : Text.Piece → List Char
  | .char c => Text.escape c
  | .stray byte => ['\\', 'x'] ++ (Nat.toDigits 16 byte.toNat).map Char.toUpper

/-- A path between quotes. -/
def quotePieces (path : List Text.Piece) : String :=
  String.ofList ('"' :: path.flatMap escapePiece ++ ['"'])

/-- The path below the root that a written path stands for. -/
def resolve (folder : Folder) (written : String) : Except String Path :=
  let joined := Path.joinWith (.char '/') folder.root (Text.ofText written.toList)
  match Text.text? joined with
  | some text => .ok ⟨String.ofList text⟩
  | none => .error (quotePieces joined ++ " is not valid UTF-8")

/-- The provider of the files of a tree. A file is opened by one that holds its written path between quotes, and no
file is opened within itself, so no more files lie below another one than there are characters in all files. By
`Folder.expand_complete` the depth is enough. -/
def provider (folder : Folder) : Provider FileTree where
  resolve _ written := folder.resolve written
  load tree path := ((tree.read path.text).mapError FileError.message, tree)
  reach tree := tree.size + 2

end Folder

end ShaderWeave
