import ShaderWeave.Path
import ShaderWeave.Text.Bytes

/-!
# Trees of files

A file tree holds the files below a working directory. `locate` follows a path in it: single dots and empty components
stay, double dots go up, and every component but the last must be a directory. Nothing is known of what lies outside
the tree, where every directory counts as empty.

`filesAt` lists the files at or below a path. It stands for a walk through directories of which this is assumed: the
entries of a directory are visited in the order of the bytes of their names, the contents of a directory before its next
sibling, and nothing is visited twice or left out. A tree has nothing but files and directories, all of which can be
read, so the walk follows no links and fails nowhere.

Names are texts. A file system may also have names that are no text. Such a name would be shown with substitute
characters, and no text would be found in such an extension; no tree has them.
-/

namespace ShaderWeave

/-- A file or a directory. -/
inductive FileTree where
  /-- A file with its content. -/
  | file (content : List Text.Piece)
  /-- A directory. Its entries have names and stand in their order. -/
  | directory (entries : List (String × FileTree))

/-- Why a file cannot be read. -/
inductive FileError where
  /-- There is no such file. -/
  | notFound
  /-- A component of the path that should be a directory is none. -/
  | notADirectory
  /-- The path names a directory. -/
  | isADirectory
  /-- The path or a component of it is too long. -/
  | nameTooLong
  /-- There is a NUL character in the path. -/
  | unexpectedNul
  /-- The content is no text. -/
  | invalidText
  deriving DecidableEq

/-- The wording of an error, with its number where it has one. -/
def FileError.message : FileError → String
  | .notFound => "No such file or directory (os error 2)"
  | .notADirectory => "Not a directory (os error 20)"
  | .isADirectory => "Is a directory (os error 21)"
  | .nameTooLong => "File name too long (os error 36)"
  | .unexpectedNul => "file name contained an unexpected NUL byte"
  | .invalidText => "stream did not contain valid UTF-8"

namespace FileTree

/-- A directory without entries. -/
def empty : FileTree :=
  .directory []

/-! ### Building a tree -/

/-- Puts an entry in the place of its name. -/
def insertEntry (name : String) (node : FileTree) : List (String × FileTree) → List (String × FileTree)
  | [] => [(name, node)]
  | (other, old) :: rest =>
    if name = other then (name, node) :: rest
    else if name < other then (name, node) :: (other, old) :: rest
    else (other, old) :: insertEntry name node rest

/-- The entries of a directory. A file has none. -/
def entries : FileTree → List (String × FileTree)
  | .file _ => []
  | .directory entries => entries

/-- The entry of a name. -/
def find? (tree : FileTree) (name : String) : Option FileTree :=
  (tree.entries.find? fun entry => entry.1 = name).map Prod.snd

/-- Puts a file or a directory below a path of names. The directories on the way are made where there are none, and a
directory that is there already is kept with its entries. -/
def insert (tree : FileTree) (node : FileTree) : List String → FileTree
  | [] =>
    match tree, node with
    | .directory entries, .directory _ => .directory entries
    | _, node => node
  | name :: names =>
    .directory (insertEntry name (((tree.find? name).getD empty).insert node names) tree.entries)

/-! ### Paths in a tree -/

/-- The longest component of a path, in bytes. -/
def nameLimit : Nat := 255

/-- The longest path, in bytes. -/
def pathLimit : Nat := 4095

/-- Follows the components of a path. `above` holds the directories that lead to `here`, the nearest one first. -/
def follow (above : List FileTree) (here : FileTree) : List (List Char) → Except FileError FileTree
  | [] => .ok here
  | part :: parts =>
    match here with
    | .file _ => .error .notADirectory
    | .directory _ =>
      if part = [] ∨ part = ['.'] then follow above here parts
      else if part = ['.', '.'] then
        match above with
        | [] => follow [] empty parts
        | parent :: above => follow above parent parts
      else if nameLimit < (String.ofList part).utf8ByteSize then .error .nameTooLong
      else
        match here.find? (String.ofList part) with
        | none => .error .notFound
        | some child => follow (here :: above) child parts

/-- What stands at a path. A path that starts with a slash leads outside. -/
def locate (tree : FileTree) (path : String) : Except FileError FileTree :=
  if '\x00' ∈ path.toList then .error .unexpectedNul
  else if path = "" then .error .notFound
  else if pathLimit < path.utf8ByteSize then .error .nameTooLong
  else follow [] (if path.toList.head? = some '/' then empty else tree) (Path.splitOn '/' path.toList)

/-- The text of the file at a path. -/
def read (tree : FileTree) (path : String) : Except FileError String :=
  match tree.locate path with
  | .error e => .error e
  | .ok (.directory _) => .error .isADirectory
  | .ok (.file content) =>
    match Text.text? content with
    | some text => .ok (String.ofList text)
    | none => .error .invalidText

/-! ### Listing files -/

mutual

/-- The paths of the files at or below a path. -/
def filesAt (path : String) : FileTree → List Path
  | .file _ => [⟨path⟩]
  | .directory entries => filesIn path entries

/-- The paths of the files among the entries of a directory. -/
def filesIn (directory : String) : List (String × FileTree) → List Path
  | [] => []
  | (name, node) :: rest => filesAt (Path.join directory name) node ++ filesIn directory rest

end

mutual

/-- The number of characters and stray bytes in all files. -/
def size : FileTree → Nat
  | .file content => content.length
  | .directory entries => sizeOfEntries entries

/-- The number of characters and stray bytes in the files among some entries. -/
def sizeOfEntries : List (String × FileTree) → Nat
  | [] => 0
  | (_, node) :: rest => size node + sizeOfEntries rest

end

end FileTree

end ShaderWeave
