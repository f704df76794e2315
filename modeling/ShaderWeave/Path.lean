import ShaderWeave.Text.Search
import Std.Data.ExtTreeSet

/-!
# Paths and providers of files

A path is a text whose components are separated by slashes. Empty components and single dots name nothing. The last
component that is left is the file name, unless it is the double dot that names the directory above.

The extension of a file is the text after the last dot of its name, where a dot at the very start does not count. It
decides the stage of a shader: `isVertex` and `isFragment` look for `vert` and `frag` in it.

`Path.join` puts a path below a root. A path that starts with a slash is kept as it is.

Paths are ordered by their text. A `PathSet` is a set of paths, and two sets with the same members are equal.

A `Provider` says where files come from. It turns the path that is written in a file into the one under which the file
is loaded, and loads it. Loading may change what the provider holds, so a file may read differently the next time;
the state is passed on explicitly as a store of type `σ`.
-/

namespace ShaderWeave

/-- The path under which a file is loaded and told apart from the others. -/
structure Path where
  /-- The path as it is written. -/
  text : String
  deriving DecidableEq

namespace Path

/-- The parts of a text between separators. -/
def splitOn (separator : Char) : List Char → List (List Char)
  | [] => [[]]
  | c :: cs =>
    if c = separator then [] :: splitOn separator cs
    else
      match splitOn separator cs with
      | [] => [[c]]
      | part :: parts => (c :: part) :: parts

/-- The components that name something. -/
def components (path : List Char) : List (List Char) :=
  (splitOn '/' path).filter fun part => part ≠ [] && part ≠ ['.']

/-- The last component, unless it is the directory above. -/
def fileName? (path : List Char) : Option (List Char) :=
  (components path).getLast?.filter (· ≠ ['.', '.'])

/-- The text after the last dot of a file name, if a dot stands in it after the first character. -/
def extensionOfName? (name : List Char) : Option (List Char) :=
  if '.' ∈ name.drop 1 then some (name.reverse.takeWhile (· ≠ '.')).reverse else none

/-- The extension of the file that a path names. -/
def extension? (path : Path) : Option (List Char) :=
  (fileName? path.text.toList).bind extensionOfName?

/-- The path names a file whose name has an extension. -/
def namesFile (path : Path) : Bool :=
  (fileName? path.text.toList).isSome && path.extension?.isSome

/-- The file has an extension with the given text in it. -/
def extensionContains (path : Path) (part : String) : Bool :=
  path.extension?.any (Text.contains part.toList)

/-- The path names a vertex shader. -/
def isVertex (path : Path) : Bool :=
  path.extensionContains "vert"

/-- The path names a fragment shader. -/
def isFragment (path : Path) : Bool :=
  path.extensionContains "frag"

/-! ### Joining -/

/-- A path below a root, both as sequences of characters or of pieces of a file name. -/
def joinWith {α : Type} [DecidableEq α] (slash : α) (root path : List α) : List α :=
  if path.head? = some slash then path
  else if root = [] ∨ root.getLast? = some slash then root ++ path
  else root ++ slash :: path

/-- A path below a root. -/
def join (root path : String) : String :=
  String.ofList (joinWith '/' root.toList path.toList)

/-! ### Order -/

instance : Ord Path := ⟨fun p q => compare p.text q.text⟩

instance : Std.TransOrd Path where
  eq_swap {p q} := Std.OrientedOrd.eq_swap (a := p.text) (b := q.text)
  isLE_trans {p q r} := Std.TransOrd.isLE_trans (a := p.text) (b := q.text) (c := r.text)

instance : Std.LawfulEqOrd Path where
  compare_self {p} := Std.ReflOrd.compare_self (a := p.text)
  eq_of_compare {p q} h := by
    have hpq : p.text = q.text := Std.LawfulEqOrd.eq_of_compare h
    cases p
    cases q
    simp_all

end Path

/-- A set of paths. -/
abbrev PathSet := Std.ExtTreeSet Path compare

/-- A source of files with stores of type `σ`. -/
structure Provider (σ : Type) where
  /-- The path that a written path stands for, or why there is none. -/
  resolve : σ → String → Except String Path
  /-- The content of a file, or why it cannot be loaded, and the store after it. -/
  load : σ → Path → Except String String × σ
  /-- A depth that files of the store cannot exceed by opening one another. -/
  reach : σ → Nat

end ShaderWeave
