import ShaderWeave.Catalogue
import Mathlib.Data.List.Basic
import Mathlib.Data.String.Basic
import Mathlib.Tactic.SplitIfs

/-!
# The walk through a file tree

A file of a tree stands at an address: the names on the way from a directory down to it (`FileTree.FileAt`). Where the
entries of every directory are in the order of their names (`FileTree.Ordered`), a walk lists each file below a
directory once, and in the lexicographic order of the addresses: all of a directory comes before its next sibling
(`FileTree.Ordered.pairwise_addresses`). Trees that are built entry by entry are ordered (`FileTree.Ordered.insert`),
and so is whatever is found in them (`FileTree.Ordered.locate`).

`FileTree.Lists` says which files below a path a catalogue tries, and in which order.
-/

namespace ShaderWeave

namespace FileTree

/-! ### Addresses -/

/-- The names lead from the tree down to a file. -/
inductive FileAt : FileTree → List String → Prop
  /-- It is the file. -/
  | here (content : List Text.Piece) : FileAt (.file content) []
  /-- They lead through an entry of the directory. -/
  | within {entries : List (String × FileTree)} {name : String} {node : FileTree} {names : List String}
    (entry : (name, node) ∈ entries) (more : FileAt node names) : FileAt (.directory entries) (name :: names)

mutual

/-- The addresses of all files, in the order of a walk. -/
def addresses : FileTree → List (List String)
  | .file _ => [[]]
  | .directory entries => addressesIn entries

/-- The addresses of the files among the entries of a directory. -/
def addressesIn : List (String × FileTree) → List (List String)
  | [] => []
  | (name, node) :: rest => (addresses node).map (name :: ·) ++ addressesIn rest

end

/-- The path of what is found at an address below a path. -/
def pathAt (path : String) (names : List String) : Path :=
  ⟨names.foldl Path.join path⟩

mutual

theorem mem_addresses_iff : ∀ (node : FileTree) (names : List String), names ∈ node.addresses ↔ node.FileAt names
  | .file content, names => by
    rw [addresses, List.mem_singleton]
    constructor
    · rintro rfl
      exact .here content
    · rintro ⟨⟩
      rfl
  | .directory entries, names => by
    rw [addresses, mem_addressesIn_iff]
    constructor
    · rintro ⟨name, node, more, entry, rfl, file⟩
      exact .within entry file
    · rintro (_ | ⟨entry, file⟩)
      exact ⟨_, _, _, entry, rfl, file⟩

theorem mem_addressesIn_iff : ∀ (entries : List (String × FileTree)) (names : List String),
    names ∈ addressesIn entries ↔
      ∃ name node more, (name, node) ∈ entries ∧ names = name :: more ∧ FileAt node more
  | [], names => by simp [addressesIn]
  | (first, node) :: rest, names => by
    rw [addressesIn, List.mem_append, List.mem_map, mem_addressesIn_iff rest]
    constructor
    · rintro (⟨more, mem, rfl⟩ | ⟨name, node', more, entry, rfl, file⟩)
      · exact ⟨first, node, more, List.mem_cons_self, rfl, (mem_addresses_iff node more).1 mem⟩
      · exact ⟨name, node', more, List.mem_cons_of_mem _ entry, rfl, file⟩
    · rintro ⟨name, node', more, entry, rfl, file⟩
      rcases List.mem_cons.1 entry with same | entry
      · obtain ⟨rfl, rfl⟩ := Prod.mk.inj same
        exact .inl ⟨more, (mem_addresses_iff node' more).2 file, rfl⟩
      · exact .inr ⟨name, node', more, entry, rfl, file⟩

end

mutual

/-- A walk lists the files at all addresses. -/
theorem filesAt_eq_map (path : String) : ∀ node : FileTree, node.filesAt path = node.addresses.map (pathAt path)
  | .file _ => rfl
  | .directory entries => filesIn_eq_map path entries

theorem filesIn_eq_map (path : String) :
    ∀ entries : List (String × FileTree), filesIn path entries = (addressesIn entries).map (pathAt path)
  | [] => rfl
  | (name, node) :: rest => by
    have below : (pathAt path ∘ (name :: ·)) = pathAt (Path.join path name) := rfl
    rw [filesIn, addressesIn, List.map_append, List.map_map, below, filesAt_eq_map _ node, filesIn_eq_map path rest]

end

/-! ### Ordered trees -/

/-- The entries are in the order of their names, each name once. -/
def InOrder (entries : List (String × FileTree)) : Prop :=
  entries.Pairwise fun a b => a.1 < b.1

/-- The entries of every directory in the tree are in the order of their names, each name once. -/
inductive Ordered : FileTree → Prop
  /-- A file has no entries. -/
  | file (content : List Text.Piece) : Ordered (.file content)
  /-- A directory. -/
  | directory {entries : List (String × FileTree)} (inOrder : InOrder entries)
    (each : ∀ entry ∈ entries, Ordered entry.2) : Ordered (.directory entries)

theorem ordered_empty : empty.Ordered :=
  .directory List.Pairwise.nil (by simp)

namespace Ordered

variable {tree : FileTree}

theorem inOrder (h : tree.Ordered) : InOrder tree.entries := by
  cases h with
  | file => exact List.Pairwise.nil
  | directory inOrder => exact inOrder

theorem each (h : tree.Ordered) : ∀ entry ∈ tree.entries, entry.2.Ordered := by
  cases h with
  | file => simp [entries]
  | directory _ each => exact each

end Ordered

theorem pairwise_addressesIn {entries : List (String × FileTree)} (inOrder : InOrder entries)
    (each : ∀ entry ∈ entries, entry.2.addresses.Pairwise (· < ·)) : (addressesIn entries).Pairwise (· < ·) := by
  induction entries with
  | nil => exact List.Pairwise.nil
  | cons entry rest ih =>
    obtain ⟨name, node⟩ := entry
    obtain ⟨before, inOrder⟩ := List.pairwise_cons.1 inOrder
    rw [addressesIn, List.pairwise_append]
    refine ⟨?_, ih inOrder fun entry mem => each entry (List.mem_cons_of_mem _ mem), ?_⟩
    · rw [List.pairwise_map]
      exact (each (name, node) List.mem_cons_self).imp fun lt => List.cons_lt_cons_iff.2 (.inr ⟨rfl, lt⟩)
    · -- What is further on is below a name that comes later.
      intro a ha b hb
      obtain ⟨names, -, rfl⟩ := List.mem_map.1 ha
      obtain ⟨other, node', names', entry, rfl, -⟩ := (mem_addressesIn_iff rest b).1 hb
      exact List.cons_lt_cons_iff.2 (.inl (before (other, node') entry))

/-- **A walk lists a directory before its next sibling**, and each file once. -/
theorem Ordered.pairwise_addresses {tree : FileTree} (h : tree.Ordered) : tree.addresses.Pairwise (· < ·) := by
  induction h with
  | file => exact List.pairwise_singleton _ _
  | directory inOrder _ ih => exact pairwise_addressesIn inOrder ih

/-! ### Building and searching -/

theorem exists_entry_of_find? {tree child : FileTree} {name : String} (found : tree.find? name = some child) :
    ∃ entry ∈ tree.entries, entry.2 = child := by
  obtain ⟨entry, found, same⟩ := Option.map_eq_some_iff.1 found
  exact ⟨entry, List.mem_of_find?_eq_some found, same⟩

theorem Ordered.find? {tree child : FileTree} {name : String} (h : tree.Ordered)
    (found : tree.find? name = some child) : child.Ordered := by
  obtain ⟨entry, mem, rfl⟩ := exists_entry_of_find? found
  exact h.each entry mem

theorem mem_insertEntry {name : String} {node : FileTree} {entry : String × FileTree} :
    ∀ {entries : List (String × FileTree)}, entry ∈ insertEntry name node entries →
      entry = (name, node) ∨ entry ∈ entries
  | [], mem => .inl (List.mem_singleton.1 mem)
  | (other, old) :: rest, mem => by
    unfold insertEntry at mem
    split_ifs at mem
    · rcases List.mem_cons.1 mem with rfl | mem
      · exact .inl rfl
      · exact .inr (List.mem_cons_of_mem _ mem)
    · exact List.mem_cons.1 mem
    · rcases List.mem_cons.1 mem with rfl | mem
      · exact .inr List.mem_cons_self
      · exact (mem_insertEntry mem).imp_right (List.mem_cons_of_mem _)

/-- An entry that is put in its place keeps the order. -/
theorem InOrder.insertEntry (name : String) (node : FileTree) {entries : List (String × FileTree)}
    (h : InOrder entries) : InOrder (insertEntry name node entries) := by
  induction entries with
  | nil => exact List.pairwise_singleton _ _
  | cons entry rest ih =>
    obtain ⟨other, old⟩ := entry
    obtain ⟨before, inOrder⟩ := List.pairwise_cons.1 h
    unfold FileTree.insertEntry
    split_ifs with same lt
    · subst same
      exact List.pairwise_cons.2 ⟨before, inOrder⟩
    · refine List.pairwise_cons.2 ⟨fun entry mem => ?_, h⟩
      rcases List.mem_cons.1 mem with rfl | mem
      · exact lt
      · exact lt.trans (before entry mem)
    · refine List.pairwise_cons.2 ⟨fun entry mem => ?_, ih inOrder⟩
      rcases mem_insertEntry mem with rfl | mem
      · exact lt_of_le_of_ne (not_lt.1 lt) (Ne.symm same)
      · exact before entry mem

/-- **Trees that are built entry by entry are ordered.** -/
theorem Ordered.insert {tree node : FileTree} (h : tree.Ordered) (hn : node.Ordered) (names : List String) :
    (tree.insert node names).Ordered := by
  induction names generalizing tree with
  | nil =>
    unfold FileTree.insert
    split
    · exact h
    · exact hn
  | cons name names ih =>
    unfold FileTree.insert
    have child : ((tree.find? name).getD FileTree.empty).Ordered := by
      cases found : tree.find? name with
      | none => exact ordered_empty
      | some child => exact h.find? found
    refine .directory (h.inOrder.insertEntry name _) fun entry mem => ?_
    rcases mem_insertEntry mem with rfl | mem
    · exact ih child
    · exact h.each entry mem

/-- What holds of a tree without entries, and of the entries of each tree of which it holds, is kept along a path. -/
theorem follow_closed {P : FileTree → Prop} (nothing : P empty)
    (each : ∀ tree, P tree → ∀ entry ∈ tree.entries, P entry.2) {above : List FileTree} {here node : FileTree}
    {parts : List (List Char)} (up : ∀ tree ∈ above, P tree) (h : P here)
    (found : follow above here parts = .ok node) : P node := by
  induction parts generalizing above here with
  | nil =>
    obtain rfl := Except.ok.inj found
    exact h
  | cons part parts ih =>
    unfold follow at found
    cases here with
    | file => cases found
    | directory entries =>
      dsimp only at found
      split_ifs at found
      · exact ih up h found
      · cases above with
        | nil => exact ih (by simp) nothing found
        | cons parent above =>
          obtain ⟨hp, up⟩ := List.forall_mem_cons.1 up
          exact ih up hp found
      · split at found
        · cases found
        · next child hc =>
          obtain ⟨entry, mem, rfl⟩ := exists_entry_of_find? hc
          exact ih (List.forall_mem_cons.2 ⟨h, up⟩) (each _ h entry mem) found

/-- What holds of a tree without entries, and of the entries of each tree of which it holds, holds of whatever stands
at a path of such a tree. -/
theorem locate_closed {P : FileTree → Prop} (nothing : P empty)
    (each : ∀ tree, P tree → ∀ entry ∈ tree.entries, P entry.2) {tree node : FileTree} {path : String} (h : P tree)
    (found : tree.locate path = .ok node) : P node := by
  unfold locate at found
  split_ifs at found
  · exact follow_closed nothing each (by simp) nothing found
  · exact follow_closed nothing each (by simp) h found

/-- What stands at a path of an ordered tree is ordered. -/
theorem Ordered.locate {tree node : FileTree} {path : String} (h : tree.Ordered) (found : tree.locate path = .ok node) :
    node.Ordered :=
  locate_closed ordered_empty (fun _ h => h.each) h found

/-! ### The files that match -/

/-- There is something at the root, and the paths are those of the files below it whose extension contains the text, in
the lexicographic order of the names on the way to them. -/
def Lists (tree : FileTree) (extension root : String) (paths : List Path) : Prop :=
  ∃ (node : FileTree) (addresses : List (List String)), tree.locate root = .ok node ∧ addresses.Pairwise (· < ·) ∧
    (∀ names, names ∈ addresses ↔ node.FileAt names ∧ (pathAt root names).extensionContains extension = true) ∧
    paths = addresses.map (pathAt root)

/-- **The files that match are found by a walk**, unless there is nothing at the root. -/
theorem Ordered.matchingFiles? {tree : FileTree} (h : tree.Ordered) (extension root : String) :
    match tree.matchingFiles? extension root with
    | none => ∃ cause, tree.locate root = .error cause
    | some paths => tree.Lists extension root paths := by
  unfold FileTree.matchingFiles?
  cases found : tree.locate root with
  | error cause => exact ⟨cause, rfl⟩
  | ok node =>
    refine ⟨node, node.addresses.filter fun names => (pathAt root names).extensionContains extension, found, ?_, ?_, ?_⟩
    · exact (h.locate found).pairwise_addresses.filter _
    · intro names
      rw [List.mem_filter, mem_addresses_iff]
    · rw [filesAt_eq_map, List.filter_map]
      rfl

end FileTree

end ShaderWeave
