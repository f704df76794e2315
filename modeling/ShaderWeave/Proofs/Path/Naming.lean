import ShaderWeave.Path
import Mathlib.Data.List.Basic

/-!
# What a path names

A path names a file by the last of its components. `Path.Names` says where that component stands in the text: behind a
directory, which is empty or ends in a slash, and before nothing but slashes and single dots (`Path.Trailing`). This is
what `Path.fileName?` finds (`fileName?_eq_some_iff`), and the extension is what follows the last dot of the name,
unless that dot comes first (`extension?_eq_some_iff`).

So a file has the same name below any directory (`Names.below`). A path is joined to a root by a directory in front of
it, which is empty where the path starts with a slash, so its name, its extension and its stage remain
(`sameStage_join`).
-/

namespace ShaderWeave.Path

/-! ### Components -/

theorem splitOn_eq (separator : Char) (text : List Char) : splitOn separator text = text.splitOn separator := by
  rw [List.splitOn_eq_splitOnP]
  induction text with
  | nil => rfl
  | cons c cs ih =>
    rw [splitOn, ih, List.splitOnP_cons_eq_if_modifyHead]
    by_cases h : c = separator
    · simp [h]
    · cases rest : List.splitOnP (· == separator) cs with
      | nil => exact absurd rest (List.splitOnP_ne_nil _ _)
      | cons part parts => simp [h]

/-- The components of a path are those before and after a slash. -/
theorem components_append (before after : List Char) :
    components (before ++ '/' :: after) = components before ++ components after := by
  simp only [components, splitOn_eq, List.splitOn_eq_splitOnP]
  rw [List.splitOnP_append_cons _ _ (by simp), List.filter_append]

/-- A text without a slash is a component, unless it names nothing. -/
theorem components_of_notMem {text : List Char} (h : '/' ∉ text) :
    components text = if text = [] ∨ text = ['.'] then [] else [text] := by
  have parts : splitOn '/' text = [text] := by
    rw [splitOn_eq, List.splitOn_eq_splitOnP, List.splitOnP_eq_singleton]
    intro c hc
    simpa using ne_of_mem_of_not_mem hc h
  rw [components, parts]
  by_cases none : text = []
  · simp [none]
  · by_cases dot : text = ['.'] <;> simp [none, dot]

/-- The last place of a character in a text. -/
theorem exists_last_of_mem {c : Char} {text : List Char} (h : c ∈ text) :
    ∃ before after, text = before ++ c :: after ∧ c ∉ after := by
  obtain ⟨after, before, split, last⟩ := List.eq_append_cons_of_mem (List.mem_reverse.2 h)
  refine ⟨before.reverse, after.reverse, ?_, by simpa using last⟩
  rw [← List.reverse_reverse text, split]
  simp

/-! ### File names -/

/-- A component that can be the name of a file. -/
structure IsName (name : List Char) : Prop where
  /-- It is one component. -/
  whole : '/' ∉ name
  /-- It does not name nothing, nor the directory above. -/
  proper : name ≠ [] ∧ name ≠ ['.'] ∧ name ≠ ['.', '.']

/-- What can stand before the name of a file. -/
def IsDirectory (text : List Char) : Prop :=
  text = [] ∨ ∃ above, text = above ++ ['/']

/-- What can follow the name of a file: slashes, and single dots between them or at the end. -/
inductive Trailing : List Char → Prop
  /-- Nothing. -/
  | nothing : Trailing []
  /-- Another slash. -/
  | slash {text : List Char} (h : Trailing text) : Trailing (text ++ ['/'])
  /-- Another slash, and a single dot. -/
  | dot {text : List Char} (h : Trailing text) : Trailing (text ++ ['/', '.'])

/-- The text is a path to a file with the given name. -/
inductive Names : List Char → List Char → Prop
  /-- The name stands between a directory and what names nothing. -/
  | intro {directory name rest : List Char} (above : IsDirectory directory) (isName : IsName name)
    (trailing : Trailing rest) : Names (directory ++ name ++ rest) name

/-- What follows the name of a file adds no component. -/
theorem components_append_trailing {rest : List Char} (h : Trailing rest) (text : List Char) :
    components (text ++ rest) = components text := by
  have silent {word : List Char} (h : word = [] ∨ word = ['.']) : components word = [] := by
    rcases h with rfl | rfl <;> rfl
  induction h with
  | nothing => rw [List.append_nil]
  | slash _ ih => rw [← List.append_assoc, components_append, silent (.inl rfl), List.append_nil, ih]
  | dot _ ih => rw [← List.append_assoc, components_append, silent (.inr rfl), List.append_nil, ih]

/-- The name of a file is the last component. -/
theorem getLast?_components_of_isName {directory name : List Char} (above : IsDirectory directory)
    (isName : IsName name) : (components (directory ++ name)).getLast? = some name := by
  have single : components name = [name] := by
    rw [components_of_notMem isName.whole, if_neg (not_or.2 ⟨isName.proper.1, isName.proper.2.1⟩)]
  rcases above with rfl | ⟨above, rfl⟩
  · rw [List.nil_append, single]
    rfl
  · rw [List.append_assoc, List.singleton_append, components_append, single, List.getLast?_concat]

theorem fileName?_eq_some {text name : List Char} :
    fileName? text = some name ↔ (components text).getLast? = some name ∧ name ≠ ['.', '.'] := by
  simp [fileName?, Option.filter_eq_some_iff]

/-- The name that is found stands in the text. The induction is on the length of the text: a last component that names
nothing is left out. -/
theorem names_of_fileName? {text name : List Char} (h : fileName? text = some name) : Names text name := by
  obtain ⟨last, proper⟩ := fileName?_eq_some.1 h
  -- A last component that is not left out is the name.
  have found {directory word : List Char} (above : IsDirectory directory) (whole : '/' ∉ word)
      (named : ¬ (word = [] ∨ word = ['.'])) (same : word = name) : Names (directory ++ word) name := by
    subst same
    have names : Names (directory ++ word ++ []) word :=
      .intro above ⟨whole, (not_or.1 named).1, (not_or.1 named).2, proper⟩ .nothing
    rwa [List.append_nil] at names
  by_cases slash : '/' ∈ text
  · obtain ⟨above, word, rfl, whole⟩ := exists_last_of_mem slash
    rw [components_append, components_of_notMem whole] at last
    by_cases named : word = [] ∨ word = ['.']
    · rw [if_pos named, List.append_nil] at last
      obtain ⟨directory, isName, trailing⟩ := names_of_fileName? (fileName?_eq_some.2 ⟨last, proper⟩)
      rw [List.append_assoc]
      rcases named with rfl | rfl
      · exact .intro directory isName (.slash trailing)
      · exact .intro directory isName (.dot trailing)
    · rw [if_neg named, List.getLast?_concat] at last
      have names := found (.inr ⟨above, rfl⟩) whole named (Option.some.inj last)
      rwa [List.append_assoc] at names
  · rw [components_of_notMem slash] at last
    by_cases named : text = [] ∨ text = ['.']
    · simp [named] at last
    · rw [if_neg named] at last
      exact found (.inl rfl) slash named (Option.some.inj last)
termination_by text.length
decreasing_by
  subst_vars
  simp only [List.length_append, List.length_cons]
  omega

/-- **The file name that is found is the name of the file.** -/
theorem fileName?_eq_some_iff {text name : List Char} : fileName? text = some name ↔ Names text name := by
  refine ⟨names_of_fileName?, ?_⟩
  rintro ⟨above, isName, trailing⟩
  refine fileName?_eq_some.2 ⟨?_, isName.proper.2.2⟩
  rw [components_append_trailing trailing]
  exact getLast?_components_of_isName above isName

/-! ### Extensions -/

/-- **An extension follows the last dot of a name, which must not come first.** -/
theorem extensionOfName?_eq_some_iff {name extension : List Char} :
    extensionOfName? name = some extension ↔ ∃ stem, stem ≠ [] ∧ '.' ∉ extension ∧ name = stem ++ '.' :: extension := by
  have after {stem rest : List Char} (h : '.' ∉ rest) :
      ((stem ++ '.' :: rest).reverse.takeWhile (· ≠ '.')).reverse = rest := by
    have before : ∀ c ∈ rest.reverse, decide (c ≠ '.') = true := by
      intro c hc
      simpa using ne_of_mem_of_not_mem (List.mem_reverse.1 hc) h
    rw [List.reverse_append, List.reverse_cons, List.append_assoc, List.takeWhile_append_of_pos before]
    simp
  rw [extensionOfName?]
  constructor
  · intro h
    split at h
    · next inner =>
      obtain ⟨stem, rest, rfl, last⟩ := exists_last_of_mem (List.mem_of_mem_drop inner)
      rw [after last, Option.some.injEq] at h
      subst h
      refine ⟨stem, ?_, last, rfl⟩
      rintro rfl
      exact last inner
    · cases h
  · rintro ⟨stem, some, last, rfl⟩
    obtain ⟨c, stem, rfl⟩ := List.exists_cons_of_ne_nil some
    rw [if_pos (by simp), after last]

/-- The path names a file with the given extension. -/
def Extends (path : Path) (extension : List Char) : Prop :=
  ∃ stem, stem ≠ [] ∧ '.' ∉ extension ∧ Names path.text.toList (stem ++ '.' :: extension)

/-- **The extension that is found is the extension of the file.** -/
theorem extension?_eq_some_iff {path : Path} {extension : List Char} :
    path.extension? = some extension ↔ path.Extends extension := by
  rw [extension?, Option.bind_eq_some_iff]
  constructor
  · rintro ⟨name, found, h⟩
    obtain ⟨stem, some, last, rfl⟩ := extensionOfName?_eq_some_iff.1 h
    exact ⟨stem, some, last, fileName?_eq_some_iff.1 found⟩
  · rintro ⟨stem, some, last, names⟩
    exact ⟨_, fileName?_eq_some_iff.2 names, extensionOfName?_eq_some_iff.2 ⟨stem, some, last, rfl⟩⟩

/-- A path names a file with an extension if it has one, for only names have extensions. -/
theorem namesFile_eq (path : Path) : path.namesFile = path.extension?.isSome := by
  rw [namesFile, extension?]
  cases fileName? path.text.toList <;> rfl

/-- A shader is a file with an extension. -/
theorem isSome_extension?_of_contains {path : Path} {part : String} (h : path.extensionContains part = true) :
    path.extension?.isSome = true := by
  rw [extensionContains] at h
  cases found : path.extension? with
  | none => simp [found] at h
  | some extension => rfl

/-! ### Below a directory -/

/-- The paths have the same extension, or both have none, and so they name files of the same stage. -/
structure SameStage (p q : Path) : Prop where
  /-- The extension is the same. -/
  extension : p.extension? = q.extension?
  /-- Both are vertex shaders, or none is. -/
  vertex : p.isVertex = q.isVertex
  /-- Both are fragment shaders, or none is. -/
  fragment : p.isFragment = q.isFragment
  /-- Both name a file with an extension, or none does. -/
  named : p.namesFile = q.namesFile

theorem sameStage_of_extension? {p q : Path} (h : p.extension? = q.extension?) : p.SameStage q where
  extension := h
  vertex := by rw [isVertex, isVertex, extensionContains, extensionContains, h]
  fragment := by rw [isFragment, isFragment, extensionContains, extensionContains, h]
  named := by rw [namesFile_eq, namesFile_eq, h]

theorem IsDirectory.append {above below : List Char} (h : IsDirectory above) (h' : IsDirectory below) :
    IsDirectory (above ++ below) := by
  rcases h' with rfl | ⟨below, rfl⟩
  · rwa [List.append_nil]
  · exact .inr ⟨above ++ below, by rw [List.append_assoc]⟩

/-- **A file has the same name below any directory.** -/
theorem Names.below {above text name : List Char} (h : Names text name) (directory : IsDirectory above) :
    Names (above ++ text) name := by
  obtain ⟨inner, isName, trailing⟩ := h
  rw [← List.append_assoc, ← List.append_assoc]
  exact .intro (directory.append inner) isName trailing

/-- A path is joined to a root by a directory in front of it. -/
theorem exists_joinWith (root path : List Char) :
    ∃ directory, IsDirectory directory ∧ joinWith '/' root path = directory ++ path := by
  rw [joinWith]
  split
  · exact ⟨[], .inl rfl, rfl⟩
  · split
    · next closed => exact ⟨root, closed.imp_right List.getLast?_eq_some_iff.1, rfl⟩
    · exact ⟨root ++ ['/'], .inr ⟨root, rfl⟩, by simp⟩

/-- **A path that names a file names one of the same stage below any root.** -/
theorem sameStage_join (root : String) {path : String} (h : (fileName? path.toList).isSome = true) :
    (⟨join root path⟩ : Path).SameStage ⟨path⟩ := by
  obtain ⟨name, found⟩ := Option.isSome_iff_exists.1 h
  obtain ⟨directory, above, joined⟩ := exists_joinWith root.toList path.toList
  have below : fileName? (join root path).toList = some name := by
    rw [join, String.toList_ofList, joined]
    exact fileName?_eq_some_iff.2 ((fileName?_eq_some_iff.1 found).below above)
  exact sameStage_of_extension? (by rw [extension?, extension?, below, found])

end ShaderWeave.Path
