import ShaderWeave.Program
import ShaderWeave.Proofs.Expansion.Run
import ShaderWeave.Proofs.Path.Naming
import ShaderWeave.Provider.Folder

/-!
# Stages below a root

A root directory whose path is text resolves every written path (`Folder.resolve_eq`), and a written path that names a
file names one of the same stage after that. A file is loaded exactly if its path has an extension
(`head?_journal_openFile`), so no shader is refused for its path. `stages_below_roots` puts this together.
-/

namespace ShaderWeave

variable {σ : Type}

/-- Pieces that spell a text are the pieces of the text. -/
theorem Text.text?_eq_some_iff {ps : List Text.Piece} {text : List Char} :
    Text.text? ps = some text ↔ ps = Text.ofText text := by
  refine ⟨fun h => ?_, fun h => h ▸ Text.text?_ofText text⟩
  induction ps generalizing text with
  | nil =>
    obtain rfl : [] = text := Option.some.inj h
    rfl
  | cons p ps ih =>
    cases p with
    | stray byte => simp [Text.text?] at h
    | char c =>
      have first : Text.text? (.char c :: ps) = (Text.text? ps).map (c :: ·) := by
        rw [Text.text?, List.mapM_cons, Option.map_eq_bind]
        rfl
      rw [first, Option.map_eq_some_iff] at h
      obtain ⟨rest, hr, rfl⟩ := h
      rw [ih hr]
      rfl

/-- Joining does not depend on what the characters are read as. -/
theorem Path.joinWith_map {α β : Type} [DecidableEq α] [DecidableEq β] {f : α → β} (hf : Function.Injective f)
    (slash : α) (root path : List α) :
    joinWith (f slash) (root.map f) (path.map f) = (joinWith slash root path).map f := by
  have same (o : Option α) : o.map f = some (f slash) ↔ o = some slash := by
    rw [← Option.map_some, Option.map_inj_right hf]
  simp only [joinWith, List.head?_map, List.getLast?_map, same, List.map_eq_nil_iff]
  split
  · rfl
  · split <;> simp

/-- **Below a root that is text, every written path stands for the one that is joined to the root.** -/
theorem Folder.resolve_eq {folder : Folder} {root : String} (h : Text.text? folder.root = some root.toList)
    (written : String) : folder.resolve written = .ok ⟨Path.join root written⟩ := by
  have joined : Path.joinWith (.char '/') folder.root (Text.ofText written.toList) =
      Text.ofText (Path.joinWith '/' root.toList written.toList) := by
    rw [Text.text?_eq_some_iff.1 h]
    exact Path.joinWith_map (fun _ _ same => Text.Piece.char.inj same) '/' root.toList written.toList
  rw [resolve, joined, Text.text?_ofText]
  rfl

/-- **A file is loaded if its path has an extension, and else it is refused for its path.** -/
theorem head?_journal_openFile (provider : Provider σ) (nested : FileRequest → σ → Expansion σ) (r : FileRequest)
    (store : σ) : (openFile provider nested r store).journal.head? = some
      (if r.path.extension?.isSome then .load r.path (provider.load store r.path).1
        else .problem (.noExtension r.path.text) 0) := by
  rw [← Path.namesFile_eq]
  cases hn : r.path.namesFile with
  | false =>
    rw [openFile_of_nameless provider nested store hn]
    rfl
  | true =>
    cases hl : (provider.load store r.path).1 with
    | error cause =>
      rw [openFile_of_unloaded provider nested hn hl]
      rfl
    | ok content =>
      rw [openFile_of_loaded provider nested hn hl]
      rfl

/-- **A root changes no stage, and no shader is refused for its path.** A root that is text resolves every written path
that names a file, to one of the same stage. A path names a file with an extension exactly if it has an extension, and
that is the one of the file it names. So every vertex and every fragment shader is loaded. -/
theorem stages_below_roots :
    (∀ (folder : Folder) (root written : String), Text.text? folder.root = some root.toList →
      (Path.fileName? written.toList).isSome = true →
      folder.resolve written = .ok ⟨Path.join root written⟩ ∧ (⟨Path.join root written⟩ : Path).SameStage ⟨written⟩) ∧
    (∀ path : Path, path.namesFile = true ↔ path.extension?.isSome = true) ∧
    (∀ (path : Path) (extension : List Char), path.extension? = some extension ↔ path.Extends extension) ∧
    ∀ (provider : Provider σ) (nested : FileRequest → σ → Expansion σ) (r : FileRequest) (store : σ),
      r.path.isVertex = true ∨ r.path.isFragment = true →
      r.path.namesFile = true ∧ (openFile provider nested r store).journal.head? =
        some (.load r.path (provider.load store r.path).1) := by
  refine ⟨fun folder root written text named => ⟨folder.resolve_eq text written, Path.sameStage_join root named⟩,
    fun path => by rw [Path.namesFile_eq], fun path extension => Path.extension?_eq_some_iff, ?_⟩
  intro provider nested r store shader
  have extended : r.path.extension?.isSome = true :=
    shader.elim Path.isSome_extension?_of_contains Path.isSome_extension?_of_contains
  rw [head?_journal_openFile, if_pos extended, Path.namesFile_eq]
  exact ⟨extended, rfl⟩

/-- A written path with dots and slashes at all places, below a root. -/
theorem stages_below_roots_dotted :
    let folder : Folder := ⟨Text.ofText "shaders/..".toList⟩
    let written := "./sun//.light.v1.vert/./"
    let r : FileRequest := .entry ⟨"shaders/.././sun//.light.v1.vert/./"⟩
    Text.text? folder.root = some "shaders/..".toList ∧
      Path.fileName? written.toList = some ".light.v1.vert".toList ∧ folder.resolve written = .ok r.path ∧
      r.path.SameStage ⟨written⟩ ∧ r.path.isVertex = true ∧
      (openFile folder.provider (expandFile folder.provider 0) r (.directory [])).journal.head? =
        some (.load r.path (folder.provider.load (.directory []) r.path).1) := by
  intro folder written r
  have text : Text.text? folder.root = some "shaders/..".toList := Text.text?_ofText _
  have named : Path.fileName? written.toList = some ".light.v1.vert".toList := by decide +kernel
  have joined : (⟨Path.join "shaders/.." written⟩ : Path) = r.path := by decide +kernel
  have vertex : r.path.isVertex = true := by decide +kernel
  have both := (stages_below_roots (σ := FileTree)).1 folder "shaders/.." written text (by rw [named]; rfl)
  rw [joined] at both
  exact ⟨text, named, both.1, both.2, vertex,
    ((stages_below_roots (σ := FileTree)).2.2.2 folder.provider _ r (.directory []) (.inl vertex)).2⟩

end ShaderWeave
