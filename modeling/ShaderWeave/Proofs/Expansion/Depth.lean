import ShaderWeave.Proofs.Expansion.Run
import ShaderWeave.Program
import ShaderWeave.Provider.Memory
import Mathlib.Data.Finset.Card
import Mathlib.Data.Finset.Filter

/-!
# How deeply files open one another

The expansion of a file comes to an end, whatever files include and link one another. What is visited does not bound it,
since a linked vertex shader starts with nothing visited, and a file may link the same shader again and again. But a
file that is being expanded is not opened, and a file that cannot be loaded opens none. So below the first file the
files that are being expanded differ, and all of them but the innermost have been loaded.

The bounds on the depth are proved for files that are confined (`Provider.Confines`): it is enough that none but the
given files can be loaded from the paths that come up.

* `expandFile_succ`: an expansion that did not reach the depth it was given stays the same with a greater one.
* `expandFile_complete`: if at most the files of a finite set can ever be loaded, a depth of one more than their number
  is never reached.
* `MemoryFiles.expand_complete`: the depth that a provider of files in memory allows is enough.
-/

namespace ShaderWeave

variable {σ : Type}

/-! ### Stores that can come about -/

namespace Provider

/-- A store comes about from another one by loading files. -/
inductive Reaches (provider : Provider σ) (store : σ) : σ → Prop where
  /-- Nothing is loaded. -/
  | refl : Reaches provider store store
  /-- A file is loaded last. -/
  | load {s : σ} (path : Path) : Reaches provider store s → Reaches provider store (provider.load s path).2

theorem Reaches.trans {provider : Provider σ} {a b c : σ} (h : provider.Reaches a b) (k : provider.Reaches b c) :
    provider.Reaches a c := by
  induction k with
  | refl => exact h
  | load path _ ih => exact .load path ih

/-- A store that no load changes is the only one that comes about. -/
theorem Reaches.eq_of_still {provider : Provider σ} {store s : σ} (still : ∀ path, (provider.load store path).2 = store)
    (h : provider.Reaches store s) : s = store := by
  induction h with
  | refl => rfl
  | load path _ ih => rw [ih, still path]

/-- No files but the given ones can be loaded, now or after other files have been loaded. -/
def LoadsOnly (provider : Provider σ) (store : σ) (files : Finset Path) : Prop :=
  ∀ s, provider.Reaches store s → ∀ path content, (provider.load s path).1 = .ok content → path ∈ files

theorem LoadsOnly.of_reaches {provider : Provider σ} {store s : σ} {files : Finset Path}
    (h : provider.LoadsOnly store files) (hs : provider.Reaches store s) : provider.LoadsOnly s files :=
  fun u hu path content hl => h u (hs.trans hu) path content hl

end Provider

theorem FileContext.Run.reaches {ctx : FileContext σ}
    (hn : ∀ q store, ctx.provider.Reaches store (ctx.nested q store).store) {s t : FileState σ} {j : Journal}
    (h : ctx.Run s j t) : ctx.provider.Reaches s.store t.store := by
  induction h with
  | done s => exact .refl
  | step hs _ ih =>
    refine Provider.Reaches.trans ?_ ih
    cases hs with
    | expand _ =>
      rw [FileState.adopt_store]
      exact hn _ _
    | _ => exact .refl

/-- An expansion changes the store by loading files alone. -/
theorem expandFile_reaches (provider : Provider σ) (depth : Nat) (r : FileRequest) (store : σ) :
    provider.Reaches store (expandFile provider depth r store).store := by
  refine expandFile_induction (motive := fun _ _ store e => provider.Reaches store e.store) ?_ ?_ depth r store
  · exact fun _ _ => .refl
  · intro depth ih r store e he
    cases he with
    | nameless _ => exact .refl
    | unloaded _ _ => exact .load r.path .refl
    | expanded _ _ run =>
      have hn : ∀ q store, (r.context provider (expandFile provider depth)).provider.Reaches store
          ((r.context provider (expandFile provider depth)).nested q store).store := ih
      exact (Provider.Reaches.load r.path .refl).trans (run.reaches hn)

/-! ### Views of the depth -/

mutual

/-- How deeply files are opened within the file of an entry, itself counted. Other entries open none. -/
def Entry.depth : Entry → Nat
  | .expand _ _ _ body => Journal.depth body
  | _ => 0

/-- How deeply files are opened within a file, itself counted. -/
def Journal.depth : List Entry → Nat
  | [] => 1
  | e :: j => max (Entry.depth e + 1) (Journal.depth j)

end

/-- A file is as deep as the deepest file it opens, and one more. -/
theorem Journal.depth_le {j : Journal} {n : Nat}
    (h : ∀ m q result body, Entry.expand m q result body ∈ j → Journal.depth body ≤ n) :
    Journal.depth j ≤ n + 1 := by
  induction j with
  | nil => simp [Journal.depth]
  | cons e j ih =>
    rw [Journal.depth]
    refine Nat.max_le.2 ⟨?_, ih fun m q result body he => h m q result body (List.mem_cons_of_mem e he)⟩
    cases e with
    | expand m q result body => exact Nat.succ_le_succ (h m q result body List.mem_cons_self)
    | _ => simp [Entry.depth]

/-- A journal names no file beyond the depth if none of the files it opened does. -/
theorem Journal.tooDeepFiles_eq_nil {j : Journal} (hj : ∀ path, Entry.tooDeep path ∉ j)
    (h : ∀ m q result body, Entry.expand m q result body ∈ j → Journal.tooDeepFiles body = []) :
    Journal.tooDeepFiles j = [] := by
  refine isView_tooDeepFiles.eq_nil_iff.2 fun e he => ?_
  cases e with
  | tooDeep path => exact absurd he (hj path)
  | expand m q result body => exact h m q result body he
  | _ => rfl

/-! ### The files that are being expanded -/

/-- How many of the files that can be loaded are not being expanded. -/
def unopened (files : Finset Path) (active : List Path) : Nat :=
  (files.filter (· ∉ active)).card

/-- To expand one more file leaves fewer. -/
theorem unopened_append_lt {files : Finset Path} {active : List Path} {path : Path} (hp : path ∈ files)
    (ha : path ∉ active) : unopened files (active ++ [path]) < unopened files active := by
  refine Finset.card_lt_card ((Finset.ssubset_iff_of_subset ?_).2 ⟨path, ?_, ?_⟩)
  · intro q hq
    simp only [Finset.mem_filter, List.mem_append, not_or] at hq ⊢
    exact ⟨hq.1, hq.2.1⟩
  · exact Finset.mem_filter.2 ⟨hp, ha⟩
  · simp

theorem unopened_append_lt_card {files : Finset Path} {path : Path} (hp : path ∈ files) (active : List Path) :
    unopened files (active ++ [path]) < files.card :=
  Finset.card_lt_card (Finset.filter_ssubset.2 ⟨path, hp, by simp⟩)

/-- An upper bound on the depth of a file: the files that can be loaded and are not being expanded may lie below it, and
below them one that cannot be loaded. -/
def FileRequest.room (r : FileRequest) (files : Finset Path) : Nat :=
  if r.path ∈ files then unopened files (r.chain.active ++ [r.path]) + 2 else 1

theorem FileRequest.room_pos (r : FileRequest) (files : Finset Path) : 0 < r.room files := by
  rw [room]
  split_ifs <;> omega

/-- All files that can be loaded may lie below the first file, but for the first one itself. -/
theorem FileRequest.room_le (r : FileRequest) (files : Finset Path) : r.room files ≤ files.card + 1 := by
  rw [room]
  split_ifs with hr
  · have := unopened_append_lt_card hr r.chain.active
    omega
  · omega

/-- A file that is opened leaves less room. -/
theorem FileRequest.room_order_lt {r : FileRequest} {files : Finset Path} (hr : r.path ∈ files) {ctx : FileContext σ}
    (ha : ctx.active = r.chain.active ++ [r.path]) {s : FileState σ} {m : Manner} {path : Path}
    (h : ctx.Admits s m path) : (ctx.order s m path).room files < r.room files := by
  rw [room, room, if_pos hr, ctx.order_path, ctx.order_active, ← ha]
  split_ifs with hp
  · have := unopened_append_lt hp h.inactive
    omega
  · omega

/-! ### Files that are confined -/

/-- Where `kept` holds of a file and a store, none but the given files can be loaded below it: it can be loaded only if
it is one of them, and the same holds of every file that it opens. -/
structure Provider.Confines (provider : Provider σ) (files : Finset Path) (kept : FileRequest → σ → Prop) : Prop where
  /-- A file that can be loaded is one of the files. -/
  loaded : ∀ {r : FileRequest} {store : σ} {content : String}, kept r store →
    (provider.load store r.path).1 = .ok content → r.path ∈ files
  /-- The condition is kept when a file is opened. -/
  opened : ∀ {depth : Nat} {r : FileRequest} {store : σ} {m : Manner} {q : FileRequest} {result : FileResult}
    {body : Journal}, kept r store →
    .expand m q result body ∈ (openFile provider (expandFile provider depth) r store).journal →
    ∃ s, kept q s ∧ body = (expandFile provider depth q s).journal

/-- Files that are the only ones that can be loaded from any path confine every file. -/
theorem Provider.confines_loadsOnly (provider : Provider σ) (files : Finset Path) :
    provider.Confines files fun _ store => provider.LoadsOnly store files where
  loaded only hl := only _ .refl _ _ hl
  opened {depth r store _ _ _ _} only mem := by
    obtain ⟨_, _, s, _, -, run, -, -, -, rfl⟩ := (openFile_opened provider _ r store).exists_admits_of_mem mem
    have reached : provider.Reaches store s.store :=
      (Provider.Reaches.load r.path .refl).trans (run.reaches fun q u => expandFile_reaches provider depth q u)
    exact ⟨s.store, only.of_reaches reached, rfl⟩

/-! ### Bounds on the depth -/

section Bounds

variable {provider : Provider σ} {files : Finset Path} {kept : FileRequest → σ → Prop}
  (confines : provider.Confines files kept)
include confines

/-- What holds of a file if it holds of all files it opens, which have less room, holds of every file. -/
theorem expandFile_room_induction {motive : Nat → FileRequest → Journal → Prop}
    (tooDeep : ∀ r, motive 0 r [.tooDeep r.path])
    (opened : ∀ depth r j, (∀ path, .tooDeep path ∉ j) → (∀ m q result body, .expand m q result body ∈ j →
      q.room files < r.room files ∧ motive depth q body) → motive (depth + 1) r j)
    (depth : Nat) {r : FileRequest} {store : σ} (h : kept r store) :
    motive depth r (expandFile provider depth r store).journal := by
  induction depth generalizing r store with
  | zero => exact tooDeep r
  | succ depth ih =>
    have ways := openFile_opened provider (expandFile provider depth) r store
    refine opened depth r _ ways.tooDeep_notMem fun m q result body mem => ?_
    obtain ⟨content, _, s, path, hl, -, admits, rfl, -, -⟩ := ways.exists_admits_of_mem mem
    obtain ⟨u, hu, rfl⟩ := confines.opened h mem
    exact ⟨FileRequest.room_order_lt (confines.loaded h hl) rfl admits, ih hu⟩

/-- No file lies deeper than its room. -/
theorem depth_expandFile_le_room {r : FileRequest} {store : σ} (h : kept r store) (depth : Nat) :
    Journal.depth (expandFile provider depth r store).journal ≤ r.room files := by
  refine expandFile_room_induction confines (motive := fun _ r j => Journal.depth j ≤ r.room files) ?_ ?_ depth h
  · exact fun r => r.room_pos files
  · intro _ r j _ ih
    have hd : Journal.depth j ≤ r.room files - 1 + 1 := by
      refine Journal.depth_le fun m q result body he => ?_
      obtain ⟨hlt, hb⟩ := ih m q result body he
      omega
    have := r.room_pos files
    omega

/-- A depth of as much as the room is never reached. -/
theorem tooDeepFiles_expandFile_eq_nil {r : FileRequest} {store : σ} (h : kept r store) {depth : Nat}
    (hd : r.room files ≤ depth) : Journal.tooDeepFiles (expandFile provider depth r store).journal = [] := by
  refine expandFile_room_induction confines
    (motive := fun depth r j => r.room files ≤ depth → Journal.tooDeepFiles j = []) ?_ ?_ depth h hd
  · intro r hr
    have := r.room_pos files
    omega
  · intro depth r j hj ih hr
    refine Journal.tooDeepFiles_eq_nil hj fun m q result body he => ?_
    obtain ⟨hlt, hb⟩ := ih m q result body he
    exact hb (by omega)

end Bounds

/-! ### Greater depths -/

/-- Two ways to expand nested files agree where the first one does not reach its depth. -/
def Settles (nested nested' : FileRequest → σ → Expansion σ) : Prop :=
  ∀ q store, Journal.tooDeepFiles (nested q store).journal = [] → nested' q store = nested q store

namespace FileContext

/-- The context of the same file where other files are expanded in another way. -/
def renest (ctx : FileContext σ) (nested : FileRequest → σ → Expansion σ) : FileContext σ :=
  { ctx with nested }

variable {ctx : FileContext σ} {nested : FileRequest → σ → Expansion σ}

theorem nested_renest : (ctx.renest nested).nested = nested := rfl

theorem order_renest (s : FileState σ) (m : Manner) (path : Path) :
    (ctx.renest nested).order s m path = ctx.order s m path := by
  cases m <;> rfl

theorem includePath_renest (hn : Settles ctx.nested nested) (path : Path) (line : Nat) (s : FileState σ)
    (h : Journal.tooDeepFiles (ctx.includePath path line s).2 = []) :
    (ctx.renest nested).includePath path line s = ctx.includePath path line s := by
  by_cases hv : path ∈ s.visited
  · rw [includePath, if_pos hv, includePath, if_pos hv]
  by_cases ha : path ∈ ctx.active
  · rw [includePath, if_neg hv, if_pos (show path ∈ (ctx.renest nested).active from ha), includePath, if_neg hv,
      if_pos ha]
    rfl
  · rw [ctx.includePath_of_fresh hv ha] at h ⊢
    have hq : nested (ctx.order s .included path) s.store = ctx.nested (ctx.order s .included path) s.store := by
      refine hn _ _ ?_
      simp only [Journal.tooDeepFiles, Entry.tooDeepFiles, List.append_eq_nil_iff] at h
      exact h.1
    rw [(ctx.renest nested).includePath_of_fresh hv ha]
    simp only [nested_renest, order_renest, hq]

theorem linkPath_renest (hn : Settles ctx.nested nested) (path : Path) (line : Nat) (s : FileState σ)
    (h : Journal.tooDeepFiles (ctx.linkPath path line s).2 = []) :
    (ctx.renest nested).linkPath path line s = ctx.linkPath path line s := by
  by_cases ha : path ∈ ctx.active
  · rw [ctx.linkPath_of_active ha, (ctx.renest nested).linkPath_of_active ha]
    rfl
  · rw [ctx.linkPath_of_inactive ha] at h ⊢
    have hq : nested (ctx.order s .linked path) s.store = ctx.nested (ctx.order s .linked path) s.store := by
      refine hn _ _ ?_
      simp only [Journal.tooDeepFiles_append, Journal.tooDeepFiles, Entry.tooDeepFiles, List.append_eq_nil_iff] at h
      exact h.2.1
    rw [(ctx.renest nested).linkPath_of_inactive ha]
    simp only [nested_renest, order_renest, hq]

theorem openRequest_renest (hn : Settles ctx.nested nested) (m : Manner) (written : String) (line : Nat)
    (s : FileState σ) (h : Journal.tooDeepFiles (ctx.openRequest m written line s).2 = []) :
    (ctx.renest nested).openRequest m written line s = ctx.openRequest m written line s := by
  by_cases hm : m = .linked ∧ s.vertex.isSome = true
  · rw [openRequest, if_pos hm, openRequest, if_pos hm]
  · rw [openRequest, if_neg hm] at h ⊢
    rw [openRequest, if_neg hm]
    simp only [show (ctx.renest nested).provider = ctx.provider from rfl]
    cases ha : ctx.provider.resolve s.store written with
    | error cause => rfl
    | ok path =>
      simp only [ha] at h
      have h : Journal.tooDeepFiles (ctx.openPath m path line s).2 = [] := h
      have heq : (ctx.renest nested).openPath m path line s = ctx.openPath m path line s := by
        cases m with
        | included => exact includePath_renest hn path line s h
        | linked => exact linkPath_renest hn path line s h
      simp only [heq]

theorem perform_renest (hn : Settles ctx.nested nested) (s : FileState σ) (a : Action)
    (h : Journal.tooDeepFiles (ctx.perform s a).2 = []) : (ctx.renest nested).perform s a = ctx.perform s a := by
  cases a with
  | request m written line =>
    have h : Journal.tooDeepFiles (ctx.openRequest m written line s).2 = [] := h
    simp only [perform, openRequest_renest hn m written line s h]
  | _ => rfl

theorem finish_renest (hn : Settles ctx.nested nested) (s : FileState σ) (c : Cursor) (o : Outcome Action)
    (h : Journal.tooDeepFiles (ctx.finish s c o).2 = []) : (ctx.renest nested).finish s c o = ctx.finish s c o := by
  rw [finish] at h ⊢
  rw [finish]
  cases ho : o.value with
  | none => rfl
  | some a =>
    simp only [ho, Journal.tooDeepFiles_append, List.append_eq_nil_iff] at h
    simp only [perform_renest hn s a h.2]

/-- Where no file reaches the depth, the tokens of a file are expanded in the same way. -/
theorem walk_renest (hn : Settles ctx.nested nested) (s : FileState σ) (c : Cursor) :
    Journal.tooDeepFiles (ctx.walk s c).2 = [] → (ctx.renest nested).walk s c = ctx.walk s c := by
  induction s, c using ctx.walk_induction with
  | done s c hc =>
    intro _
    rw [ctx.walk_of_end hc, (ctx.renest nested).walk_of_end hc]
  | more s c hc ih =>
    intro h
    rw [ctx.walk_of_ahead hc] at h ⊢
    simp only [Journal.tooDeepFiles_append, List.append_eq_nil_iff] at h
    have hread : (ctx.renest nested).read s c = ctx.read s c := rfl
    rw [(ctx.renest nested).walk_of_ahead hc]
    simp only [hread, finish_renest hn s c (ctx.read s c) h.1, ih h.2]

end FileContext

theorem Settles.openFile {nested nested' : FileRequest → σ → Expansion σ} (hn : Settles nested nested')
    (provider : Provider σ) : Settles (openFile provider nested) (openFile provider nested') := by
  intro r store h
  cases hf : r.path.namesFile with
  | false => rw [openFile_of_nameless provider nested store hf, openFile_of_nameless provider nested' store hf]
  | true =>
    cases hl : (provider.load store r.path).1 with
    | error cause => rw [openFile_of_unloaded provider nested hf hl, openFile_of_unloaded provider nested' hf hl]
    | ok content =>
      rw [openFile_of_loaded provider nested hf hl] at h ⊢
      have hn : Settles (r.context provider nested).nested nested' := hn
      have hw := FileContext.walk_renest hn (r.initial (provider.load store r.path).2) (.start (lex content))
      have h : Journal.tooDeepFiles (opening r.path content ++ ((r.context provider nested).walk
          (r.initial (provider.load store r.path).2) (.start (lex content))).2) = [] := h
      rw [Journal.tooDeepFiles_append, List.append_eq_nil_iff] at h
      rw [openFile_of_loaded provider nested' hf hl]
      exact congrArg (fun body => r.conclude body.1 (opening r.path content ++ body.2)) (hw h.2)

/-- An expansion that did not reach its depth stays the same with the next greater depth. -/
theorem expandFile_succ (provider : Provider σ) (depth : Nat) :
    Settles (expandFile provider depth) (expandFile provider (depth + 1)) := by
  induction depth with
  | zero =>
    intro r store h
    simp [expandFile, Journal.tooDeepFiles, Entry.tooDeepFiles] at h
  | succ depth ih => exact ih.openFile provider

/-- An expansion that did not reach its depth stays the same with any greater depth. -/
theorem expandFile_of_le (provider : Provider σ) {depth more : Nat} (hle : depth ≤ more) (r : FileRequest) (store : σ)
    (h : Journal.tooDeepFiles (expandFile provider depth r store).journal = []) :
    expandFile provider more r store = expandFile provider depth r store := by
  induction hle with
  | refl => rfl
  | @step more _ ih =>
    rw [expandFile_succ provider more r store (by rw [ih]; exact h), ih]

/-! ### Files in memory -/

namespace MemoryFiles

/-- Loading a file in memory adds no file. -/
theorem mem_versions_of_mem_load {files : MemoryFiles} {path : Path} {key : String}
    (h : key ∈ (files.load path).2.versions) : key ∈ files.versions := by
  rw [load] at h
  split at h
  · exact h
  · exact h
  · exact h
  · next hv =>
    rcases Std.ExtTreeMap.mem_insert.1 h with heq | h
    · rw [← Std.LawfulEqCmp.eq_of_compare heq, Std.ExtTreeMap.mem_iff_isSome_getElem?, hv]
      rfl
    · exact h

theorem mem_versions_of_load_eq_ok {files : MemoryFiles} {path : Path} {content : String}
    (h : (files.load path).1 = .ok content) : path.text ∈ files.versions := by
  rw [Std.ExtTreeMap.mem_iff_isSome_getElem?]
  rw [load] at h
  split at h
  · simp [contentOf] at h
  · simp [contentOf] at h
  · next hv => simp [hv]
  · next hv => simp [hv]

/-- Only the files in memory can be loaded, whichever of their versions come next. -/
theorem loadsOnly (files : MemoryFiles) {paths : Finset Path}
    (h : ∀ path : Path, path.text ∈ files.versions → path ∈ paths) : provider.LoadsOnly files paths := by
  have kept : ∀ later, provider.Reaches files later → ∀ key, key ∈ later.versions → key ∈ files.versions := by
    intro later hl
    induction hl with
    | refl => exact fun _ hk => hk
    | load path _ ih => exact fun key hk => ih key (mem_versions_of_mem_load hk)
  exact fun later hl path content hok => h path (kept later hl _ (mem_versions_of_load_eq_ok hok))

end MemoryFiles

/-! ### The main result -/

/-- **Expansion comes to an end.** Where at most the files of a finite set can ever be loaded, whatever the provider
answers each time and however the files ask for one another, files open one another to a depth of at most one more than
their number. That depth is never reached, and any greater one gives the same expansion. -/
theorem expandFile_complete {provider : Provider σ} {store : σ} {files : Finset Path}
    (h : provider.LoadsOnly store files) (r : FileRequest) :
    Journal.tooDeepFiles (expandFile provider (files.card + 1) r store).journal = [] ∧
      (∀ depth, files.card + 1 ≤ depth →
        expandFile provider depth r store = expandFile provider (files.card + 1) r store) ∧
      ∀ depth, Journal.depth (expandFile provider depth r store).journal ≤ files.card + 1 := by
  have confines := provider.confines_loadsOnly files
  have hnil := tooDeepFiles_expandFile_eq_nil confines h (r.room_le files)
  exact ⟨hnil, fun depth hle => expandFile_of_le provider hle r store hnil,
    fun depth => (depth_expandFile_le_room confines h depth).trans (r.room_le files)⟩

/-- Two files that include themselves and one another. The second one cannot be loaded the first time, and it links
back to the first one. -/
def entangledFiles : MemoryFiles :=
  (MemoryFiles.empty.put "a.frag" [some "#include \"a.frag\"\n#include \"b.vert\"\n#vertex_shader \"b.vert\"\n"]).put
    "b.vert" [none, some "#include \"b.vert\"\n#vertex_shader \"a.frag\"\n"]

/-- Files that include and link one another in a circle are expanded to a depth of three at most. -/
theorem expandFile_complete_entangled :
    MemoryFiles.provider.LoadsOnly entangledFiles {⟨"a.frag"⟩, ⟨"b.vert"⟩} ∧
      Journal.tooDeepFiles (expandFile MemoryFiles.provider 3 (.entry ⟨"a.frag"⟩) entangledFiles).journal = [] ∧
      (∀ depth, 3 ≤ depth → expandFile MemoryFiles.provider depth (.entry ⟨"a.frag"⟩) entangledFiles =
        expandFile MemoryFiles.provider 3 (.entry ⟨"a.frag"⟩) entangledFiles) ∧
      ∀ depth,
        Journal.depth (expandFile MemoryFiles.provider depth (.entry ⟨"a.frag"⟩) entangledFiles).journal ≤ 3 := by
  have h : MemoryFiles.provider.LoadsOnly entangledFiles {⟨"a.frag"⟩, ⟨"b.vert"⟩} := by
    refine entangledFiles.loadsOnly fun path hp => ?_
    simp only [entangledFiles, MemoryFiles.put, MemoryFiles.empty, Std.ExtTreeMap.mem_insert,
      Std.LawfulEqCmp.compare_eq_iff_eq] at hp
    obtain ⟨text⟩ := path
    rcases hp with rfl | rfl | hp
    · simp
    · simp
    · exact absurd hp Std.ExtTreeMap.not_mem_empty
  exact ⟨h, expandFile_complete h (.entry ⟨"a.frag"⟩)⟩

end ShaderWeave
