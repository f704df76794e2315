import ShaderWeave.Proofs.Expansion.Run
import ShaderWeave.Program
import ShaderWeave.Provider.Memory

/-!
# Included once in a chain

A chain is a file with all files that are included in it, at any depth. A linked vertex shader has a chain of its own.
The main result, `expandFile_oncePerChain`, says that within a chain a file is loaded at most once, also where it is
included in files that fail to load or have no extension, and that no file is loaded that had been visited or was being
expanded before, but for the first file of the chain itself. That file is never in the set of visited files; it is
protected by the files that are being expanded alone.

`Journal.chainLoads` and `Journal.included` are the files that a chain loads and includes, and `Opens` says which file
opens which one in an expansion, at any depth.
-/

namespace ShaderWeave

variable {σ : Type}

/-! ### Views of a chain -/

mutual

/-- The files that an entry loads, but for those that linked vertex shaders load. -/
def Entry.chainLoads : Entry → List Path
  | .load path _ => [path]
  | .expand .included _ _ body => Journal.chainLoads body
  | _ => []

/-- The files that are loaded, but for those that linked vertex shaders load. -/
def Journal.chainLoads : List Entry → List Path
  | [] => []
  | e :: j => Entry.chainLoads e ++ Journal.chainLoads j

end

mutual

/-- The files that are included with an entry, but for those that linked vertex shaders include. -/
def Entry.included : Entry → List Path
  | .expand .included q _ body => q.path :: Journal.included body
  | _ => []

/-- The files that are included, but for those that linked vertex shaders include. -/
def Journal.included : List Entry → List Path
  | [] => []
  | e :: j => Entry.included e ++ Journal.included j

end

/-- The file that is loaded, if one is. -/
def Call.loaded? : Call → Option Path
  | .resolve _ => none
  | .load path => some path

namespace Journal

/-- All files that are loaded, in order. -/
def loads (j : Journal) : List Path :=
  (calls j).filterMap Call.loaded?

theorem isView_chainLoads : IsView chainLoads Entry.chainLoads :=
  ⟨rfl, fun _ _ => rfl⟩

theorem isView_included : IsView included Entry.included :=
  ⟨rfl, fun _ _ => rfl⟩

@[simp] theorem chainLoads_append (j k : Journal) : chainLoads (j ++ k) = chainLoads j ++ chainLoads k :=
  isView_chainLoads.append j k

@[simp] theorem included_append (j k : Journal) : included (j ++ k) = included j ++ included k :=
  isView_included.append j k

theorem chainLoads_opening (path : Path) (content : String) : chainLoads (opening path content) = [path] :=
  view_opening chainLoads_append (fun _ => rfl) (fun _ => rfl) path content

theorem included_opening (path : Path) (content : String) : included (opening path content) = [] :=
  view_opening included_append (fun _ => rfl) (fun _ => rfl) path content

end Journal

/-- In the expansion of the file of `r` with the journal `j`, at any depth, the file of `opener` opens the file of `q`,
whose expansion hands back `result` and has the journal `body`. -/
inductive Opens : FileRequest → Journal → FileRequest → Manner → FileRequest → FileResult → Journal → Prop where
  /-- The first file opens it. -/
  | here {r q : FileRequest} {j body : Journal} {m : Manner} {result : FileResult} :
    .expand m q result body ∈ j → Opens r j r m q result body
  /-- A file that the first one opens, or one below it, opens it. -/
  | within {r r' opener q : FileRequest} {j j' body : Journal} {m m' : Manner} {result result' : FileResult} :
    .expand m' r' result' j' ∈ j → Opens r' j' opener m q result body → Opens r j opener m q result body

/-! ### Fresh files -/

/-- From one set of visited files to another, while some files are being expanded: the files that are included are new
and differ, and they are what is added to the visited files. -/
structure FreshlyIncluded (visited after : PathSet) (active included : List Path) : Prop where
  /-- The files that are included differ. -/
  nodup : included.Nodup
  /-- They have not been visited. -/
  unvisited : ∀ path ∈ included, path ∉ visited
  /-- They are not being expanded. -/
  inactive : ∀ path ∈ included, path ∉ active
  /-- They are visited afterwards. -/
  visited_iff : ∀ path, path ∈ after ↔ path ∈ visited ∨ path ∈ included

namespace FreshlyIncluded

variable {a b c : PathSet} {active i k : List Path}

theorem refl (a : PathSet) (active : List Path) : FreshlyIncluded a a active [] := by
  constructor <;> simp

theorem trans (h : FreshlyIncluded a b active i) (h' : FreshlyIncluded b c active k) :
    FreshlyIncluded a c active (i ++ k) where
  nodup := by
    refine List.nodup_append.2 ⟨h.nodup, h'.nodup, fun p hp q hq heq => ?_⟩
    subst heq
    exact h'.unvisited p hq ((h.visited_iff p).2 (.inr hp))
  unvisited path hp := by
    rcases List.mem_append.1 hp with hp | hp
    · exact h.unvisited path hp
    · exact fun ha => h'.unvisited path hp ((h.visited_iff path).2 (.inl ha))
  inactive path hp := (List.mem_append.1 hp).elim (h.inactive path) (h'.inactive path)
  visited_iff path := by rw [h'.visited_iff, h.visited_iff, List.mem_append, or_assoc]

/-- A file is included, and then others in it. -/
theorem cons {path : Path} (hv : path ∉ a) (ha : path ∉ active) (h : FreshlyIncluded (a.insert path) b active i) :
    FreshlyIncluded a b active (path :: i) where
  nodup := List.nodup_cons.2 ⟨fun hp => h.unvisited path hp Std.ExtTreeSet.mem_insert_self, h.nodup⟩
  unvisited p hp := by
    rcases List.mem_cons.1 hp with rfl | hp
    · exact hv
    · exact fun ha => h.unvisited p hp (Std.ExtTreeSet.mem_insert.2 (.inr ha))
  inactive p hp := by
    rcases List.mem_cons.1 hp with rfl | hp
    · exact ha
    · exact h.inactive p hp
  visited_iff p := by
    rw [h.visited_iff, Std.ExtTreeSet.mem_insert, Std.LawfulEqCmp.compare_eq_iff_eq, List.mem_cons, or_assoc,
      or_left_comm, eq_comm]

/-- The file that is being expanded last is not included. -/
theorem of_append {path : Path} (h : FreshlyIncluded a b (active ++ [path]) i) :
    FreshlyIncluded a b active i ∧ path ∉ i :=
  ⟨{ h with inactive := fun p hp ha => h.inactive p hp (List.mem_append_left _ ha) },
    fun hp => h.inactive path hp (List.mem_append_right _ (List.mem_singleton_self path))⟩

end FreshlyIncluded

/-- What the expansion of a file with a journal does in its chain. The file itself may be loaded and is not
included. -/
structure FileRequest.IncludesFreshly (r : FileRequest) (result : FileResult) (j : Journal) : Prop where
  /-- The files that are included are new. -/
  fresh : FreshlyIncluded r.chain.visited result.chain.visited r.chain.active (Journal.included j)
  /-- The file is not included. -/
  notMem_included : r.path ∉ Journal.included j
  /-- The file is loaded first, and then only files that are included, each as often as it is included. -/
  loads : (Journal.chainLoads j).Sublist (r.path :: Journal.included j)

/-- What holds of all files that are opened by one. -/
def IncludeFreshly (nested : FileRequest → σ → Expansion σ) : Prop :=
  ∀ (q : FileRequest) (store : σ), q.IncludesFreshly (nested q store).result (nested q store).journal

/-! ### Runs -/

namespace FileContext

variable {ctx : FileContext σ} {s t : FileState σ} {j : Journal}

theorem Step.freshlyIncluded (hn : IncludeFreshly ctx.nested) (h : ctx.Step s j t) :
    FreshlyIncluded s.visited t.visited ctx.active (Journal.included j) ∧
      (Journal.chainLoads j).Sublist (Journal.included j) := by
  cases h with
  | @expand m path ha =>
    cases m with
    | linked => exact ⟨.refl _ _, List.Sublist.refl _⟩
    | included =>
      have hq := hn (ctx.order s .included path) s.store
      simp only [Journal.included, Entry.included, Journal.chainLoads, Entry.chainLoads, List.append_nil]
      exact ⟨.cons (ha.unvisited rfl) ha.inactive hq.fresh, hq.loads⟩
  | _ => exact ⟨.refl _ _, List.Sublist.refl _⟩

theorem Run.freshlyIncluded (hn : IncludeFreshly ctx.nested) (h : ctx.Run s j t) :
    FreshlyIncluded s.visited t.visited ctx.active (Journal.included j) ∧
      (Journal.chainLoads j).Sublist (Journal.included j) := by
  induction h with
  | done s => exact ⟨.refl _ _, List.Sublist.refl _⟩
  | step hs _ ih =>
    obtain ⟨hf, hl⟩ := hs.freshlyIncluded hn
    rw [Journal.chainLoads_append, Journal.included_append]
    exact ⟨hf.trans ih.1, hl.append ih.2⟩

end FileContext

/-- The files that the chain of a file includes are new. -/
theorem expandFile_includeFreshly (provider : Provider σ) (depth : Nat) :
    IncludeFreshly (expandFile provider depth) := by
  intro r store
  refine expandFile_induction (motive := fun _ r _ e => r.IncludesFreshly e.result e.journal) ?_ ?_ depth r store
  · exact fun r _ => ⟨.refl _ _, List.not_mem_nil, List.nil_sublist _⟩
  · intro depth ih r store e he
    cases he with
    | nameless _ => exact ⟨.refl _ _, List.not_mem_nil, List.nil_sublist _⟩
    | unloaded _ _ => exact ⟨.refl _ _, List.not_mem_nil, List.Sublist.refl _⟩
    | @expanded content j s _ _ run =>
      have hn : IncludeFreshly (r.context provider (expandFile provider depth)).nested := ih
      obtain ⟨hf, hl⟩ := run.freshlyIncluded hn
      obtain ⟨hf, hself⟩ := hf.of_append
      have hi : Journal.included (opening r.path content ++ j) = Journal.included j := by
        rw [Journal.included_append, Journal.included_opening, List.nil_append]
      have hc : Journal.chainLoads (opening r.path content ++ j) = r.path :: Journal.chainLoads j := by
        rw [Journal.chainLoads_append, Journal.chainLoads_opening, List.singleton_append]
      simp only [FileRequest.conclude]
      exact ⟨hi ▸ hf, hi ▸ hself, by rw [hi, hc]; exact hl.cons_cons r.path⟩

/-! ### Files that are opened -/

theorem order_of_mem_expandFile {provider : Provider σ} {depth : Nat} {r : FileRequest} {store : σ} {m : Manner}
    {q : FileRequest} {result : FileResult} {body : Journal}
    (h : .expand m q result body ∈ (expandFile provider depth r store).journal) :
    q.chain.active = r.chain.active ++ [r.path] ∧ (m = .linked → q.chain.visited = ∅) ∧
      ∃ d u, result = (expandFile provider d q u).result ∧ body = (expandFile provider d q u).journal := by
  cases depth with
  | zero => simp [expandFile] at h
  | succ depth =>
    obtain ⟨ha, hv, u, hu⟩ := (openFile_opened provider (expandFile provider depth) r store).order_of_mem h
    exact ⟨ha, hv, depth, u, hu⟩

/-- Every file that is opened in an expansion, at any depth, is expanded in turn. It knows the files that are being
expanded, and a linked vertex shader starts with nothing visited. -/
theorem Opens.of_expandFile {provider : Provider σ} {r opener q : FileRequest} {j body : Journal} {m : Manner}
    {result : FileResult} (h : Opens r j opener m q result body) :
    ∀ depth store, j = (expandFile provider depth r store).journal →
      q.chain.active = opener.chain.active ++ [opener.path] ∧ (m = .linked → q.chain.visited = ∅) ∧
      ∃ d u, result = (expandFile provider d q u).result ∧ body = (expandFile provider d q u).journal := by
  induction h with
  | here he =>
    rintro depth store rfl
    exact order_of_mem_expandFile he
  | within he _ ih =>
    rintro depth store rfl
    obtain ⟨-, -, d, u, -, hbody⟩ := order_of_mem_expandFile he
    exact ih d u hbody

theorem Opens.mono {r opener q : FileRequest} {j k body : Journal} {m : Manner} {result : FileResult}
    (h : Opens r j opener m q result body) (hsub : j ⊆ k) : Opens r k opener m q result body := by
  cases h with
  | here he => exact .here (hsub he)
  | within he ho => exact .within (hsub he) ho

/-- No vertex shader is linked in an expansion, at any depth. -/
def LinksNone (r : FileRequest) (j : Journal) : Prop :=
  ∀ opener q result body, ¬ Opens r j opener .linked q result body

mutual

theorem Entry.loads_eq_chainLoads (r : FileRequest) :
    ∀ e : Entry, LinksNone r [e] → (Entry.calls e).filterMap Call.loaded? = Entry.chainLoads e
  | .expand .included q _ body, h =>
    Journal.loads_eq_chainLoads q body fun opener q' result' body' ho =>
      h opener q' result' body' (.within (List.mem_singleton_self _) ho)
  | .expand .linked q result body, h => absurd (.here (List.mem_singleton_self _)) (h r q result body)
  | .load _ _, _ => rfl
  | .resolve _ _, _ | .output _, _ | .request _ _, _ | .lexed _, _ | .abandon _, _ | .skip _, _ | .tooDeep _, _ => rfl

/-- Where no vertex shader is linked, all that is loaded is loaded in the chain. -/
theorem Journal.loads_eq_chainLoads (r : FileRequest) :
    ∀ j : List Entry, LinksNone r j → Journal.loads j = Journal.chainLoads j
  | [], _ => rfl
  | e :: j, h => by
    have he := Entry.loads_eq_chainLoads r e fun opener q result body ho =>
      h opener q result body (ho.mono (by simp))
    have hj := Journal.loads_eq_chainLoads r j fun opener q result body ho =>
      h opener q result body (ho.mono (List.subset_cons_self e j))
    rw [Journal.loads] at hj ⊢
    rw [Journal.calls, List.filterMap_append, he, hj, Journal.chainLoads]

end

/-! ### The main result -/

/-- The files that the chain of a file loads differ. Of those that were visited or being expanded before, only the file
itself may be among them. The files visited afterwards are those visited before and those that the chain includes. -/
structure FileRequest.OncePerChain (r : FileRequest) (result : FileResult) (j : Journal) : Prop where
  /-- No file is loaded twice. -/
  nodup : (Journal.chainLoads j).Nodup
  /-- Only the file itself is loaded again. -/
  fresh : ∀ path ∈ Journal.chainLoads j, path = r.path ∨ path ∉ r.chain.visited ∧ path ∉ r.chain.active
  /-- The visited files grow by what is included. -/
  visited_iff : ∀ path, path ∈ result.chain.visited ↔ path ∈ r.chain.visited ∨ path ∈ Journal.included j

theorem FileRequest.IncludesFreshly.oncePerChain {r : FileRequest} {result : FileResult} {j : Journal}
    (h : r.IncludesFreshly result j) : r.OncePerChain result j where
  nodup := h.loads.nodup (List.nodup_cons.2 ⟨h.notMem_included, h.fresh.nodup⟩)
  fresh path hp := by
    rcases List.mem_cons.1 (h.loads.subset hp) with heq | hi
    · exact .inl heq
    · exact .inr ⟨h.fresh.unvisited path hi, h.fresh.inactive path hi⟩
  visited_iff := h.fresh.visited_iff

/-- **A file is included once in a chain.** This holds of the chain of every file that is expanded and, with nothing
visited, of the chain of every vertex shader that is linked on the way, at any depth. Where none is linked, all files
that are loaded differ. A link leaves the visited files as they are. -/
theorem expandFile_oncePerChain (provider : Provider σ) (depth : Nat) (r : FileRequest) (store : σ) :
    let e := expandFile provider depth r store
    r.OncePerChain e.result e.journal ∧
      (∀ opener q result body, Opens r e.journal opener .linked q result body →
        q.chain.visited = ∅ ∧ q.chain.active = opener.chain.active ++ [opener.path] ∧ q.OncePerChain result body) ∧
      (LinksNone r e.journal → (Journal.loads e.journal).Nodup) ∧
      ∀ (ctx : FileContext σ) path line s, (ctx.linkPath path line s).1.visited = s.visited := by
  intro e
  have once : r.OncePerChain e.result e.journal := (expandFile_includeFreshly provider depth r store).oncePerChain
  refine ⟨once, ?_, ?_, ?_⟩
  · intro opener q result body ho
    obtain ⟨ha, hv, d, u, rfl, rfl⟩ := ho.of_expandFile depth store rfl
    exact ⟨hv rfl, ha, (expandFile_includeFreshly provider d q u).oncePerChain⟩
  · intro hl
    rw [Journal.loads_eq_chainLoads r e.journal hl]
    exact once.nodup
  · intro ctx path line s
    by_cases ha : path ∈ ctx.active
    · rw [ctx.linkPath_of_active ha]
    · rw [ctx.linkPath_of_inactive ha]
      rfl

end ShaderWeave
