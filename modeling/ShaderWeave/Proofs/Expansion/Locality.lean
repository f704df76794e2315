import ShaderWeave.Proofs.Expansion.Lockstep
import ShaderWeave.Proofs.Expansion.Twins

/-!
# The files an expansion depends on

Two pure providers that resolve paths alike expand a file alike if they agree on the files that are loaded on the way:
what is handed back and all that happens are equal (`expandFile_of_loads`). It is enough to know the files that one of
the two loads, since as long as they agree the other one loads the same.

A file is not loaded while it is being expanded (`loads_inactive`), so the text of a file has no say in the expansion of
the files it opens.
-/

namespace ShaderWeave

variable {σ τ : Type}

/-! ### Two pure providers -/

/-- Two providers that are pure, each from its store on, and resolve paths alike. -/
structure PureTwo (provider : Provider σ) (base : σ) (provider' : Provider τ) (base' : τ) : Prop where
  /-- The first provider is pure. -/
  pure : provider.IsPure base
  /-- The second provider is pure. -/
  pure' : provider'.IsPure base'
  /-- A written path stands for the same file. -/
  resolve : ∀ written, provider'.resolve base' written = provider.resolve base written

/-- Two stores come about from two others by loading files. -/
def ReachTwo (provider : Provider σ) (base : σ) (provider' : Provider τ) (base' : τ) (s : σ) (s' : τ) : Prop :=
  provider.Reaches base s ∧ provider'.Reaches base' s'

/-- A file has the same text in two stores, or cannot be loaded from either for the same reason. -/
def SameText (provider : Provider σ) (base : σ) (provider' : Provider τ) (base' : τ) (path : Path) : Prop :=
  (provider'.load base' path).1 = (provider.load base path).1

section Two

variable {provider : Provider σ} {base : σ} {provider' : Provider τ} {base' : τ}

theorem PureTwo.resolve_eq (two : PureTwo provider base provider' base') {s : σ} {s' : τ}
    (h : ReachTwo provider base provider' base' s s') (written : String) :
    provider'.resolve s' written = provider.resolve s written := by
  rw [two.pure'.resolve s' h.2, two.pure.resolve s h.1, two.resolve]

theorem PureTwo.load_eq (two : PureTwo provider base provider' base') {s : σ} {s' : τ}
    (h : ReachTwo provider base provider' base' s s') {path : Path}
    (text : SameText provider base provider' base' path) :
    (provider'.load s' path).1 = (provider.load s path).1 := by
  rw [two.pure'.load s' h.2, two.pure.load s h.1, text]

theorem ReachTwo.load {s : σ} {s' : τ} (h : ReachTwo provider base provider' base' s s') (path : Path) :
    ReachTwo provider base provider' base' (provider.load s path).2 (provider'.load s' path).2 :=
  ⟨.load path h.1, .load path h.2⟩

theorem ReachTwo.expandFile {s : σ} {s' : τ} (h : ReachTwo provider base provider' base' s s') (depth : Nat)
    (q q' : FileRequest) :
    ReachTwo provider base provider' base' (expandFile provider depth q s).store
      (expandFile provider' depth q' s').store :=
  ⟨h.1.trans (expandFile_reaches provider depth q s), h.2.trans (expandFile_reaches provider' depth q' s')⟩

end Two

/-! ### What is loaded -/

namespace Journal

theorem loads_append (j k : Journal) : loads (j ++ k) = loads j ++ loads k := by
  rw [loads, calls_append, List.filterMap_append]
  rfl

theorem loads_expand (m : Manner) (q : FileRequest) (result : FileResult) (body : Journal) :
    loads [.expand m q result body] = loads body := by
  simp [loads, calls, Entry.calls]

theorem calls_opening (path : Path) (content : String) : calls (opening path content) = [.load path] :=
  view_opening calls_append (fun _ => rfl) (fun _ => rfl) path content

theorem loads_opening (path : Path) (content : String) : loads (opening path content) = [path] := by
  rw [loads, calls_opening]
  rfl

end Journal

/-- **A file is not loaded while it is being expanded.** -/
theorem loads_inactive (provider : Provider σ) (depth : Nat) (r : FileRequest) (store : σ) :
    ∀ path ∈ Journal.loads (expandFile provider depth r store).journal, path = r.path ∨ path ∉ r.chain.active := by
  refine expandFile_induction (motive := fun _ r _ e => ∀ path ∈ Journal.loads e.journal,
    path = r.path ∨ path ∉ r.chain.active) ?_ ?_ depth r store
  · intro r store path hp
    exact absurd hp List.not_mem_nil
  · intro depth ih r store e he
    cases he with
    | nameless _ => exact fun path hp => absurd hp List.not_mem_nil
    | unloaded _ _ => exact fun path hp => .inl (List.mem_singleton.1 hp)
    | @expanded content j s _ _ run =>
      have inner : ∀ path ∈ Journal.loads j, path ∉ r.chain.active ++ [r.path] := by
        generalize r.initial (provider.load store r.path).2 = start at run
        induction run with
        | done s => exact fun path hp => absurd hp List.not_mem_nil
        | @step s t u j k hs _ more =>
          intro path hp
          rw [Journal.loads_append, List.mem_append] at hp
          rcases hp with hp | hp
          · cases hs with
            | @expand m inner admits =>
              rw [Journal.loads_expand] at hp
              have active := (r.context provider (expandFile provider depth)).order_active s m inner
              rcases ih _ _ path hp with rfl | hn
              · rw [FileContext.order_path]
                exact admits.inactive
              · rwa [active] at hn
            | _ => exact absurd hp List.not_mem_nil
          · exact more path hp
      intro path hp
      simp only [FileRequest.conclude, Journal.loads_append, Journal.loads_opening] at hp
      rcases List.mem_append.1 hp with hp | hp
      · exact .inl (List.mem_singleton.1 hp)
      · exact .inr fun ha => inner path hp (List.mem_append_left _ ha)

/-! ### The main result -/

section Loads

variable {provider : Provider σ} {base : σ} {provider' : Provider τ} {base' : τ}

variable (provider base provider' base') in
/-- Nothing differs but the stores, as long as the files that are loaded have the same text. -/
def onLoads : Comparison σ τ where
  stores := ReachTwo provider base provider' base'
  scopes := Eq
  vertices := Eq
  V := Eq
  lines := Eq
  journals _ := Eq
  supposed j _ := ∀ path ∈ Journal.loads j, SameText provider base provider' base' path
  isSome := @Comparison.isSome_of_eq
  declare := @Comparison.declare_of_eq
  define := @Comparison.define_of_eq
  refl _ _ := rfl
  append := by rintro _ _ _ _ _ rfl rfl; rfl
  problem := by rintro _ _ _ _ rfl; rfl
  abandon := by rintro _ _ _ rfl; rfl
  supposed_left h path hp := h path (by rw [Journal.loads_append]; exact List.mem_append_left _ hp)
  supposed_right _ h path hp := h path (by rw [Journal.loads_append]; exact List.mem_append_right _ hp)

/-- Requests that do not differ are equal. -/
theorem eq_of_requests {q q' : FileRequest} (h : (onLoads provider base provider' base').Requests q q') : q' = q := by
  have scope : q.scope = q'.scope := h.scope
  have eta : q' = ⟨q'.path, q'.standsAlone, q'.scope, q'.chain⟩ := rfl
  rw [eta, h.path, h.standsAlone, ← scope, h.chain]

/-- What is handed back does not differ. -/
theorem result_eq_of_expansions {file : Path} {e : Expansion σ} {e' : Expansion τ}
    (h : (onLoads provider base provider' base').Expansions file e e') : e'.result = e.result := by
  have scope : e.result.scope = e'.result.scope := h.scope
  have vertex : e.result.vertex = e'.result.vertex := h.vertex
  have eta : e'.result = ⟨e'.result.scope, e'.result.chain, e'.result.vertex⟩ := rfl
  rw [eta, ← scope, h.chain, ← vertex]

/-- Another file is opened in the same way. -/
theorem expand_eq_of_expansions (m : Manner) {file : Path} {q q' : FileRequest} {e : Expansion σ} {e' : Expansion τ}
    (hq : (onLoads provider base provider' base').Requests q q')
    (h : (onLoads provider base provider' base').Expansions file e e') :
    [Entry.expand m q e.result e.journal] = [Entry.expand m q' e'.result e'.journal] := by
  have journal : e.journal = e'.journal := h.journal
  rw [eq_of_requests hq, result_eq_of_expansions h, journal]

/-- Files whose texts agree are expanded in lockstep. -/
theorem files_onLoads (two : PureTwo provider base provider' base') :
    (onLoads provider base provider' base').Files provider provider' where
  lines := rfl
  self _ := rfl
  types := by rintro t _ rfl; exact .refl (fun _ => rfl) t.structs
  merge := by rintro _ _ _ _ rfl rfl; rfl
  none := rfl
  orElse := by rintro _ _ _ _ rfl rfl; rfl
  woven := by rintro _ _ _ rfl; rfl
  resolve := two.resolve_eq
  stores := ReachTwo.load
  load hs path supposed :=
    two.load_eq hs (supposed path (by simp [Journal.loads, Journal.calls, Entry.calls, Call.loaded?]))
  supposed h path hp := h path (by rwa [Journal.loads_expand])
  included _ _ _ _ _ hq he := expand_eq_of_expansions .included hq he
  linked _ _ _ _ _ _ hq hs nested supposed :=
    have child := nested _ _ _ _ hq hs fun path hp => supposed path (by rwa [Journal.loads_expand])
    ⟨child.toResults, expand_eq_of_expansions .linked hq child⟩

/-- **An expansion depends on the files it loads alone.** From stores that have come about by loading files, two pure
providers that resolve paths alike expand a file to the same result with the same journal, if all files that the first
one loads have the same text. -/
theorem expandFile_of_loads (two : PureTwo provider base provider' base') {s : σ} {s' : τ}
    (reached : ReachTwo provider base provider' base' s s') (depth : Nat) (r : FileRequest)
    (texts : ∀ path ∈ Journal.loads (expandFile provider depth r s).journal,
      SameText provider base provider' base' path) :
    (expandFile provider' depth r s').result = (expandFile provider depth r s).result ∧
      (expandFile provider' depth r s').journal = (expandFile provider depth r s).journal := by
  have twin := (files_onLoads two).nested depth r r s s' ⟨rfl, rfl, rfl, rfl⟩ reached texts
  have journal : _ = _ := twin.journal
  exact ⟨result_eq_of_expansions twin, journal.symm⟩

end Loads

end ShaderWeave
