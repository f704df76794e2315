import ShaderWeave.Proofs.Expansion.Lockstep
import ShaderWeave.Proofs.Expansion.Twins
import ShaderWeave.Proofs.Scope.Names

/-!
# What a file takes from the scope it starts with

A file starts with the scope of the one that opens it. All that it takes from there is which names are struct types: it
puts out the same, reports the same, asks the provider the same and includes the same files whatever the uniforms are
and whatever fields the struct types have (`expandFile_of_sameTypes`). The scopes themselves differ all along, but they
keep having the same types, and so the two expansions stay in lockstep.
-/

namespace ShaderWeave

variable {σ : Type}

/-- Two journals put out and report the same, and ask the same of the provider. -/
structure Journal.Accounts (file : Path) (j j' : Journal) : Prop extends Journal.Matches file j j' where
  /-- The provider is asked the same. -/
  calls : calls j' = calls j

namespace Journal.Accounts

variable {file : Path} {j j' k k' : Journal}

theorem refl (file : Path) (j : Journal) : Accounts file j j :=
  ⟨.refl file j, rfl⟩

theorem append (h : Accounts file j j') (h' : Accounts file k k') : Accounts file (j ++ k) (j' ++ k') :=
  ⟨h.toMatches.append h'.toMatches, by rw [calls_append, calls_append, h.calls, h'.calls]⟩

/-- Another file is opened whose expansion puts out the same. -/
theorem expand {q q' : FileRequest} (hq : q'.path = q.path) (h : Accounts q.path j j') (m : Manner)
    (result result' : FileResult) : Accounts file [.expand m q result j] [.expand m q' result' j'] where
  emissions := by cases m <;> simp [emissions, Entry.emissions, hq, h.emissions]
  diagnostics := by simp [diagnostics, Entry.diagnostics, hq, h.diagnostics]
  calls := by simp [Journal.calls, Entry.calls, h.calls]

end Journal.Accounts

/-- Only the scopes differ, and they have the same types. -/
def ofSameTypes (σ : Type) : Comparison σ σ where
  stores := Eq
  scopes := Scope.SameTypes
  vertices := Eq
  V := Variable.SameName
  lines := Eq
  journals := Journal.Accounts
  supposed _ _ := True
  isSome := @Comparison.isSome_of_eq
  declare ht _ := ht.declare _ _
  define name _ _ ht _ := ht.define name _ _
  refl := .refl
  append := .append
  problem := by rintro file p _ _ rfl; exact .refl file _
  abandon := by rintro file _ _ rfl; exact .refl file _
  supposed_left _ := trivial
  supposed_right _ _ := trivial

/-- Files that start with the same types are expanded in lockstep. -/
theorem files_ofSameTypes (provider : Provider σ) : (ofSameTypes σ).Files provider provider where
  lines := rfl
  self _ := rfl
  types := Scope.SameTypes.like
  merge := Scope.SameTypes.merge
  none := rfl
  orElse := by rintro _ _ _ _ rfl rfl; rfl
  woven h := congrArg some h.woven.symm
  resolve := by rintro _ _ rfl _; rfl
  stores := by rintro _ _ rfl _; rfl
  load := by rintro _ _ rfl _ _; rfl
  supposed _ := trivial
  included file _ _ _ _ hq he := he.journal.expand hq.path .included _ _
  linked file _ _ _ _ _ hq hs nested _ :=
    have child := nested _ _ _ _ hq hs trivial
    ⟨child.toResults, child.journal.expand hq.path .linked _ _⟩

/-- **Of the scope a file starts with, only the names of the struct types matter.** With other uniforms and other
fields, the same text is woven from the same places, the same vertex shader is found, the same is reported, the provider
is asked the same in the same order, and the same files are included. The scopes that are handed back have the same
types again. -/
theorem expandFile_of_sameTypes (provider : Provider σ) (depth : Nat) (r : FileRequest) (store : σ) {scope : Scope}
    (h : r.scope.SameTypes scope) :
    let e := expandFile provider depth r store
    let e' := expandFile provider depth { r with scope := scope } store
    Journal.woven r.path e'.journal = Journal.woven r.path e.journal ∧ e'.result.vertex = e.result.vertex ∧
      Journal.diagnostics r.path e'.journal = Journal.diagnostics r.path e.journal ∧
      e'.result.chain = e.result.chain ∧ Journal.calls e'.journal = Journal.calls e.journal ∧ e'.store = e.store ∧
      e.result.scope.SameTypes e'.result.scope := by
  intro e e'
  have twin : (ofSameTypes σ).Expansions r.path e e' :=
    (files_ofSameTypes provider).nested depth r { r with scope := scope } store store ⟨rfl, rfl, h, rfl⟩ rfl trivial
  exact ⟨twin.journal.woven, twin.vertex.symm, twin.journal.diagnostics, twin.chain, twin.journal.calls,
    twin.store.symm, twin.scope⟩

/-- A file that declares a uniform of a struct type which is defined elsewhere, and includes another file. -/
def inheritingFiles : MemoryFiles :=
  (MemoryFiles.empty.put "a.glsl" [some "uniform Light sun;\n#include \"b.glsl\"\nuniform Fog fog;\n"]).put
    "b.glsl" [some "struct Fog \x7b float depth; \x7d;\n"]

/-- The fields of the inherited type and the inherited uniform may be others. -/
theorem expandFile_of_sameTypes_light :
    let plain : Scope := (Scope.empty.define "Light" []).declare (.group "sun" [])
    let bright : Scope := (Scope.empty.define "Light" [.value "color" (.single [Single.zero])]).declare
      (.value "level" (.integer [3]))
    let r : FileRequest := ⟨⟨"a.glsl"⟩, false, plain, .empty⟩
    let e := expandFile MemoryFiles.provider 2 r inheritingFiles
    let e' := expandFile MemoryFiles.provider 2 { r with scope := bright } inheritingFiles
    plain.SameTypes bright ∧
      (Journal.woven r.path e'.journal).text =
        "uniform Light sun;\n struct Fog \x7b float depth; \x7d;\n\n\nuniform Fog fog;\n" ∧
      Journal.diagnostics r.path e'.journal = [] ∧ e.result.scope.SameTypes e'.result.scope := by
  intro plain bright r e e'
  have same : plain.SameTypes bright := ((Scope.SameTypes.refl .empty).define "Light" _ _).declare _ _
  obtain ⟨woven, -, diagnostics, -, -, -, scope⟩ :=
    expandFile_of_sameTypes MemoryFiles.provider 2 r inheritingFiles same
  exact ⟨same, (congrArg Weave.text woven).trans (by decide +kernel), diagnostics.trans (by decide +kernel), scope⟩

end ShaderWeave
