import ShaderWeave.Proofs.Reader.Excerpts
import ShaderWeave.Proofs.Reader.Reach

/-!
# Which constructs ask for a file

A file is asked for by a word, `#include` or `#vertex_shader`, behind which the next token that is no blank is a string
(`Cursor.Directs`). A word without a path asks for nothing, and neither does any other construct
(`Reader.construct_value_iff`).
-/

namespace ShaderWeave

/-- The word with which a file is asked for in a manner. -/
def Manner.role : Manner → Role
  | .included => .inclusion
  | .linked => .vertexLink

/-- Under the cursor is a directive that asks for a file, and then comes its path. -/
structure Cursor.Directs (c : Cursor) (m : Manner) (path : Token) : Prop where
  /-- The directive. -/
  role : c.ahead.head?.map Token.role = some m.role
  /-- The path is the next token that is no blank. -/
  next : c.view.upcoming.head? = some path
  /-- It is a string. -/
  string : path.kind = .string

namespace Reader

theorem exists_meets_of_head?_upcoming {c : Cursor} {t : Token} (h : c.view.upcoming.head? = some t) :
    ∃ blanks rest, c.Meets blanks t rest := by
  have next : ((c.ahead.drop 1).dropWhile Token.isBlank).head? = some t := (head?_dropWhile_isBlank _).trans h
  obtain ⟨rest, ahead⟩ := List.head?_eq_some_iff.1 next
  refine ⟨(c.ahead.drop 1).takeWhile Token.isBlank, rest, ?_, ?_, ?_⟩
  · rw [← ahead, List.takeWhile_append_dropWhile]
  · exact fun b hb => List.all_eq_true.1 List.all_takeWhile b hb
  · exact Cursor.isBlank_of_mem_upcoming (List.mem_of_mem_head? h)

/-- What is expected has been found if the next token that is no blank is of one of the kinds. -/
theorem exists_of_expect {kinds : List Token.Kind} {expected : String} {c : Cursor}
    (h : (expect kinds expected c).value = some true) :
    ∃ t, c.view.upcoming.head? = some t ∧ t.kind ∈ kinds := by
  have under : (c.skip (advance c).steps).ahead.head? = c.view.upcoming.head? := congrArg View.under (view_advance c)
  have missed (p : Problem) (d : Cursor) : ((report p >>= fun _ => pure false : Reader Bool) d).value ≠ some true := by
    rw [bind_apply_of_some (a := ()) rfl, pure_apply]
    simp
  rw [expect, bind_apply_of_some (a := ()) rfl, here_bind_apply] at h
  cases ahead : (c.skip (advance c).steps).ahead with
  | nil =>
    rw [ahead] at h
    exact (missed (.unexpectedEnd expected) (c.skip (advance c).steps) h).elim
  | cons t rest =>
    rw [ahead] at h
    by_cases hk : t.kind ∈ kinds
    · exact ⟨t, by rw [← under, ahead]; rfl, hk⟩
    · simp only [if_neg hk] at h
      exact (missed _ _ h).elim

/-- A request asks for the path behind it. -/
theorem request_value_iff {m m' : Manner} {expected written : String} {c : Cursor} {line : Nat} :
    (request m expected c).value = some (.request m' written line) ↔ m' = m ∧ ∃ path,
      c.view.upcoming.head? = some path ∧ path.kind = .string ∧ path.text = written ∧ path.line = line := by
  constructor
  · intro value
    obtain ⟨found, expects, asked⟩ := value_bind_eq_some_iff.1 value
    cases found with
    | false =>
      obtain ⟨_, -, nothing⟩ := value_bind_eq_some_iff.1 asked
      simp [pure_apply] at nothing
    | true =>
      obtain ⟨path, next, string⟩ := exists_of_expect expects
      obtain ⟨blanks, rest, meets⟩ := exists_meets_of_head?_upcoming next
      have string : path.kind = .string := by simpa using string
      rw [request_apply meets string] at value
      obtain ⟨rfl, rfl, rfl⟩ : m = m' ∧ path.text = written ∧ path.line = line := by simpa using value
      exact ⟨rfl, path, next, string, rfl, rfl⟩
  · rintro ⟨rfl, path, next, string, rfl, rfl⟩
    obtain ⟨blanks, rest, meets⟩ := exists_meets_of_head?_upcoming next
    rw [request_apply meets string]

section Construct

variable {c : Cursor} {t : Token} {rest : List Token} {path : Path} {standsAlone : Bool} {types : Structs} {m : Manner}
  {written : String} {line : Nat}

/-- Nothing but two of the words asks for a file. -/
theorem construct_value_ne_request (ahead : c.ahead = t :: rest) (included : t.role ≠ .inclusion)
    (linked : t.role ≠ .vertexLink) :
    (construct path standsAlone types c).value ≠ some (.request m written line) := by
  intro value
  cases role : t.role with
  | inclusion => exact included role
  | vertexLink => exact linked role
  | templateMark =>
    rw [construct_of_templateMark ahead role, templateMark_apply] at value
    simp at value
  | structDefinition =>
    rw [construct_of_structDefinition ahead role, structDefinition_eq] at value
    obtain ⟨_, -, value⟩ := value_bind_eq_some_iff.1 value
    obtain ⟨_, -, value⟩ := value_bind_eq_some_iff.1 value
    simp [pure_apply] at value
  | uniform =>
    rw [construct_of_uniform ahead role] at value
    obtain ⟨_, -, value⟩ := value_bind_eq_some_iff.1 value
    obtain ⟨_, -, value⟩ := value_bind_eq_some_iff.1 value
    simp [pure_apply] at value
  | plain =>
    rw [construct_of_plain ahead role] at value
    simp at value

/-- A file is asked for by a word with a path behind it. -/
theorem construct_value_iff_of_ahead (ahead : c.ahead = t :: rest) :
    (construct path standsAlone types c).value = some (.request m written line) ↔ t.role = m.role ∧ ∃ path,
      c.view.upcoming.head? = some path ∧ path.kind = .string ∧ path.text = written ∧ path.line = line := by
  by_cases included : t.role = .inclusion
  · rw [construct_of_inclusion ahead included, request_value_iff, included]
    cases m <;> simp [Manner.role]
  by_cases linked : t.role = .vertexLink
  · have asked : (construct path standsAlone types c).value =
        (request .linked "a file path after #vertex_shader" c).value := by
      rw [construct_of_vertexLink ahead linked]
      split
      · rfl
      · rw [bind_apply_of_some (a := ()) rfl]
        rfl
    rw [asked, request_value_iff, linked]
    cases m <;> simp [Manner.role]
  · refine iff_of_false (construct_value_ne_request ahead included linked) fun h => ?_
    cases m with
    | included => exact included h.1
    | linked => exact linked h.1

/-- **A construct asks for a file if it is a directive with a path, and otherwise for none.** -/
theorem construct_value_iff : (construct path standsAlone types c).value = some (.request m written line) ↔
    ∃ path, c.Directs m path ∧ path.text = written ∧ path.line = line := by
  cases ahead : c.ahead with
  | nil =>
    refine iff_of_false (fun value => ?_) fun ⟨path, directs, _⟩ => ?_
    · obtain ⟨t, under, -⟩ := value_bind_eq_some_iff.1 value
      simp [current, ahead] at under
    · simpa [ahead] using directs.role
  | cons t rest =>
    have under : c.ahead.head?.map Token.role = some t.role := by rw [ahead]; rfl
    rw [construct_value_iff_of_ahead ahead]
    constructor
    · rintro ⟨role, path, next, string, text⟩
      exact ⟨path, ⟨role ▸ under, next, string⟩, text⟩
    · rintro ⟨path, directs, text⟩
      exact ⟨Option.some.inj (under.symm.trans directs.role), path, directs.next, directs.string, text⟩

end Construct

end Reader

end ShaderWeave
