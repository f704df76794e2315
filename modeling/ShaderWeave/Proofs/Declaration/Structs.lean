import ShaderWeave.Construct
import ShaderWeave.Proofs.Declaration.Reading
import ShaderWeave.Proofs.Reader.Laws
import ShaderWeave.Proofs.Reader.Writing

/-!
# The grammar of struct types

Between its braces a struct type is a sequence of declarations, of which some may be no declarations at all. Those are
left out, each with all tokens up to the semicolon on which reading rests. `Phrase.Members` says which fields some
tokens give, and where they end, and `Phrase.StructType` which tokens define a struct type.

A declaration ends on its first semicolon (`Phrase.Declaration.first_semicolon`), so no declaration goes on with
another (`Phrase.Declaration.unique`), and some tokens give no more than one list of fields (`Phrase.Members.unique`).
The main result is `Reader.structDefinition_value_iff`: what is read is what the tokens define, and where they define
nothing, reading is abandoned.
-/

namespace ShaderWeave

namespace Phrase

variable {types : Structs}

/-! ### Where declarations end -/

section Semicolons

variable {α β : Type} {ts : List Token} {a : α} {fs : List Fault}

/-- No token is a semicolon. -/
def NoSemicolon (ts : List Token) : Prop :=
  ∀ t ∈ ts, t.kind ≠ .semicolon

theorem NoSemicolon.cons {t : Token} (h : t.kind ≠ .semicolon) (h' : NoSemicolon ts) : NoSemicolon (t :: ts) :=
  List.forall_mem_cons.2 ⟨h, h'⟩

/-- The kinds of tokens of which initializers are made. -/
def valueKinds : List Token.Kind :=
  [.equals, .openParen, .closeParen, .comma, .minus, .boolean, .float, .integer]

/-- All tokens are of these kinds. -/
def OfValues (ts : List Token) : Prop :=
  ∀ t ∈ ts, t.kind ∈ valueKinds

theorem OfValues.append {us : List Token} (h : OfValues ts) (h' : OfValues us) : OfValues (ts ++ us) :=
  fun t ht => (List.mem_append.1 ht).elim (h t) (h' t)

theorem OfValues.cons {t : Token} (h : t.kind ∈ valueKinds) (h' : OfValues ts) : OfValues (t :: ts) :=
  List.forall_mem_cons.2 ⟨h, h'⟩

theorem ofValues_nil : OfValues [] := by
  simp [OfValues]

/-- What initializers are made of is of no other kind. -/
theorem OfValues.kind_ne {kind : Token.Kind} (h : OfValues ts) (hk : kind ∉ valueKinds) : ∀ t ∈ ts, t.kind ≠ kind :=
  fun t ht heq => hk (heq ▸ h t ht)

theorem Word.ofValues {kinds : List Token.Kind} {reading : Token → α → List Fault → Prop} (hk : kinds ⊆ valueKinds)
    (h : Word kinds reading ts a fs) : OfValues ts := by
  obtain ⟨mem, -⟩ := h
  exact ofValues_nil.cons (hk mem)

theorem Signed.ofValues {form : NumberForm α} {kinds : List Token.Kind} (hk : kinds ⊆ valueKinds)
    (h : Signed form kinds ts a fs) : OfValues ts := by
  rcases h with h | ⟨hs, h⟩
  · exact Word.ofValues hk h
  · exact (Word.ofValues hk h).cons (by simp [hs, valueKinds])

theorem Separated.ofValues {G : Phrase α} (hG : ∀ {ts a fs}, G ts a fs → OfValues ts) {n : Nat} {as : List α}
    (h : Separated G n ts as fs) : OfValues ts := by
  induction h with
  | none => exact ofValues_nil
  | one h => exact hG h
  | more h hc _ ih => exact (hG h).append (ih.cons (by simp [hc, valueKinds]))

theorem Listed.ofValues {G : Phrase α} (hG : ∀ {ts a fs}, G ts a fs → OfValues ts) {n : Nat}
    {wrap : List α → β} {b : β} (h : Listed n wrap G ts b fs) : OfValues ts := by
  obtain ⟨h⟩ := h
  exact h.ofValues hG

theorem Components.ofValues {n : Nat} {element : Element} {vs : Values} (h : Components n element ts vs fs) :
    OfValues ts := by
  cases element with
  | boolean => exact Listed.ofValues (Word.ofValues (by simp [valueKinds])) h
  | integer => exact Listed.ofValues (Signed.ofValues (by simp [valueKinds])) h
  | unsigned => exact Listed.ofValues (Word.ofValues (by simp [valueKinds])) h
  | single => exact Listed.ofValues (Signed.ofValues (by simp [valueKinds])) h
  | double => exact Listed.ofValues (Signed.ofValues (by simp [valueKinds])) h

theorem Initializer.ofValues {n : Nat} {element : Element} {vs : Values} (h : Initializer element n ts vs fs) :
    OfValues ts := by
  rcases h with _ | ⟨-, he, h⟩ | ⟨-, he, ho, h, hc⟩
  · exact ofValues_nil
  · exact h.ofValues.cons (by simp [he, valueKinds])
  · exact ((h.ofValues.append (ofValues_nil.cons (by simp [hc, valueKinds]))).cons (by simp [ho, valueKinds])).cons
      (by simp [he, valueKinds])

/-- An initializer starts with an equals sign, if there is one. -/
theorem Initializer.head {n : Nat} {element : Element} {vs : Values} (h : Initializer element n ts vs fs) :
    ∀ t ∈ ts.head?, t.kind = .equals := by
  rcases h with _ | ⟨-, he, -⟩ | ⟨-, he, -, -, -⟩
  · simp
  · simpa using he
  · simpa using he

/-- **A declaration is a type, a name, maybe an initializer, and a semicolon.** -/
theorem Declaration.exists_parts {v : Variable} (h : Declaration types ts v fs) :
    ∃ type name values stop, ts = type :: name :: (values ++ [stop]) ∧ type.kind = .keyword ∧ name.kind = .keyword ∧
      OfValues values ∧ (∀ t ∈ values.head?, t.kind = .equals) ∧ stop.kind = .semicolon := by
  rcases h with ⟨hw, -, hn, (⟨hi, hs⟩ | hs)⟩
  · exact ⟨_, _, _, _, rfl, hw, hn, hi.ofValues, hi.head, hs⟩
  · exact ⟨_, _, [], _, rfl, hw, hn, ofValues_nil, by simp, hs⟩

/-- **A declaration ends on its first semicolon.** -/
theorem Declaration.first_semicolon {v : Variable} (h : Declaration types ts v fs) :
    ∃ us stop, ts = us ++ [stop] ∧ NoSemicolon us ∧ stop.kind = .semicolon := by
  obtain ⟨type, name, values, stop, rfl, ht, hn, hv, -, hs⟩ := h.exists_parts
  have free : NoSemicolon values := hv.kind_ne (by simp [valueKinds])
  exact ⟨type :: name :: values, stop, rfl, (free.cons (by simp [hn])).cons (by simp [ht]), hs⟩

end Semicolons

/-- What stands before the first semicolon does not depend on where the tokens are split. -/
theorem eq_of_first_semicolon {ts us ts' us' : List Token} {stop stop' : Token} (hn : NoSemicolon ts)
    (hn' : NoSemicolon ts') (hs : stop.kind = .semicolon) (hs' : stop'.kind = .semicolon)
    (h : ts ++ stop :: us = ts' ++ stop' :: us') : ts = ts' ∧ stop = stop' ∧ us = us' := by
  induction ts generalizing ts' with
  | nil =>
    cases ts' with
    | nil => simpa using h
    | cons t ts' =>
      obtain ⟨rfl, -⟩ := List.cons.inj h
      exact absurd hs (hn' _ List.mem_cons_self)
  | cons t ts ih =>
    cases ts' with
    | nil =>
      obtain ⟨rfl, -⟩ := List.cons.inj h
      exact absurd hs' (hn _ List.mem_cons_self)
    | cons t' ts' =>
      obtain ⟨rfl, tail⟩ := List.cons.inj h
      obtain ⟨rfl, rfl, rfl⟩ := ih (fun t ht => hn t (List.mem_cons_of_mem _ ht))
        (fun t ht => hn' t (List.mem_cons_of_mem _ ht)) tail
      exact ⟨rfl, rfl, rfl⟩

/-- The same tokens declare the same variable. -/
theorem Declaration.value_unique {ts : List Token} {v v' : Variable} {fs fs' : List Fault}
    (h : Declaration types ts v fs) (h' : Declaration types ts v' fs') : v = v' := by
  have recognized := Reader.recognizes_declaration types
  let c : Cursor := ⟨0, Token.newline 0 :: ts, 0⟩
  have view : c.view = ⟨some (Token.newline 0), ts ++ []⟩ := by
    simp [c, Cursor.view, significant_eq_self (recognized.wellFormed.solid h)]
  have value := (recognized.reads h _ [] c view).1
  have value' := (recognized.reads h' _ [] c view).1
  exact Option.some.inj (value.symm.trans value')

/-- **Some tokens begin with one declaration at most.** -/
theorem Declaration.unique {ts us ts' us' : List Token} {v v' : Variable} {fs fs' : List Fault}
    (h : Declaration types ts v fs) (h' : Declaration types ts' v' fs') (split : ts ++ us = ts' ++ us') :
    ts = ts' ∧ us = us' ∧ v = v' := by
  obtain ⟨xs, stop, rfl, hn, hs⟩ := h.first_semicolon
  obtain ⟨xs', stop', rfl, hn', hs'⟩ := h'.first_semicolon
  simp only [List.append_assoc, List.singleton_append] at split
  obtain ⟨rfl, rfl, rfl⟩ := eq_of_first_semicolon hn hn' hs hs' split
  exact ⟨rfl, rfl, h.value_unique h'⟩

/-! ### Members -/

/-- The tokens begin with no declaration. -/
def NoDeclaration (types : Structs) (ts : List Token) : Prop :=
  ∀ us rest v fs, ts = us ++ rest → ¬ Declaration types us v fs

/-- The members of a struct type: the tokens from the first member on, the fields that they give, and the tokens at
which the members end. -/
inductive Members (types : Structs) : List Token → List Variable → List Token → Prop
  /-- A closing brace comes next, or nothing. -/
  | ended {ts : List Token} (h : ∀ t ∈ ts.head?, t.kind = .closeCurly) : Members types ts [] ts
  /-- A field is declared. -/
  | declared {ts us left : List Token} {v : Variable} {fields : List Variable} {fs : List Fault}
    (h : Declaration types ts v fs) (more : Members types us fields left) :
    Members types (ts ++ us) (v :: fields) left
  /-- Tokens that are no declaration give no field. The members go on behind the semicolon that comes first from the
  token on with which no declaration goes on. -/
  | leftOut {ts us left : List Token} {fields : List Variable}
    (goesOn : ∃ t ∈ (ts ++ us).head?, t.kind ≠ .closeCurly) (none : NoDeclaration types (ts ++ us))
    (begins : Begins (Declaration types) ts) (stuck : ∀ t ∈ us.head?, ¬ Begins (Declaration types) (ts ++ [t]))
    (more : Members types ((us.dropWhile (·.kind ≠ .semicolon)).drop 1) fields left) :
    Members types (ts ++ us) fields left

theorem Declaration.exists_keyword {ts : List Token} {v : Variable} {fs : List Fault} (h : Declaration types ts v fs)
    (us : List Token) : ∃ t ∈ (ts ++ us).head?, t.kind ≠ .closeCurly := by
  obtain ⟨hw, -, -, -⟩ := h
  exact ⟨_, rfl, by simp [hw]⟩

/-- The place in which no phrase goes on is one alone. -/
theorem Begins.unique {α : Type} {G : Phrase α} {ts us ts' us' : List Token} (hb : G.Begins ts) (hb' : G.Begins ts')
    (hs : ∀ t ∈ us.head?, ¬ G.Begins (ts ++ [t])) (hs' : ∀ t ∈ us'.head?, ¬ G.Begins (ts' ++ [t]))
    (split : ts ++ us = ts' ++ us') : ts = ts' ∧ us = us' := by
  -- a place further on would be one to which a phrase goes on
  have shorter {as bs : List Token} {t : Token} (h : G.Begins (as ++ t :: bs)) : G.Begins (as ++ [t]) := by
    obtain ⟨xs, a, fs, phrase⟩ := h
    exact ⟨bs ++ xs, a, fs, by simpa using phrase⟩
  rcases List.append_eq_append_iff.1 split with ⟨as, rfl, rfl⟩ | ⟨as, rfl, rfl⟩
  · cases as with
    | nil => simp
    | cons t as => exact absurd (shorter hb') (hs t rfl)
  · cases as with
    | nil => simp
    | cons t as => exact absurd (shorter hb) (hs' t rfl)

/-- **Some tokens give one list of fields.** -/
theorem Members.unique {ts left left' : List Token} {fields fields' : List Variable}
    (h : Members types ts fields left) (h' : Members types ts fields' left') : fields = fields' ∧ left = left' := by
  induction h generalizing fields' left' with
  | @ended ts h =>
    have never (goesOn : ∃ t ∈ ts.head?, t.kind ≠ .closeCurly) : False := by
      obtain ⟨t, ht, hk⟩ := goesOn
      exact hk (h t ht)
    cases h' with
    | ended => exact ⟨rfl, rfl⟩
    | declared h' _ => exact (never (h'.exists_keyword _)).elim
    | leftOut goesOn _ _ _ _ => exact (never goesOn).elim
  | @declared ts us left v fields fs h _ ih =>
    generalize whole : ts ++ us = all at h'
    cases h' with
    | ended h' =>
      obtain ⟨t, ht, hk⟩ := h.exists_keyword us
      exact absurd (h' t (whole ▸ ht)) hk
    | declared h' more' =>
      obtain ⟨-, rfl, rfl⟩ := h.unique h' whole
      obtain ⟨rfl, rfl⟩ := ih more'
      exact ⟨rfl, rfl⟩
    | leftOut _ none _ _ _ => exact absurd h (none ts us v fs whole.symm)
  | @leftOut ts us left fields goesOn none begins stuck _ ih =>
    generalize whole : ts ++ us = all at h' none goesOn
    cases h' with
    | ended h' =>
      obtain ⟨t, ht, hk⟩ := goesOn
      exact absurd (h' t ht) hk
    | declared h' _ => exact absurd h' (none _ _ _ _ rfl)
    | leftOut _ _ begins' stuck' more' =>
      obtain ⟨-, rfl⟩ := begins.unique begins' stuck stuck' whole
      exact ih more'

/-- The definition of a struct type: the tokens behind the word `struct`, the name, and the fields. -/
inductive StructType (types : Structs) : List Token → String → List Variable → Prop
  /-- The name, the members in braces and a semicolon. -/
  | intro {name opening closing stop : Token} {body rest : List Token} {fields : List Variable}
    (hn : name.kind = .keyword) (ho : opening.kind = .openCurly)
    (hm : Members types body fields (closing :: stop :: rest)) (hc : closing.kind = .closeCurly)
    (hs : stop.kind = .semicolon) : StructType types (name :: opening :: body) name.text fields

end Phrase

namespace Reader

open Phrase

variable {types : Structs} {c : Cursor}

/-! ### Reading members -/

theorem significant_dropWhile_semicolon (ts : List Token) :
    significant ((ts.dropWhile (·.kind ≠ .semicolon)).drop 1) =
      ((significant ts).dropWhile (·.kind ≠ .semicolon)).drop 1 := by
  induction ts with
  | nil => rfl
  | cons t ts ih =>
    by_cases hs : t.kind = .semicolon
    · have solid : t.isBlank = false := by simp [Token.isBlank, hs]
      simp [significant, hs, solid]
    · by_cases hb : t.isBlank
      · simpa [significant, hs, hb] using ih
      · simpa [significant, hs, hb] using ih

/-- What is seen behind the place in which a declaration is abandoned. -/
theorem Rejected.upcoming {α : Type} {G : Phrase α} {o : Outcome α} {raw rest : List Token} {fs : List Fault}
    {p : Problem} (h : Rejected G c o raw rest fs p) :
    c.view.upcoming = significant raw ++ significant rest ∧
      (∀ t ∈ (significant rest).head?, ¬ G.Begins (significant raw ++ [t])) ∧
      (c.skip o.steps).view.upcoming = ((significant rest).dropWhile (·.kind ≠ .semicolon)).drop 1 := by
  refine ⟨by rw [Cursor.view, h.split, significant_append], ?_, ?_⟩
  · intro t ht
    have head : rest.head? = some t := by
      cases rest with
      | nil => simp [significant] at ht
      | cons u rest => simpa [significant, (h.stuck u rfl).1] using ht
    exact (h.stuck t head).2
  · rw [Cursor.view, h.resting, significant_dropWhile_semicolon]

/-- **The fields that are read are those the tokens give.** -/
theorem structFields_members (hc : ∀ t ∈ c.ahead, t.Truthful) :
    ∃ fields, (structFields types c).value = some fields ∧
      Members types c.view.upcoming fields (c.skip (structFields types c).steps).view.upcoming := by
  have recognized := recognizes_declaration types
  rw [structFields]
  induction c using collectUntil.induct .closeCurly (declaration types) (steps_declaration_pos types) with
  | case1 c h =>
    rw [collectUntil_of_stop h]
    refine ⟨[], rfl, .ended fun t ht => ?_⟩
    simpa [Cursor.nextKind_eq, Option.mem_def.1 ht] using h
  | case2 c h one ih =>
    have goesOn : ∃ t ∈ c.view.upcoming.head?, t.kind ≠ .closeCurly := by
      rw [Cursor.nextKind_eq] at h
      cases head : c.view.upcoming.head? with
      | none => simp [head] at h
      | some t => exact ⟨t, rfl, by simpa [head] using h⟩
    obtain ⟨fields, value, members⟩ := ih fun t ht => hc t (List.mem_of_mem_drop ht)
    rw [collectUntil_of_more h, ← Cursor.skip_skip]
    refine ⟨one.value.toList ++ fields, by rw [value]; rfl, ?_⟩
    cases read : one.value with
    | none =>
      obtain ⟨raw, rest, fs, p, rejected⟩ := recognized.rejected hc read
      obtain ⟨split, stuck, resting⟩ := rejected.upcoming
      rw [resting] at members
      have none : NoDeclaration types c.view.upcoming := by
        intro us left v gs split phrase
        have read' := (recognized.value_eq_some_iff hc).2 ⟨us, left, gs, split, phrase⟩
        rw [show one = declaration types c from rfl, read'] at read
        simp at read
      rw [split] at goesOn none ⊢
      exact .leftOut goesOn none rejected.begins stuck members
    | some v =>
      obtain ⟨ts, us, fs, split, phrase⟩ := (recognized.value_eq_some_iff hc).1 read
      have upcoming : c.view = ⟨c.view.under, ts ++ us⟩ := by rw [← split]; rfl
      have sight := (recognized.reads phrase _ us c upcoming).2.2
      rw [show (c.skip one.steps).view = _ from sight] at members
      rw [upcoming]
      exact .declared phrase members

/-! ### Reading definitions -/

section Demands

variable {β : Type} {kind : Token.Kind} {f : Unit → Reader β} {b : β}

theorem value_copy_bind : ((copy >>= f) c).value = (f () c).value := by
  rw [bind_apply_of_some (a := ()) rfl]
  rfl

/-- Where a demand is met, reading goes on from the token. -/
theorem value_demand_bind (expected : String) {t : Token} {us : List Token} (hu : c.view.upcoming = t :: us)
    (hk : t.kind = kind) : ∃ n, (c.skip n).view = ⟨some t, us⟩ ∧
      ∀ {β : Type} (f : Unit → Reader β), ((demand kind expected >>= f) c).value = (f () (c.skip n)).value := by
  have takes : (demand kind expected).Takes ⟨c.view.under, t :: us⟩ () [] ⟨some t, us⟩ :=
    takes_demandOneOf (List.mem_singleton.2 hk) c.view.under us
  obtain ⟨value, -, sight⟩ := takes c (by rw [← hu])
  exact ⟨_, sight, fun f => by rw [bind_apply_of_some value]⟩

/-- A demand is met by the next token that is no blank, or not at all. -/
theorem exists_of_value_demand_bind {expected : String} (hb : kind ≠ .whitespace)
    (value : ((demand kind expected >>= f) c).value = some b) :
    ∃ t us, c.view.upcoming = t :: us ∧ t.kind = kind := by
  obtain ⟨⟨⟩, met, -⟩ := value_bind_eq_some_iff.1 value
  have recognized : (demand kind expected).Recognizes (fun _ => True) (OfKind kind) := recognizes_demand hb
  obtain ⟨ts, us, fs, split, ⟨hk, -⟩⟩ := (recognized.value_eq_some_iff fun _ _ => trivial).1 met
  exact ⟨_, us, split, List.mem_singleton.1 hk⟩

end Demands

/-- Reads the end of the definition of a struct type, behind its members. -/
def definitionEnd (name : String) (fields : List Variable) : Reader Action := do
  demand .closeCurly "a closing curly brace"
  copy
  demand .semicolon "a semicolon"
  copy
  newline
  return .define name fields

theorem definitionEnd_value_iff {name : String} {fields : List Variable} {action : Action} :
    (definitionEnd name fields c).value = some action ↔ action = .define name fields ∧
      ∃ closing stop rest, c.view.upcoming = closing :: stop :: rest ∧ closing.kind = .closeCurly ∧
        stop.kind = .semicolon := by
  have last (d : Cursor) : ((newline >>= fun _ => (pure (.define name fields) : Reader Action)) d).value =
      some (.define name fields) := by
    rw [bind_apply_of_some (a := ()) rfl, pure_apply]
  have ends {closing stop : Token} {rest : List Token} (hu : c.view.upcoming = closing :: stop :: rest)
      (hc : closing.kind = .closeCurly) (hs : stop.kind = .semicolon) :
      (definitionEnd name fields c).value = some (.define name fields) := by
    obtain ⟨n, sight, first⟩ := value_demand_bind "a closing curly brace" hu hc
    obtain ⟨m, -, second⟩ := value_demand_bind (c := c.skip n) "a semicolon" (congrArg View.upcoming sight) hs
    rw [definitionEnd, first, value_copy_bind, second, value_copy_bind, last]
  constructor
  · intro value
    obtain ⟨closing, us, hu, hc⟩ := exists_of_value_demand_bind (by simp) value
    obtain ⟨n, sight, first⟩ := value_demand_bind "a closing curly brace" hu hc
    have value' := value
    rw [definitionEnd, first, value_copy_bind] at value'
    obtain ⟨stop, rest, hu', hs⟩ := exists_of_value_demand_bind (by simp) value'
    obtain rfl : us = stop :: rest := by rw [← hu', sight]
    exact ⟨Option.some.inj (value.symm.trans (ends hu hc hs)), closing, stop, rest, hu, hc, hs⟩
  · rintro ⟨rfl, closing, stop, rest, hu, hc, hs⟩
    exact ends hu hc hs

/-- Where a name and an opening brace come next, the members are read, and then the end. -/
theorem structDefinition_value (types : Structs) {name opening : Token} {body : List Token}
    (hu : c.view.upcoming = name :: opening :: body) (hn : name.kind = .keyword) (ho : opening.kind = .openCurly) :
    ∃ n, (c.skip n).view.upcoming = body ∧ (structDefinition types c).value =
      ((structFields types >>= definitionEnd name.text) (c.skip n)).value := by
  obtain ⟨n, sight, first⟩ := value_demand_bind "a struct name" hu hn
  obtain ⟨m, sight', second⟩ := value_demand_bind (c := c.skip n) "an opening curly brace"
    (congrArg View.upcoming sight) ho
  obtain ⟨rest, under⟩ : ∃ rest, (c.skip n).ahead = name :: rest := List.head?_eq_some_iff.1 (congrArg View.under sight)
  refine ⟨n + m, by rw [← Cursor.skip_skip, sight'], ?_⟩
  rw [structDefinition, value_copy_bind, first, bind_apply_of_still (current_apply under), value_copy_bind, second,
    value_copy_bind, Cursor.skip_skip]
  rfl

/-- A definition that is read starts with a name and an opening brace. -/
theorem exists_of_structDefinition_value {action : Action} (value : (structDefinition types c).value = some action) :
    ∃ name opening body, c.view.upcoming = name :: opening :: body ∧ name.kind = .keyword ∧
      opening.kind = .openCurly := by
  rw [structDefinition, value_copy_bind] at value
  obtain ⟨name, us, hu, hn⟩ := exists_of_value_demand_bind (by simp) value
  obtain ⟨n, sight, first⟩ := value_demand_bind "a struct name" hu hn
  obtain ⟨rest, under⟩ : ∃ rest, (c.skip n).ahead = name :: rest := List.head?_eq_some_iff.1 (congrArg View.under sight)
  rw [first, bind_apply_of_still (current_apply under), value_copy_bind] at value
  obtain ⟨opening, body, hu', ho⟩ := exists_of_value_demand_bind (by simp) value
  obtain rfl : us = opening :: body := by rw [← hu', sight]
  exact ⟨name, opening, body, hu, hn, ho⟩

/-- **What is read as the definition of a struct type is what the tokens define.** Where they define none, reading is
abandoned. -/
theorem structDefinition_value_iff (hc : ∀ t ∈ c.ahead, t.Truthful) {action : Action} :
    (structDefinition types c).value = some action ↔
      ∃ name fields, action = .define name fields ∧ StructType types c.view.upcoming name fields := by
  have members (n : Nat) := @structFields_members types (c.skip n) fun t ht => hc t (List.mem_of_mem_drop ht)
  constructor
  · intro value
    obtain ⟨name, opening, body, hu, hn, ho⟩ := exists_of_structDefinition_value value
    obtain ⟨n, rfl, read⟩ := structDefinition_value types hu hn ho
    obtain ⟨fields, found, members⟩ := members n
    rw [read, bind_apply_of_some found] at value
    obtain ⟨rfl, closing, stop, rest, ends, hcl, hs⟩ := definitionEnd_value_iff.1 value
    rw [ends] at members
    exact ⟨name.text, fields, rfl, hu ▸ .intro hn ho members hcl hs⟩
  · rintro ⟨_, fields, rfl, defined⟩
    generalize hu : c.view.upcoming = ts at defined
    obtain ⟨hn, ho, given, hcl, hs⟩ := defined
    obtain ⟨n, rfl, read⟩ := structDefinition_value types hu hn ho
    obtain ⟨fields', found, members⟩ := members n
    obtain ⟨rfl, ends⟩ := given.unique members
    rw [read, bind_apply_of_some found]
    exact definitionEnd_value_iff.2 ⟨rfl, _, _, _, ends.symm, hcl, hs⟩

end Reader

end ShaderWeave
