import ShaderWeave.Proofs.Reader.Sight

/-!
# What readers recognize

A `Phrase` says which tokens a reader may read, what it gives for them and which problems it reports on the way. Blanks
are no part of a phrase: they may stand between any two of its tokens.

`Reader.Recognizes` ties a reader to a phrase. Where the tokens after the cursor begin with a phrase, the reader gives
its value and stops on its last token (`Recognizes.accepted`). Otherwise it is abandoned on the first token with which
no phrase goes on: it reports one problem there and rests on the next semicolon (`Recognizes.rejected`).

Readers recognize one phrase after another (`Recognizes.bind`), single tokens (`recognizes_word`,
`recognizes_demand`) and one of two phrases that differ in the kind of their first token (`Recognizes.orAhead`).
-/

namespace ShaderWeave

variable {α β : Type}

/-! ### Phrases -/

/-- What may be read: some tokens, what is given for them, and the problems that are reported on the way. -/
abbrev Phrase (α : Type) := List Token → α → List Fault → Prop

namespace Phrase

/-- The tokens begin a phrase. -/
def Begins (G : Phrase α) (ts : List Token) : Prop :=
  ∃ us a fs, G (ts ++ us) a fs

/-- There is a phrase, and in each phrase no token is a blank and no problem is worse than a bad number. -/
structure WellFormed (G : Phrase α) : Prop where
  /-- Something can be read. -/
  inhabited : ∃ ts a fs, G ts a fs
  /-- Blanks are no part of a phrase. -/
  solid : ∀ {ts a fs}, G ts a fs → ∀ t ∈ ts, t.isBlank = false
  /-- Only numbers are reported. -/
  numbers : ∀ {ts a fs}, G ts a fs → ∀ f ∈ fs, f.1.IsBadNumber

/-- No tokens at all. -/
inductive Nothing (a : α) : Phrase α
  /-- Nothing is read. -/
  | intro : Nothing a [] a []

/-- One token of a given kind, which stands for what `reading` says. -/
inductive Word (kinds : List Token.Kind) (reading : Token → α → List Fault → Prop) : Phrase α
  /-- The token is read. -/
  | intro {t : Token} {a : α} {fs : List Fault} (hk : t.kind ∈ kinds) (h : reading t a fs) : Word kinds reading [t] a fs

/-- One token of a given kind. -/
def OfKind (kind : Token.Kind) : Phrase Unit :=
  .Word [kind] fun _ _ fs => fs = []

/-- One phrase after another. -/
inductive Then (G : Phrase α) (H : α → Phrase β) : Phrase β
  /-- Both are read. -/
  | intro {ts us : List Token} {a : α} {b : β} {fs gs : List Fault} (first : G ts a fs) (second : H a us b gs) :
    Then G H (ts ++ us) b (fs ++ gs)

/-- One phrase or another. -/
inductive Either (G H : Phrase α) : Phrase α
  /-- The first one is read. -/
  | left {ts : List Token} {a : α} {fs : List Fault} (h : G ts a fs) : Either G H ts a fs
  /-- The second one is read. -/
  | right {ts : List Token} {a : α} {fs : List Fault} (h : H ts a fs) : Either G H ts a fs

/-- What is made of a value adds nothing to the phrase it is read from. -/
theorem then_nothing_iff {G : Phrase α} {g : α → β} {ts : List Token} {b : β} {fs : List Fault} :
    G.Then (fun a => Nothing (g a)) ts b fs ↔ ∃ a, G ts a fs ∧ g a = b := by
  constructor
  · rintro ⟨first, ⟨⟩⟩
    exact ⟨_, by simpa using first, rfl⟩
  · rintro ⟨a, first, rfl⟩
    have h : G.Then (fun a => Nothing (g a)) (ts ++ []) (g a) (fs ++ []) := .intro first .intro
    rwa [List.append_nil, List.append_nil] at h

/-- A phrase after a single token. -/
theorem word_then_iff {kinds : List Token.Kind} {reading : Token → α → List Fault → Prop} {H : α → Phrase β}
    {ts : List Token} {b : β} {fs : List Fault} :
    (Word kinds reading).Then H ts b fs ↔ ∃ t us a gs hs, ts = t :: us ∧ fs = gs ++ hs ∧ t.kind ∈ kinds ∧
      reading t a gs ∧ H a us b hs := by
  constructor
  · rintro ⟨⟨hk, h⟩, second⟩
    exact ⟨_, _, _, _, _, rfl, rfl, hk, h, second⟩
  · rintro ⟨t, us, a, gs, hs, rfl, rfl, hk, h, second⟩
    have first : Word kinds reading [t] a gs := .intro hk h
    exact .intro first second

/-- A phrase after a token of a given kind. -/
theorem ofKind_then_iff {kind : Token.Kind} {H : Unit → Phrase β} {ts : List Token} {b : β} {fs : List Fault} :
    (OfKind kind).Then H ts b fs ↔ ∃ t us, ts = t :: us ∧ t.kind = kind ∧ H () us b fs := by
  rw [OfKind, word_then_iff]
  constructor
  · rintro ⟨t, us, _, _, hs, rfl, rfl, hk, rfl, second⟩
    exact ⟨t, us, rfl, by simpa using hk, second⟩
  · rintro ⟨t, us, rfl, hk, second⟩
    exact ⟨t, us, (), [], fs, rfl, rfl, by simp [hk], rfl, second⟩

/-- A phrase before a token of a given kind. -/
theorem then_ofKind_iff {G : Phrase α} {kind : Token.Kind} {g : α → β} {ts : List Token} {b : β} {fs : List Fault} :
    G.Then (fun a => (OfKind kind).Then fun _ => Nothing (g a)) ts b fs ↔
      ∃ us t a, ts = us ++ [t] ∧ G us a fs ∧ t.kind = kind ∧ g a = b := by
  constructor
  · rintro ⟨first, second⟩
    obtain ⟨t, us, rfl, hk, ⟨⟩⟩ := ofKind_then_iff.1 second
    exact ⟨_, t, _, rfl, by simpa using first, hk, rfl⟩
  · rintro ⟨us, t, a, rfl, first, hk, rfl⟩
    have second : ((OfKind kind).Then fun _ => Nothing (g a)) [t] (g a) [] :=
      ofKind_then_iff.2 ⟨t, [], rfl, hk, .intro⟩
    have h := Then.intro (H := fun a => (OfKind kind).Then fun _ => Nothing (g a)) first second
    rwa [List.append_nil] at h

theorem WellFormed.nothing (a : α) : (Nothing a).WellFormed where
  inhabited := ⟨[], a, [], .intro⟩
  solid := by rintro _ _ _ ⟨⟩; simp
  numbers := by rintro _ _ _ ⟨⟩; simp

theorem WellFormed.word {kinds : List Token.Kind} {reading : Token → α → List Fault → Prop}
    (hb : Token.Kind.whitespace ∉ kinds) (hw : ∃ t a fs, t.kind ∈ kinds ∧ reading t a fs)
    (hn : ∀ {t a fs}, reading t a fs → ∀ f ∈ fs, f.1.IsBadNumber) : (Word kinds reading).WellFormed where
  inhabited := by
    obtain ⟨t, a, fs, hk, h⟩ := hw
    exact ⟨[t], a, fs, .intro hk h⟩
  solid := by
    rintro _ _ _ ⟨hk, -⟩ t ht
    rw [List.mem_singleton.1 ht]
    simp only [Token.isBlank, decide_eq_false_iff_not]
    exact fun h => hb (h ▸ hk)
  numbers := by
    rintro _ _ _ ⟨-, h⟩
    exact hn h

theorem WellFormed.andThen {G : Phrase α} {H : α → Phrase β} (hG : G.WellFormed) (hH : ∀ a, (H a).WellFormed) :
    (G.Then H).WellFormed where
  inhabited := by
    obtain ⟨ts, a, fs, first⟩ := hG.inhabited
    obtain ⟨us, b, gs, second⟩ := (hH a).inhabited
    exact ⟨_, b, _, .intro first second⟩
  solid := by
    rintro _ _ _ ⟨first, second⟩ t ht
    rcases List.mem_append.1 ht with h | h
    · exact hG.solid first t h
    · exact (hH _).solid second t h
  numbers := by
    rintro _ _ _ ⟨first, second⟩ f hf
    rcases List.mem_append.1 hf with h | h
    · exact hG.numbers first f h
    · exact (hH _).numbers second f h

theorem WellFormed.either {G H : Phrase α} (hG : G.WellFormed) (hH : H.WellFormed) : (G.Either H).WellFormed where
  inhabited := by
    obtain ⟨ts, a, fs, h⟩ := hG.inhabited
    exact ⟨ts, a, fs, .left h⟩
  solid := by
    rintro _ _ _ (h | h)
    · exact hG.solid h
    · exact hH.solid h
  numbers := by
    rintro _ _ _ (h | h)
    · exact hG.numbers h
    · exact hH.numbers h

end Phrase

namespace Reader

/-! ### Recognizing a phrase -/

/-- The reader is abandoned after the tokens `ts`, on the token `off` or on the end if that is none, whatever follows.
A phrase begins with `ts`. -/
structure Sticks (r : Reader α) (G : Phrase α) (ts : List Token) (off : Option Token) (fs : List Fault)
    (p : Problem) : Prop where
  /-- The reader is abandoned there. -/
  refuses : ∀ (u : Option Token) (us : List Token), (off = none → us = []) →
    r.Refuses ⟨u, ts ++ (off.toList ++ us)⟩ fs p ⟨off, us⟩
  /-- All went well so far. -/
  begins : G.Begins ts
  /-- Only numbers have been reported before. -/
  numbers : ∀ f ∈ fs, f.1.IsBadNumber
  /-- The problem names the token. -/
  blames : p.Blames off

/-- The reader reads exactly the phrases, where all tokens are as `ok` says. -/
structure Recognizes (r : Reader α) (ok : Token → Prop) (G : Phrase α) : Prop where
  /-- There are phrases. -/
  wellFormed : G.WellFormed
  /-- Every phrase is read. -/
  reads : ∀ {ts a fs}, G ts a fs → r.Reads ts a fs
  /-- Some tokens begin with a phrase, or the reader is abandoned in them. -/
  decides : ∀ us : List Token, (∀ t ∈ us, ok t) → (∃ ts rest a fs, us = ts ++ rest ∧ G ts a fs) ∨
    ∃ ts off rest fs p, us = ts ++ (off.toList ++ rest) ∧ (off = none → rest = []) ∧ r.Sticks G ts off fs p

variable {r : Reader α} {f : α → Reader β} {ok : Token → Prop} {G : Phrase α} {H : α → Phrase β}

theorem Recognizes.of_iff {G' : Phrase α} (h : r.Recognizes ok G) (hG : ∀ ts a fs, G ts a fs ↔ G' ts a fs) :
    r.Recognizes ok G' := by
  have : G = G' := by
    funext ts a fs
    exact propext (hG ts a fs)
  exact this ▸ h

theorem recognizes_pure (a : α) : (pure a : Reader α).Recognizes ok (.Nothing a) where
  wellFormed := .nothing a
  reads := by
    rintro _ _ _ ⟨⟩ u us
    exact takes_pure a _
  decides := fun us _ => .inl ⟨[], us, a, [], rfl, .intro⟩

/-- Copying a token is no reading. -/
theorem recognizes_copy_pure (a : α) : (copy >>= fun _ => pure a : Reader α).Recognizes ok (.Nothing a) where
  wellFormed := .nothing a
  reads := by
    rintro _ _ _ ⟨⟩ u us
    exact (takes_copy _).bind (takes_pure a _)
  decides := fun us _ => .inl ⟨[], us, a, [], rfl, .intro⟩

/-- **Readers in sequence recognize phrases in sequence.** -/
theorem Recognizes.bind (hr : r.Recognizes ok G) (hf : ∀ a, (f a).Recognizes ok (H a)) :
    (r >>= f).Recognizes ok (G.Then H) where
  wellFormed := hr.wellFormed.andThen fun a => (hf a).wellFormed
  reads := by
    rintro _ _ _ ⟨first, second⟩
    exact (hr.reads first).bind ((hf _).reads second)
  decides := by
    intro us hus
    rcases hr.decides us hus with ⟨ts, rest, a, fs, rfl, first⟩ | ⟨ts, off, rest, fs, p, rfl, hend, sticks⟩
    · have hrest : ∀ t ∈ rest, ok t := fun t ht => hus t (List.mem_append_right ts ht)
      rcases (hf a).decides rest hrest with
        ⟨ts', rest', b, gs, rfl, second⟩ | ⟨ts', off, rest', gs, p, rfl, hend, sticks⟩
      · exact .inl ⟨ts ++ ts', rest', b, fs ++ gs, by simp, .intro first second⟩
      · refine .inr ⟨ts ++ ts', off, rest', fs ++ gs, p, by simp, hend, ?_, ?_, ?_, sticks.blames⟩
        · intro u us he
          rw [List.append_assoc]
          exact (hr.reads first u _).bind_refuses (sticks.refuses _ us he)
        · obtain ⟨us, b, hs, second⟩ := sticks.begins
          exact ⟨us, b, fs ++ hs, by rw [List.append_assoc]; exact .intro first second⟩
        · intro g hg
          rcases List.mem_append.1 hg with h | h
          · exact hr.wellFormed.numbers first g h
          · exact sticks.numbers g h
    · refine .inr ⟨ts, off, rest, fs, p, rfl, hend, ?_, ?_, sticks.numbers, sticks.blames⟩
      · intro u us he
        exact (sticks.refuses u us he).bind
      · obtain ⟨us, a, gs, first⟩ := sticks.begins
        obtain ⟨xs, b, hs, second⟩ := (hf a).wellFormed.inhabited
        exact ⟨us ++ xs, b, gs ++ hs, by rw [← List.append_assoc]; exact .intro first second⟩

theorem sticks_demandOneOf {kinds : List Token.Kind} {expected : String} {off : Option Token}
    (h : ∀ t ∈ off, t.kind ∉ kinds) (hG : ∃ ts a fs, G ts a fs) (f : Unit → Reader α) :
    (demandOneOf kinds expected >>= f).Sticks G [] off [] (mismatch expected off) where
  refuses := fun u _ he => (refuses_demandOneOf h u he).bind
  begins := hG
  numbers := by simp
  blames := mismatch_blames expected off

/-- **A token that is demanded and then looked at is recognized as a word.** -/
theorem recognizes_word {kinds : List Token.Kind} {expected : String} {reading : Token → α → List Fault → Prop}
    {look : Reader α} (hG : (Phrase.Word kinds reading).WellFormed)
    (htakes : ∀ {t a fs}, t.kind ∈ kinds → reading t a fs → ∀ us, look.Takes ⟨some t, us⟩ a fs ⟨some t, us⟩)
    (hdecides : ∀ t, t.kind ∈ kinds → ok t → (∃ a fs, reading t a fs) ∨
      ∃ p : Problem, p.Blames (some t) ∧ ∀ us, look.Refuses ⟨some t, us⟩ [] p ⟨some t, us⟩) :
    (demandOneOf kinds expected >>= fun _ => look).Recognizes ok (.Word kinds reading) where
  wellFormed := hG
  reads := by
    rintro _ _ _ ⟨hk, h⟩ u us
    exact (takes_demandOneOf hk u us).bind (htakes hk h us)
  decides := by
    intro us hus
    cases us with
    | nil => exact .inr ⟨[], none, [], [], _, rfl, fun _ => rfl, sticks_demandOneOf (by simp) hG.inhabited _⟩
    | cons t us =>
      by_cases hk : t.kind ∈ kinds
      · rcases hdecides t hk (hus t List.mem_cons_self) with ⟨a, fs, h⟩ | ⟨p, blames, refuses⟩
        · exact .inl ⟨[t], us, a, fs, rfl, .intro hk h⟩
        · refine .inr ⟨[], some t, us, [], p, rfl, by simp, ?_, hG.inhabited, by simp, blames⟩
          intro u us _
          exact (takes_demandOneOf hk u us).bind_refuses (refuses us)
      · exact .inr ⟨[], some t, us, [], _, rfl, by simp, sticks_demandOneOf (by simpa using hk) hG.inhabited _⟩

/-- A token that is demanded is recognized by its kind alone. -/
theorem recognizes_demand {kind : Token.Kind} {expected : String} (hb : kind ≠ .whitespace) :
    (demand kind expected).Recognizes ok (.OfKind kind) := by
  have hG : (Phrase.OfKind kind).WellFormed :=
    .word (by simpa using hb.symm) ⟨⟨kind, "", 0⟩, (), [], by simp, rfl⟩ (by rintro _ _ _ rfl; simp)
  have h : (demand kind expected >>= fun _ => pure ()).Recognizes ok (.OfKind kind) := by
    refine recognizes_word hG ?_ fun t _ _ => .inl ⟨(), [], rfl⟩
    rintro t _ _ _ rfl us
    exact takes_pure () _
  rwa [bind_pure_value] at h

/-- What follows the token on which a reader is abandoned has no say in which token comes first. -/
theorem head?_eq_of_sticks {ts : List Token} {off : Option Token} {us rest : List Token} (he : off = none → us = [])
    (hend : off = none → rest = []) :
    (ts ++ (off.toList ++ us)).head? = (ts ++ (off.toList ++ rest)).head? := by
  cases ts with
  | cons t ts => rfl
  | nil =>
    cases off with
    | some t => rfl
    | none => simp [he rfl, hend rfl]

theorem ahead_bind_apply {kind : Token.Kind} {q : Reader α} (c : Cursor) :
    (here >>= fun c => if c.nextKind = some kind then q else r) c =
      if c.view.upcoming.head?.map Token.kind = some kind then q c else r c := by
  rw [here_bind_apply, Cursor.nextKind_eq]
  split <;> rfl

/-- **A reader that looks at the kind of the next token recognizes one of two phrases.** -/
theorem Recognizes.orAhead {kind : Token.Kind} {q : Reader α} {G' : Phrase α} (hr : r.Recognizes ok G)
    (hq : q.Recognizes ok G') (hG : ∀ {ts a fs}, G ts a fs → ∃ t us, ts = t :: us ∧ t.kind ≠ kind)
    (hG' : ∀ {ts a fs}, G' ts a fs → ∃ t us, ts = t :: us ∧ t.kind = kind) :
    (here >>= fun c => if c.nextKind = some kind then q else r).Recognizes ok (G.Either G') where
  wellFormed := hr.wellFormed.either hq.wellFormed
  reads := by
    rintro _ _ _ (h | h) u us c hc
    · obtain ⟨t, ts, rfl, hk⟩ := hG h
      rw [ahead_bind_apply, hc, if_neg (by simpa using hk)]
      exact hr.reads h u us c hc
    · obtain ⟨t, ts, rfl, hk⟩ := hG' h
      rw [ahead_bind_apply, hc, if_pos (by simpa using hk)]
      exact hq.reads h u us c hc
  decides := by
    intro us hus
    by_cases hk : us.head?.map Token.kind = some kind
    · rcases hq.decides us hus with ⟨ts, rest, a, fs, rfl, h⟩ | ⟨ts, off, rest, fs, p, rfl, hend, sticks⟩
      · exact .inl ⟨ts, rest, a, fs, rfl, .right h⟩
      · refine .inr ⟨ts, off, rest, fs, p, rfl, hend, ?_, ?_, sticks.numbers, sticks.blames⟩
        · intro u us he c hc
          rw [ahead_bind_apply, hc, if_pos (by rw [head?_eq_of_sticks he hend, hk])]
          exact sticks.refuses u us he c hc
        · obtain ⟨us, a, gs, h⟩ := sticks.begins
          exact ⟨us, a, gs, .right h⟩
    · rcases hr.decides us hus with ⟨ts, rest, a, fs, rfl, h⟩ | ⟨ts, off, rest, fs, p, rfl, hend, sticks⟩
      · exact .inl ⟨ts, rest, a, fs, rfl, .left h⟩
      · refine .inr ⟨ts, off, rest, fs, p, rfl, hend, ?_, ?_, sticks.numbers, sticks.blames⟩
        · intro u us he c hc
          rw [ahead_bind_apply, hc, if_neg (by rw [head?_eq_of_sticks he hend]; exact hk)]
          exact sticks.refuses u us he c hc
        · obtain ⟨us, a, gs, h⟩ := sticks.begins
          exact ⟨us, a, gs, .left h⟩

/-! ### Where reading ends -/

/-- The token that a cursor moves to splits the tokens in between from those that follow. -/
theorem split_of_view {c : Cursor} {n : Nat} {t : Token} {ts us : List Token}
    (h : c.view.upcoming = ts ++ t :: us) (hn : (c.skip n).view = ⟨some t, us⟩) :
    ∃ raw rest, c.ahead.drop 1 = raw ++ t :: rest ∧ significant raw = ts ∧ (c.skip n).ahead = t :: rest := by
  obtain ⟨rest, ahead⟩ : ∃ rest, (c.skip n).ahead = t :: rest := List.head?_eq_some_iff.1 (congrArg View.under hn)
  have tail : significant rest = us := by
    have := congrArg View.upcoming hn
    rwa [Cursor.view, ahead, List.drop_one, List.tail_cons] at this
  have solid : t.isBlank = false := Cursor.isBlank_of_mem_upcoming (c := c) (by rw [h]; simp)
  have drop : c.ahead.drop n = t :: rest := ahead
  cases n with
  | zero =>
    -- the cursor has moved, for the token is still to come
    have same : significant rest = ts ++ t :: us := by
      rw [← h, Cursor.view, show c.ahead = t :: rest from drop, List.drop_one, List.tail_cons]
    have := congrArg List.length (tail.symm.trans same)
    simp only [List.length_append, List.length_cons] at this
    omega
  | succ m =>
    rw [Nat.add_comm, ← List.drop_drop] at drop
    have parts : c.ahead.drop 1 = (c.ahead.drop 1).take m ++ t :: rest := by
      rw [← drop, List.take_append_drop]
    refine ⟨_, rest, parts, ?_, ahead⟩
    have all : significant ((c.ahead.drop 1).take m) ++ t :: us = ts ++ t :: us := by
      rw [← h, Cursor.view, ← tail]
      conv => rhs; rw [parts, significant_append]
      simp [significant, solid]
    exact List.append_cancel_right all

/-- From the cursor on, the reader has read a phrase that ends with `stop`, and stands on it. -/
structure Accepted (G : Phrase α) (c : Cursor) (o : Outcome α) (a : α) (raw : List Token) (stop : Token)
    (rest : List Token) : Prop where
  /-- Where the phrase ends. -/
  split : c.ahead.drop 1 = raw ++ stop :: rest
  /-- The phrase is the tokens up to there, and its problems are all that is reported. -/
  phrase : G (significant (raw ++ [stop])) a o.faults
  /-- Only numbers are reported. -/
  numbers : ∀ f ∈ o.faults, f.1.IsBadNumber
  /-- The cursor stands on the last token. -/
  resting : (c.skip o.steps).ahead = stop :: rest

/-- From the cursor on, the reader has been abandoned between the tokens `raw` and `rest`. -/
structure Rejected (G : Phrase α) (c : Cursor) (o : Outcome α) (raw rest : List Token) (fs : List Fault)
    (p : Problem) : Prop where
  /-- Where the reader has been abandoned. -/
  split : c.ahead.drop 1 = raw ++ rest
  /-- A phrase begins with what has been read. -/
  begins : G.Begins (significant raw)
  /-- The next token is no blank, and no phrase goes on with it. -/
  stuck : ∀ t ∈ rest.head?, t.isBlank = false ∧ ¬ G.Begins (significant raw ++ [t])
  /-- One problem is reported in the place of that token, after those with numbers. -/
  faults : o.faults = fs ++ [(p, (rest.head?.map Token.line).getD c.lastLine)]
  /-- Only numbers are reported before. -/
  numbers : ∀ f ∈ fs, f.1.IsBadNumber
  /-- The problem names the token. -/
  blames : p.Blames rest.head?
  /-- The cursor rests on the next semicolon, or beyond the end. -/
  resting : (c.skip o.steps).ahead = rest.dropWhile (·.kind ≠ .semicolon)

/-- No phrase goes on with the token on which the reader is abandoned. -/
theorem Recognizes.not_begins (h : r.Recognizes ok G) {ts : List Token} {t : Token} {fs : List Fault} {p : Problem}
    (hs : r.Sticks G ts (some t) fs p) : ¬ G.Begins (ts ++ [t]) := by
  rintro ⟨us, a, gs, phrase⟩
  let c : Cursor := ⟨0, Token.newline 0 :: (ts ++ [t] ++ us), 0⟩
  have view : c.view = ⟨some (Token.newline 0), ts ++ [t] ++ us⟩ := by
    simp only [c, Cursor.view, List.head?_cons, List.drop_one, List.tail_cons,
      significant_eq_self (h.wellFormed.solid phrase)]
  have value := (h.reads phrase (some (Token.newline 0)) [] c (by rw [view, List.append_nil])).1
  obtain ⟨n, -, none, -⟩ := hs.refuses (some (Token.newline 0)) us (by simp) c (by rw [view]; simp)
  rw [value] at none
  simp at none

section Outcome

variable {c : Cursor} {a : α}

/-- A cursor on tokens that are all right sees tokens that are all right. -/
theorem ok_of_mem_upcoming (hc : ∀ t ∈ c.ahead, ok t) : ∀ t ∈ c.view.upcoming, ok t := by
  intro t ht
  exact hc t (List.mem_of_mem_drop (List.mem_filter.1 ht).1)

/-- **The value that is read is the value of the phrase.** -/
theorem Recognizes.value_eq_some_iff (h : r.Recognizes ok G) (hc : ∀ t ∈ c.ahead, ok t) :
    (r c).value = some a ↔ ∃ ts rest fs, significant (c.ahead.drop 1) = ts ++ rest ∧ G ts a fs := by
  constructor
  · intro value
    rcases h.decides _ (ok_of_mem_upcoming hc) with
      ⟨ts, rest, a', fs, split, phrase⟩ | ⟨ts, off, rest, fs, p, split, hend, sticks⟩
    · have value' := (h.reads phrase c.view.under rest c (by rw [← split])).1
      obtain rfl := Option.some.inj (value.symm.trans value')
      exact ⟨ts, rest, fs, split, phrase⟩
    · obtain ⟨n, -, none, -⟩ := sticks.refuses c.view.under rest hend c (by rw [← split])
      rw [none] at value
      simp at value
  · rintro ⟨ts, rest, fs, split, phrase⟩
    exact (h.reads phrase c.view.under rest c (by rw [← split]; rfl)).1

/-- **A reader reads the phrases and nothing else.** -/
theorem Recognizes.reads_iff (h : r.Recognizes (fun _ => True) G) {ts : List Token} {fs : List Fault}
    (solid : ∀ t ∈ ts, t.isBlank = false) : r.Reads ts a fs ↔ G ts a fs := by
  refine ⟨fun reads => ?_, h.reads⟩
  let c : Cursor := ⟨0, Token.newline 0 :: ts, 0⟩
  have upcoming : significant (c.ahead.drop 1) = ts := significant_eq_self solid
  obtain ⟨value, faults, sight⟩ := reads c.view.under [] c (by rw [List.append_nil, ← upcoming]; rfl)
  obtain ⟨ts', rest, fs', split, phrase⟩ := (h.value_eq_some_iff fun _ _ => trivial).1 value
  obtain ⟨-, faults', sight'⟩ := h.reads phrase c.view.under rest c (by rw [← split]; rfl)
  obtain rfl : [] = rest := congrArg View.upcoming (sight.symm.trans sight')
  obtain rfl : ts' = ts := by rw [← upcoming, split, List.append_nil]
  rwa [← faults, faults']

/-- **A reader stops on the last token of a phrase.** -/
theorem Recognizes.accepted (h : r.Recognizes ok G) {ts us : List Token} {stop : Token} {fs : List Fault}
    (hp : G (ts ++ [stop]) a fs) (hu : significant (c.ahead.drop 1) = ts ++ stop :: us) :
    ∃ raw rest, Accepted G c (r c) a raw stop rest := by
  have view : c.view = ⟨c.view.under, ts ++ [stop] ++ us⟩ := by
    rw [List.append_assoc, List.singleton_append, ← hu]
    rfl
  obtain ⟨-, faults, sight⟩ := h.reads hp c.view.under us c view
  rw [List.getLast?_concat, Option.some_or] at sight
  obtain ⟨raw, rest, split, same, ahead⟩ := split_of_view hu sight
  have solid : stop.isBlank = false := h.wellFormed.solid hp stop (by simp)
  refine ⟨raw, rest, split, ?_, ?_, ahead⟩
  · rw [significant_append, same, faults]
    simpa [significant, solid] using hp
  · rw [faults]
    exact h.wellFormed.numbers hp

/-- **A reader is abandoned on the first token with which no phrase goes on.** -/
theorem Recognizes.rejected (h : r.Recognizes ok G) (hc : ∀ t ∈ c.ahead, ok t) (hn : (r c).value = none) :
    ∃ raw rest fs p, Rejected G c (r c) raw rest fs p := by
  rcases h.decides _ (ok_of_mem_upcoming hc) with
    ⟨ts, rest, a, fs, split, phrase⟩ | ⟨ts, off, us, fs, p, split, hend, sticks⟩
  · have value := (h.reads phrase c.view.under rest c (by rw [← split])).1
    rw [hn] at value
    simp at value
  · obtain ⟨n, sight, -, faults, steps⟩ := sticks.refuses c.view.under us hend c (by rw [← split])
    have resting : (c.skip (r c).steps).ahead = (c.skip n).ahead.dropWhile (·.kind ≠ .semicolon) := by
      rw [steps, ← Cursor.skip_skip]
      exact drop_length_takeWhile _ _
    cases off with
    | none =>
      have ahead : (c.skip n).ahead = [] := List.head?_eq_none_iff.1 (congrArg View.under sight)
      have same : significant (c.ahead.drop 1) = ts := by
        rw [hend rfl] at split
        exact split.trans (by simp)
      refine ⟨c.ahead.drop 1, [], fs, p, ?_, ?_, ?_, ?_, sticks.numbers, sticks.blames, ?_⟩
      · simp
      · rw [same]
        exact sticks.begins
      · simp
      · rw [faults, Cursor.line, ahead]
        rfl
      · rw [resting, ahead]
    | some t =>
      obtain ⟨raw, rest, split', same, ahead⟩ := split_of_view split sight
      have solid : t.isBlank = false := Cursor.isBlank_of_mem_upcoming (c := c) (by rw [split]; simp)
      refine ⟨raw, t :: rest, fs, p, split', ?_, ?_, ?_, sticks.numbers, sticks.blames, ?_⟩
      · rw [same]
        exact sticks.begins
      · intro t' ht
        obtain rfl := Option.some.inj ht
        rw [same]
        exact ⟨solid, h.not_begins sticks⟩
      · rw [faults, Cursor.line, ahead]
        rfl
      · rw [resting, ahead]

end Outcome

end Reader

end ShaderWeave
