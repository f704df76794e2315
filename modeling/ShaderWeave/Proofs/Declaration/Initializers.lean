import ShaderWeave.Proofs.Declaration.Structs
import ShaderWeave.Proofs.Reader.Excerpts

/-!
# Tokens that are left out

A file that is put out without a problem loses its directives for templates and vertex shaders, the paths of the latter,
and the initializers of its uniforms and fields. `LeftOut` says this of a token, given the tokens before it that are no
blanks. An initializer goes from an equals sign to the next semicolon, and it is told by what stands before the equals
sign: the word `uniform` with a type and a name, or the word `struct` with a brace that is still open (`Heading`).

What stands before a construct has no part in what is left out of it, since no initializer goes on from one construct to
the next (`Settled`). So it is a matter of the constructs, and `remaining` is what is written of each of them.
-/

namespace ShaderWeave

/-! ### Initializers -/

/-- Tokens that may stand before the equals sign of an initializer. -/
inductive Heading : List Token → Prop
  /-- The word `uniform`, a type and a name. -/
  | uniform {word type name : Token} (hr : word.role = .uniform) (ht : type.kind = .keyword)
    (hn : name.kind = .keyword) : Heading [word, type, name]
  /-- The word `struct`, a name, and a brace that is not closed. -/
  | field {word name opening : Token} {members : List Token} (hr : word.role = .structDefinition)
    (hn : name.kind = .keyword) (ho : opening.kind = .openCurly) (hm : ∀ t ∈ members, t.kind ≠ .closeCurly) :
    Heading (word :: name :: opening :: members)

/-- A heading, an equals sign, and tokens up to the semicolon. -/
inductive Initializing : List Token → Prop
  /-- The initializer has started. -/
  | intro {heading values : List Token} {equals : Token} (hh : Heading heading) (he : equals.kind = .equals)
    (hv : ∀ t ∈ values, t.kind ≠ .semicolon ∧ t.kind ≠ .closeCurly) : Initializing (heading ++ equals :: values)

/-- The tokens end within an initializer. -/
def InInitializer (ts : List Token) : Prop :=
  ∃ before since, ts = before ++ since ∧ Initializing since

/-- The token is left out after the given tokens, of which none is a blank. -/
inductive LeftOut (before : List Token) (t : Token) : Prop
  /-- It marks a template file. -/
  | mark (h : t.role = .templateMark)
  /-- It links a vertex shader. -/
  | link (h : t.role = .vertexLink)
  /-- It is the path of a vertex shader that is linked. -/
  | path {directive : Token} (hd : before.getLast? = some directive) (hr : directive.role = .vertexLink)
    (h : t.kind = .string)
  /-- It belongs to an initializer. -/
  | initializer (hb : t.isBlank = false) (h : InInitializer (before ++ [t]))

/-- The kind of the words that start a construct. -/
def Role.kind? : Role → Option Token.Kind
  | .inclusion | .templateMark | .vertexLink => some .directive
  | .structDefinition | .uniform => some .keyword
  | .plain => none

theorem Token.kind_of_role {t : Token} {role : Role} {kind : Token.Kind} (h : t.role = role)
    (hk : role.kind? = some kind) : t.kind = kind := by
  subst h
  rw [Token.role] at hk
  split at hk
  · next directive => split_ifs at hk <;> simp_all [Role.kind?]
  · split at hk
    · next keyword => split_ifs at hk <;> simp_all [Role.kind?]
    · simp [Role.kind?] at hk

section

variable {ts us : List Token}

theorem Initializing.exists_equals (h : Initializing ts) : ∃ t ∈ ts, t.kind = .equals := by
  obtain ⟨-, he, -⟩ := h
  exact ⟨_, by simp, he⟩

/-- An initializer starts from the word `uniform`, with no semicolon since then, or from the word `struct`, with no
closing brace since then. -/
theorem Initializing.start (h : Initializing ts) :
    (∃ word rest, ts = word :: rest ∧ word.role = .uniform ∧ ∀ t ∈ ts, t.kind ≠ .semicolon) ∨
    ∃ word name opening rest, ts = word :: name :: opening :: rest ∧ word.role = .structDefinition ∧
      name.kind = .keyword ∧ opening.kind = .openCurly ∧ ∀ t ∈ ts, t.kind ≠ .closeCurly := by
  obtain ⟨hh, he, hv⟩ := h
  cases hh with
  | @uniform word type name hr ht hn =>
    have hw := Token.kind_of_role hr rfl
    refine .inl ⟨word, _, rfl, hr, ?_⟩
    simpa [hw, ht, hn, he] using fun t ht => (hv t ht).1
  | @field word name opening members hr hn ho hm =>
    have hw := Token.kind_of_role hr rfl
    refine .inr ⟨word, name, opening, _, rfl, hr, hn, ho, ?_⟩
    simp only [List.cons_append, List.forall_mem_cons, List.forall_mem_append]
    exact ⟨by simp [hw], by simp [hn], by simp [ho], hm, by simp [he], fun t ht => (hv t ht).2⟩

theorem InInitializer.exists_equals (h : InInitializer ts) : ∃ t ∈ ts, t.kind = .equals := by
  obtain ⟨before, since, rfl, h⟩ := h
  obtain ⟨t, ht, he⟩ := h.exists_equals
  exact ⟨t, List.mem_append_right _ ht, he⟩

/-! ### Tokens in which no initializer starts -/

/-- No heading begins in the tokens and goes on behind them. -/
def Settled (ts : List Token) : Prop :=
  ∀ before since rest, ts = before ++ since → since ≠ [] → ¬ Initializing (since ++ rest)

theorem settled_nil : Settled [] := by
  intro before since rest split h
  exact absurd (List.append_eq_nil_iff.1 split.symm).2 h

theorem Settled.append (h : Settled ts) (h' : Settled us) : Settled (ts ++ us) := by
  intro before since rest split hs
  rcases List.append_eq_append_iff.1 split with ⟨as, rfl, rfl⟩ | ⟨as, rfl, rfl⟩
  · exact h' as since rest rfl hs
  · rw [List.append_assoc]
    cases as with
    | nil => exact h' [] us rest rfl hs
    | cons a as => exact h before (a :: as) (us ++ rest) rfl (List.cons_ne_nil _ _)

/-- Tokens in which no heading begins do not matter for what comes after them. -/
theorem Settled.inInitializer_append (h : Settled ts) : InInitializer (ts ++ us) ↔ InInitializer us := by
  constructor
  · rintro ⟨before, since, split, initializing⟩
    rcases List.append_eq_append_iff.1 split with ⟨as, rfl, rfl⟩ | ⟨as, rfl, rfl⟩
    · exact ⟨as, since, rfl, initializing⟩
    · cases as with
      | nil => exact ⟨[], us, rfl, initializing⟩
      | cons a as => exact absurd initializing (h before (a :: as) us rfl (List.cons_ne_nil _ _))
  · rintro ⟨before, since, rfl, initializing⟩
    exact ⟨ts ++ before, since, (List.append_assoc _ _ _).symm, initializing⟩

theorem Settled.not_inInitializer (h : Settled ts) : ¬ InInitializer ts := by
  intro inside
  rw [← List.append_nil ts, h.inInitializer_append] at inside
  obtain ⟨t, ht, -⟩ := inside.exists_equals
  exact List.not_mem_nil ht

/-- A token that starts no declaration begins no heading. -/
theorem settled_singleton {t : Token} (hu : t.role ≠ .uniform) (hs : t.role ≠ .structDefinition) : Settled [t] := by
  intro before since rest split ne initializing
  have mem : ∀ u ∈ since, u = t := fun u hu => List.mem_singleton.1 (split ▸ List.mem_append_right before hu)
  obtain ⟨u, us, rfl⟩ := List.exists_cons_of_ne_nil ne
  obtain rfl := mem u List.mem_cons_self
  rcases initializing.start with ⟨word, _, same, role, -⟩ | ⟨word, _, _, _, same, role, -⟩
  · exact hu ((List.cons.inj same).1 ▸ role)
  · exact hs ((List.cons.inj same).1 ▸ role)

/-- What comes last ends with the last token. -/
theorem exists_concat_of_append {before since : List Token} {stop : Token} (split : ts ++ [stop] = before ++ since)
    (h : since ≠ []) : ∃ us, since = us ++ [stop] ∧ ts = before ++ us := by
  obtain ⟨us, last, rfl⟩ := List.eq_nil_or_concat since |>.resolve_left h
  rw [List.concat_eq_append, ← List.append_assoc] at split
  obtain ⟨rfl, same⟩ := List.append_inj' split rfl
  exact ⟨us, by rw [(List.cons.inj same).1, List.concat_eq_append], rfl⟩

/-- No heading begins before a semicolon and goes on behind it, if there is no brace. -/
theorem settled_concat {stop : Token} (ho : ∀ t ∈ ts, t.kind ≠ .openCurly) (hs : stop.kind = .semicolon) :
    Settled (ts ++ [stop]) := by
  intro before since rest split ne initializing
  obtain ⟨us, rfl, rfl⟩ := exists_concat_of_append split ne
  rcases initializing.start with ⟨_, _, -, -, free⟩ | ⟨word, name, opening, left, same, role, hn, brace, -⟩
  · exact free stop (by simp) hs
  · -- the brace would stand behind the semicolon
    have hw := Token.kind_of_role role rfl
    match us, same with
    | [], same => simp_all
    | [_], same => simp_all
    | [_, _], same => simp_all
    | _ :: _ :: b :: _, same => simp_all

/-- Nor does one go on behind a closing brace. -/
theorem settled_closed {closing stop : Token} (hc : closing.kind = .closeCurly) (hs : stop.kind = .semicolon) :
    Settled (ts ++ [closing] ++ [stop]) := by
  intro before since rest split ne initializing
  obtain ⟨us, rfl, whole⟩ := exists_concat_of_append split ne
  rcases initializing.start with ⟨_, _, -, -, free⟩ | ⟨word, _, _, _, same, role, -, -, free⟩
  · exact free stop (by simp) hs
  · cases us with
    | nil =>
      have hw := Token.kind_of_role role rfl
      simp_all
    | cons u us =>
      obtain ⟨vs, closes, -⟩ := exists_concat_of_append whole (List.cons_ne_nil u us)
      exact free closing (by simp [closes]) hc

end

/-! ### Where constructs end -/

/-- Tokens between two constructs: no heading goes on behind them, and no path comes next. -/
structure Closed (before : List Token) : Prop where
  /-- No heading goes on. -/
  settled : Settled before
  /-- The last token links no vertex shader. -/
  unlinked : ∀ t ∈ before.getLast?, t.role ≠ .vertexLink

theorem closed_nil : Closed [] :=
  ⟨settled_nil, by simp⟩

theorem Closed.append {before ts : List Token} (h : Closed before) (h' : Closed ts) : Closed (before ++ ts) := by
  refine ⟨h.settled.append h'.settled, fun t ht => ?_⟩
  rw [List.getLast?_append] at ht
  cases last : ts.getLast? with
  | none =>
    rw [last] at ht
    exact h.unlinked t ht
  | some u =>
    rw [last] at ht
    exact h'.unlinked t (last ▸ ht)

theorem Settled.closed {ts us : List Token} {stop : Token} (h : Settled ts) (split : ts = us ++ [stop])
    (hs : stop.kind = .semicolon) : Closed ts := by
  refine ⟨h, fun t ht role => ?_⟩
  rw [split, List.getLast?_concat] at ht
  obtain rfl : stop = t := Option.some.inj ht
  simpa [hs] using stop.kind_of_role role rfl

/-- No initializer goes on behind the tokens without an equals sign. -/
def Idle (before : List Token) : Prop :=
  ∀ us, (∀ t ∈ us, t.kind ≠ .equals) → ¬ InInitializer (before ++ us)

theorem Settled.idle_append {before ts : List Token} (h : Settled before) (hk : ∀ t ∈ ts, t.kind ≠ .equals) :
    Idle (before ++ ts) := by
  intro us hu inside
  rw [List.append_assoc, h.inInitializer_append] at inside
  obtain ⟨t, ht, he⟩ := inside.exists_equals
  exact (List.mem_append.1 ht).elim (hk t · he) (hu t · he)

theorem Settled.idle {before : List Token} (h : Settled before) : Idle before := by
  rw [← List.append_nil before]
  exact h.idle_append (by simp)

/-- An initializer goes on to the next semicolon at most. -/
theorem idle_concat (before : List Token) {stop : Token} (hs : stop.kind = .semicolon) : Idle (before ++ [stop]) := by
  rintro us hu ⟨xs, since, split, initializing⟩
  obtain @⟨heading, values, equals, -, he, hv⟩ := initializing
  rw [List.append_assoc, List.singleton_append, ← List.append_assoc] at split
  rcases List.append_eq_append_iff.1 split with ⟨as, -, after⟩ | ⟨as, -, after⟩
  · -- the equals sign would come after the semicolon
    have mem : equals ∈ stop :: us := after ▸ List.mem_append_right as List.mem_cons_self
    rcases List.mem_cons.1 mem with rfl | mem
    · simp [hs] at he
    · exact hu equals mem he
  · cases as with
    | nil =>
      obtain ⟨rfl, -⟩ := List.cons.inj after
      simp [hs] at he
    | cons a as =>
      obtain ⟨-, rfl⟩ := List.cons.inj after
      exact (hv stop (by simp)).1 hs

/-! ### What remains -/

open Classical in
/-- What remains of tokens that stand behind others when those that are left out are taken away. -/
noncomputable def remaining (before : List Token) : List Token → List Token
  | [] => []
  | t :: ts =>
    if LeftOut before t then remaining (before ++ significant [t]) ts
    else t :: remaining (before ++ significant [t]) ts

section Remaining

variable {before ts : List Token}

theorem significant_cons (t : Token) (ts : List Token) : significant (t :: ts) = significant [t] ++ significant ts :=
  significant_append [t] ts

theorem remaining_append (before ts us : List Token) :
    remaining before (ts ++ us) = remaining before ts ++ remaining (before ++ significant ts) us := by
  induction ts generalizing before with
  | nil => simp [remaining, significant]
  | cons t ts ih =>
    rw [List.cons_append, remaining, remaining, significant_cons t ts, ih, List.append_assoc]
    split <;> rfl

theorem LeftOut.solid {t : Token} (h : LeftOut before t) : t.isBlank = false := by
  cases h with
  | mark h => exact Reader.isBlank_of_kind (t.kind_of_role h rfl) (by simp)
  | link h => exact Reader.isBlank_of_kind (t.kind_of_role h rfl) (by simp)
  | path _ _ h => exact Reader.isBlank_of_kind h (by simp)
  | initializer hb _ => exact hb

theorem not_leftOut_of_isBlank {t : Token} (h : t.isBlank = true) : ¬ LeftOut before t := by
  intro out
  rw [out.solid] at h
  simp at h

theorem not_leftOut_of_semicolon {t : Token} (h : t.kind = .semicolon) : ¬ LeftOut before t := by
  intro out
  cases out with
  | mark role => simpa [h] using t.kind_of_role role rfl
  | link role => simpa [h] using t.kind_of_role role rfl
  | path _ _ string => simp [h] at string
  | initializer _ inside => exact idle_concat before h [] (by simp) (by simpa using inside)

theorem remaining_semicolon {t : Token} (h : t.kind = .semicolon) : remaining before [t] = [t] := by
  rw [remaining, if_neg (not_leftOut_of_semicolon h)]
  rfl

/-- Where no token is left out, all remain. -/
theorem remaining_eq_self (h : ∀ us t vs, ts = us ++ t :: vs → ¬ LeftOut (before ++ significant us) t) :
    remaining before ts = ts := by
  induction ts generalizing before with
  | nil => rfl
  | cons t ts ih =>
    have first := h [] t ts rfl
    rw [significant, List.filter_nil, List.append_nil] at first
    rw [remaining, if_neg first, ih fun us u vs split => ?_]
    have later := h (t :: us) u vs (by rw [split]; rfl)
    rwa [significant_cons, ← List.append_assoc] at later

/-- Where all tokens are left out that are no blanks, the blanks remain. -/
theorem remaining_eq_blanks
    (h : ∀ us t vs, ts = us ++ t :: vs → t.isBlank = false → LeftOut (before ++ significant us) t) :
    remaining before ts = ts.filter Token.isBlank := by
  induction ts generalizing before with
  | nil => rfl
  | cons t ts ih =>
    have first := h [] t ts rfl
    have later : remaining (before ++ significant [t]) ts = ts.filter Token.isBlank := by
      refine ih fun us u vs split solid => ?_
      have out := h (t :: us) u vs (by rw [split]; rfl) solid
      rwa [significant_cons, ← List.append_assoc] at out
    rw [significant, List.filter_nil, List.append_nil] at first
    rw [remaining, later, List.filter_cons]
    cases hb : t.isBlank with
    | true => simp [not_leftOut_of_isBlank hb]
    | false => simp [first hb]

/-- Where no initializer goes on, tokens remain that are neither directives nor strings nor equals signs. -/
theorem remaining_of_idle (h : Idle before)
    (hk : ∀ t ∈ ts, t.kind ≠ .equals ∧ t.kind ≠ .directive ∧ t.kind ≠ .string) : remaining before ts = ts := by
  refine remaining_eq_self ?_
  rintro us t vs rfl out
  obtain ⟨-, directive, string⟩ := hk t (by simp)
  cases out with
  | mark h => exact directive (t.kind_of_role h rfl)
  | link h => exact directive (t.kind_of_role h rfl)
  | path _ _ h => exact string h
  | initializer _ inside =>
    rw [List.append_assoc] at inside
    refine h _ (fun u hu => ?_) inside
    rcases List.mem_append.1 hu with hu | hu
    · exact (hk u (List.mem_append_left _ ((List.mem_filter.1 hu).1))).1
    · exact (hk u (by simp [List.mem_singleton.1 hu])).1

/-! ### Declarations -/

/-- The tokens of a declaration are words, values and a semicolon. -/
theorem Phrase.Declaration.kind_ne {types : Structs} {v : Variable} {fs : List Fault} {kind : Token.Kind}
    (h : Phrase.Declaration types ts v fs) (hk : kind ∉ .keyword :: .semicolon :: Phrase.valueKinds) :
    ∀ t ∈ ts, t.kind ≠ kind := by
  simp only [List.mem_cons, not_or] at hk
  obtain ⟨word, semicolon, values⟩ := hk
  obtain ⟨type, name, vs, stop, rfl, ht, hn, hv, -, hs⟩ := h.exists_parts
  simp only [List.forall_mem_cons, List.forall_mem_append]
  exact ⟨ht ▸ Ne.symm word, hn ▸ Ne.symm word, hv.kind_ne values, hs ▸ Ne.symm semicolon, by simp⟩

/-- A declaration may come next: a type and a name make a heading. -/
def Ready (before : List Token) : Prop :=
  ∀ type name : Token, type.kind = .keyword → name.kind = .keyword →
    ∃ xs heading, before ++ [type, name] = xs ++ heading ∧ Heading heading

theorem ready_concat (before : List Token) {word : Token} (hr : word.role = .uniform) : Ready (before ++ [word]) :=
  fun type name ht hn => ⟨before, [word, type, name], by simp, .uniform hr ht hn⟩

/-- **Of a declaration remain the blanks, the type, the name and the semicolon.** -/
theorem remaining_declaration {types : Structs} {raw : List Token} {stop : Token} {v : Variable} {fs : List Fault}
    (ready : Ready before) (idle : Idle before) (hs : stop.kind = .semicolon)
    (h : Phrase.Declaration types (significant (raw ++ [stop])) v fs) :
    remaining before (raw ++ [stop]) = keep 2 raw ++ [stop] := by
  have solid := Reader.isBlank_of_kind hs (by simp)
  obtain ⟨type, name, values, stop', split, ht, hn, hv, he, -⟩ := h.exists_parts
  have split : significant raw = [type, name] ++ values := by
    have last : significant [stop] = [stop] := significant_eq_self (by simpa using solid)
    rw [significant_append, last, ← List.cons_append, ← List.cons_append] at split
    exact (List.append_inj' split rfl).1
  obtain ⟨front, back, rfl, words, initializer⟩ := List.filter_eq_append_iff.1 split
  have words : significant front = [type, name] := words
  have initializer : significant back = values := initializer
  have kept : keep 2 (front ++ back) = front ++ back.filter Token.isBlank := by
    rw [← keep_zero]
    exact keep_append (by rw [words]; rfl) 0 back
  have first : remaining before front = front := by
    refine remaining_of_idle idle fun t mem => ?_
    cases hb : t.isBlank with
    | true =>
      have kind : t.kind = .whitespace := of_decide_eq_true hb
      simp [kind]
    | false =>
      have mem : t ∈ [type, name] := words ▸ List.mem_filter.2 ⟨mem, by simp [hb]⟩
      have kind : t.kind = .keyword := by
        rcases List.mem_cons.1 mem with rfl | mem
        · exact ht
        · exact List.mem_singleton.1 mem ▸ hn
      simp [kind]
  have second : remaining (before ++ [type, name]) back = back.filter Token.isBlank := by
    refine remaining_eq_blanks fun us t vs split' hb => .initializer hb ?_
    obtain ⟨equals, more, parts⟩ := List.exists_cons_of_ne_nil (List.concat_ne_nil t (significant us))
    have whole : values = equals :: more ++ significant vs := by
      rw [← initializer, split', significant_append, significant_cons, ← parts]
      simp [significant, hb]
    have equal : equals.kind = .equals := he equals (by simp [whole])
    have inside : ∀ u ∈ more, u.kind ≠ .semicolon ∧ u.kind ≠ .closeCurly := fun u hu =>
      have mem : u ∈ values := by simp [whole, hu]
      ⟨hv.kind_ne (by simp [Phrase.valueKinds]) u mem, hv.kind_ne (by simp [Phrase.valueKinds]) u mem⟩
    obtain ⟨xs, heading, head, hh⟩ := ready type name ht hn
    exact ⟨xs, heading ++ equals :: more, by rw [head, List.append_assoc, List.append_assoc, parts],
      .intro hh equal inside⟩
  rw [remaining_append, remaining_append, first, words, second, remaining_semicolon hs, kept]

/-! ### Struct types -/

/-- The tokens end within the braces of a struct type. -/
inductive InStruct : List Token → Prop
  /-- A brace has been opened and not closed. -/
  | intro (before : List Token) {word name opening : Token} {members : List Token} (hr : word.role = .structDefinition)
    (hn : name.kind = .keyword) (ho : opening.kind = .openCurly) (hm : ∀ t ∈ members, t.kind ≠ .closeCurly) :
    InStruct (before ++ word :: name :: opening :: members)

theorem InStruct.append (h : InStruct before) (ht : ∀ t ∈ ts, t.kind ≠ .closeCurly) : InStruct (before ++ ts) := by
  obtain ⟨xs, hr, hn, ho, hm⟩ := h
  rw [List.append_assoc]
  exact .intro xs hr hn ho (List.forall_mem_append.2 ⟨hm, ht⟩)

theorem InStruct.ready (h : InStruct before) : Ready before := by
  obtain ⟨xs, hr, hn, ho, hm⟩ := h
  intro type name ht hk
  refine ⟨xs, _, List.append_assoc _ _ _, .field hr hn ho ?_⟩
  exact List.forall_mem_append.2 ⟨hm, by simp [ht, hk]⟩

open Reader in
/-- What remains of the fields of a struct type is what is copied. -/
theorem remaining_fields {types : Structs} {raw kept : List Token} {vs : List Variable}
    (h : Fields types raw vs kept) (inside : InStruct before) (idle : Idle before) :
    remaining before raw = kept ∧ InStruct (before ++ significant raw) ∧ Idle (before ++ significant raw) := by
  induction h generalizing before with
  | nil =>
    rw [significant, List.filter_nil, List.append_nil]
    exact ⟨rfl, inside, idle⟩
  | @cons raw more kept stop v vs hs h _ ih =>
    have solid := isBlank_of_kind hs (by simp)
    have last : significant (raw ++ [stop]) = significant raw ++ [stop] := by simp [significant, solid]
    have idle' : Idle (before ++ significant (raw ++ [stop])) := by
      rw [last, ← List.append_assoc]
      exact idle_concat _ hs
    have rest := ih (inside.append (h.kind_ne (by simp [Phrase.valueKinds]))) idle'
    have whole : raw ++ stop :: more = (raw ++ [stop]) ++ more := List.append_cons _ _ _
    rw [whole, remaining_append, significant_append (raw ++ [stop]), ← List.append_assoc,
      remaining_declaration inside.ready idle hs h, rest.1, List.append_assoc]
    exact ⟨rfl, rest.2⟩

/-- The kinds of the tokens of a struct type that are no declarations. -/
def frameKinds : List Token.Kind :=
  [.whitespace, .keyword, .openCurly, .closeCurly, .semicolon]

theorem remaining_of_frame (idle : Idle before) (hk : ∀ t ∈ ts, t.kind ∈ frameKinds) : remaining before ts = ts :=
  remaining_of_idle idle fun t ht => by
    have kind := hk t ht
    refine ⟨?_, ?_, ?_⟩ <;> rintro heq <;> simp [heq, frameKinds] at kind

theorem Reader.Definition.semicolon {types : Structs} {raw kept : List Token} {name : String} {vs : List Variable}
    {stop : Token} (h : Definition types raw name vs stop kept) : stop.kind = .semicolon := by
  cases h
  assumption

open Reader in
/-- **Of a struct type remain all tokens but the initializers of its fields.** -/
theorem remaining_definition {types : Structs} {raw kept : List Token} {name : String} {vs : List Variable}
    {stop t : Token} (settled : Settled before) (hr : t.role = .structDefinition)
    (h : Definition types raw name vs stop kept) :
    remaining before (t :: raw) = t :: kept ∧ Closed (significant (t :: raw)) := by
  obtain @⟨b₁, b₂, b₃, b₄, raw, kept, name, opening, closing, stop, vs, h₁, hn, h₂, ho, fields, h₃, hc, h₄, hs⟩ := h
  have hw : t.kind = .keyword := t.kind_of_role hr rfl
  have solid {u : Token} {kind : Token.Kind} (hk : u.kind = kind) (hb : kind ≠ .whitespace) (us : List Token) :
      significant (u :: us) = u :: significant us := by
    simp [significant, isBlank_of_kind hk hb]
  have blank {bs : List Token} (hb : ∀ b ∈ bs, b.isBlank = true) : ∀ b ∈ bs, b.kind ∈ frameKinds := by
    intro b mem
    have kind : b.kind = .whitespace := of_decide_eq_true (hb b mem)
    simp [kind, frameKinds]
  let front := t :: (b₁ ++ name :: (b₂ ++ [opening]))
  let back := b₃ ++ closing :: (b₄ ++ [stop])
  have front_words : significant front = [t, name, opening] := by
    simp only [front, solid hw, solid hn, solid ho, significant_append, significant_of_isBlank h₁,
      significant_of_isBlank h₂, ne_eq, reduceCtorEq, not_false_eq_true, List.nil_append]
    rfl
  have back_words : significant back = [closing, stop] := by
    simp only [back, solid hc, solid hs, significant_append, significant_of_isBlank h₃, significant_of_isBlank h₄,
      ne_eq, reduceCtorEq, not_false_eq_true, List.nil_append]
    rfl
  have first : remaining before front = front := by
    refine remaining_of_frame settled.idle ?_
    simp only [front, List.forall_mem_cons, List.forall_mem_append]
    exact ⟨by simp [hw, frameKinds], blank h₁, by simp [hn, frameKinds], blank h₂, by simp [ho, frameKinds], by simp⟩
  have idle : Idle (before ++ [t, name, opening]) := settled.idle_append (by simp [hw, hn, ho])
  have inside : InStruct (before ++ [t, name, opening]) := .intro before hr hn ho (by simp)
  obtain ⟨middle, -, idle⟩ := remaining_fields fields inside idle
  have last : remaining (before ++ [t, name, opening] ++ significant raw) back = back := by
    refine remaining_of_frame idle ?_
    simp only [back, List.forall_mem_cons, List.forall_mem_append]
    exact ⟨blank h₃, by simp [hc, frameKinds], blank h₄, by simp [hs, frameKinds], by simp⟩
  have whole (middle : List Token) :
      t :: (b₁ ++ name :: (b₂ ++ opening :: (middle ++ (b₃ ++ closing :: (b₄ ++ [stop]))))) =
        front ++ (middle ++ back) := by simp [front, back]
  have words : significant (front ++ (raw ++ back)) = [t, name, opening] ++ significant raw ++ [closing] ++ [stop] := by
    rw [significant_append, significant_append, front_words, back_words]
    simp
  rw [whole, whole, words, remaining_append, remaining_append, front_words, first, middle, last]
  exact ⟨rfl, (settled_closed hc hs).closed rfl hs⟩

/-! ### Other constructs -/

/-- A token alone remains. -/
theorem remaining_plain (closed : Closed before) {t : Token} (hr : t.role = .plain) :
    remaining before [t] = [t] ∧ Closed (significant [t]) := by
  have settled : Settled [t] := settled_singleton (by simp [hr]) (by simp [hr])
  constructor
  · rw [remaining, if_neg ?_]
    · rfl
    · intro out
      cases out with
      | mark role => simp [hr] at role
      | link role => simp [hr] at role
      | path last role _ => exact closed.unlinked _ last role
      | initializer _ inside =>
        rw [closed.settled.inInitializer_append] at inside
        exact settled.not_inInitializer inside
  · cases hb : t.isBlank with
    | true => simpa [significant, hb] using closed_nil
    | false => simpa [significant, hb] using ⟨settled, by simp [hr]⟩

/-- The mark of a template file is left out. -/
theorem remaining_mark {t : Token} (hr : t.role = .templateMark) :
    remaining before [t] = [] ∧ Closed (significant [t]) := by
  have solid : t.isBlank = false := Reader.isBlank_of_kind (t.kind_of_role hr rfl) (by simp)
  refine ⟨by rw [remaining, if_pos (.mark hr)]; rfl, ?_⟩
  simpa [significant, solid] using ⟨settled_singleton (by simp [hr]) (by simp [hr]), by simp [hr]⟩

/-- Of a link to a vertex shader remain the blanks. -/
theorem remaining_link {t s : Token} {blanks : List Token} (hr : t.role = .vertexLink)
    (hb : ∀ b ∈ blanks, b.isBlank = true) (hs : s.kind = .string) :
    remaining before (t :: (blanks ++ [s])) = blanks ∧ Closed (significant (t :: (blanks ++ [s]))) := by
  have solid : t.isBlank = false := Reader.isBlank_of_kind (t.kind_of_role hr rfl) (by simp)
  have solid' : s.isBlank = false := Reader.isBlank_of_kind hs (by simp)
  have word : significant [t] = [t] := by simp [significant, solid]
  have none : significant blanks = [] := significant_of_isBlank hb
  have between : remaining (before ++ [t]) blanks = blanks := by
    refine remaining_eq_self fun us b vs split => not_leftOut_of_isBlank (hb b ?_)
    simp [split]
  have path : LeftOut (before ++ [t]) s := .path List.getLast?_concat hr hs
  have role : s.role = .plain := by simp [Token.role, hs]
  constructor
  · rw [remaining, if_pos (.link hr), word, remaining_append, between, none, List.append_nil, remaining, if_pos path]
    exact List.append_nil _
  · rw [significant_cons, word, significant_append, none, List.nil_append]
    have settled : Settled ([t] ++ [s]) :=
      (settled_singleton (by simp [hr]) (by simp [hr])).append (settled_singleton (by simp [role]) (by simp [role]))
    simpa [significant, solid'] using ⟨settled, by simp [role]⟩

/-- Of a uniform remains what is copied. -/
theorem remaining_uniform (settled : Settled before) {types : Structs} {t stop : Token} {raw : List Token}
    {v : Variable} (hr : t.role = .uniform) (hs : stop.kind = .semicolon)
    (h : Phrase.Declaration types (significant (raw ++ [stop])) v []) :
    remaining before (t :: (raw ++ [stop])) = t :: (keep 2 raw ++ [stop]) ∧
      Closed (significant (t :: (raw ++ [stop]))) := by
  have kind : t.kind = .keyword := t.kind_of_role hr rfl
  have solid : t.isBlank = false := Reader.isBlank_of_kind kind (by simp)
  have solid' : stop.isBlank = false := Reader.isBlank_of_kind hs (by simp)
  have idle : Idle (before ++ [t]) := settled.idle_append (by simp [kind])
  have first : remaining before [t] = [t] :=
    remaining_of_frame settled.idle (by simp [kind, frameKinds])
  have word : significant [t] = [t] := by simp [significant, solid]
  have words : significant (t :: (raw ++ [stop])) = (t :: significant raw) ++ [stop] := by
    simp [significant, solid, solid']
  constructor
  · rw [← List.singleton_append, remaining_append, first, word, remaining_declaration (ready_concat _ hr) idle hs h]
    rfl
  · rw [words]
    refine (settled_concat ?_ hs).closed rfl hs
    have braceless : ∀ t ∈ significant (raw ++ [stop]), t.kind ≠ .openCurly := h.kind_ne (by simp [Phrase.valueKinds])
    rw [significant_append] at braceless
    exact List.forall_mem_cons.2 ⟨by simp [kind], (List.forall_mem_append.1 braceless).1⟩

end Remaining

end ShaderWeave
