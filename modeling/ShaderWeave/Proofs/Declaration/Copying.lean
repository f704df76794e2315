import ShaderWeave.Proofs.Declaration.Reading
import ShaderWeave.Proofs.Reader.Writing

/-!
# Declarations as they are copied

Where a declaration, the fields of a struct type or its whole definition are read without a problem, all there is to
know about the outcome is told by the tokens that are passed: what is given, how far the cursor moves and what is put
out. There are two theorems for each: what is no problem has the right tokens (`exists_declaration`, `exists_fields`,
`exists_definition`), and the right tokens are read as they are, whatever follows them (`declaration_apply`,
`structFields_apply`, `structBody_apply`).

A declaration loses its initializer on the way: of its tokens the blanks, the first two words and the semicolon are
copied (`written_declaration`). All other tokens of a definition are copied.
-/

namespace ShaderWeave

variable {α β : Type}

namespace Reader

/-! ### Words that are copied -/

/-- Reads a token of the kind, looks at it and copies it. -/
def copied (kind : Token.Kind) (expected : String) (look : Reader α) : Reader α := do
  demand kind expected
  let a ← look
  copy
  return a

/-- Where the reader reports nothing, it does nothing but look. -/
def Looks (r : Reader α) : Prop :=
  ∀ c : Cursor, c.ahead ≠ [] → (r c).faults = [] → ∃ a, r c = ⟨some a, 0, []⟩

theorem looks_pure (a : α) : (pure a : Reader α).Looks :=
  fun _ _ _ => ⟨a, rfl⟩

theorem looks_current_text : (current >>= fun t => pure t.text : Reader String).Looks := by
  intro c hc _
  obtain ⟨t, ts, ahead⟩ := List.exists_cons_of_ne_nil hc
  exact ⟨t.text, by rw [bind_apply_of_still (current_apply ahead), pure_apply]⟩

theorem looks_variableType (types : Structs) : (variableType types).Looks := by
  intro c hc faults
  obtain ⟨t, ts, ahead⟩ := List.exists_cons_of_ne_nil hc
  rw [variableType, bind_apply_of_still (current_apply ahead)] at faults ⊢
  cases h : variableType? types t.text with
  | some type => exact ⟨type, rfl⟩
  | none =>
    rw [h] at faults
    exact absurd (faults_of_faults_bind faults) (faults_report_ne_nil _ _)

section Copied

variable {kind : Token.Kind} {expected : String} {look : Reader α} {c : Cursor} {blanks rest : List Token} {t : Token}
  {a : α}

theorem copied_apply (h : c.Meets blanks t rest) (hk : t.kind = kind)
    (hl : look (c.skip (blanks.length + 1)) = ⟨some a, 0, []⟩) :
    copied kind expected look c = ⟨some a, blanks.length + 1, (blanks ++ [t]).map .copy⟩ := by
  have demanded : demand kind expected c = ⟨some (), blanks.length + 1, blanks.map .copy⟩ :=
    demandOneOf_apply h (by simp [hk])
  have ahead := ahead_skip_of_drop_one h.split
  have copying : (copy >>= fun _ => pure a : Reader α) (c.skip (blanks.length + 1)) = ⟨some a, 0, [.copy t]⟩ := by
    rw [bind_apply_of_eq (copy_apply ahead) (pure_apply a _)]
    rfl
  exact (bind_apply_of_eq demanded ((bind_apply_of_still hl).trans copying)).trans (by simp)

/-- A copied word and what follows it, which sees the tokens from the word on. -/
theorem copied_bind_apply {f : α → Reader β} {b : β} {n : Nat} {out : List Output} (h : c.Meets blanks t rest)
    (hk : t.kind = kind) (hl : look (c.skip (blanks.length + 1)) = ⟨some a, 0, []⟩)
    (hf : ∀ c' : Cursor, c'.ahead = t :: rest → f a c' = ⟨some b, n, out⟩) :
    (copied kind expected look >>= f) c =
      ⟨some b, blanks.length + 1 + n, (blanks ++ [t]).map .copy ++ out⟩ :=
  bind_apply_of_eq (copied_apply h hk hl) (hf _ (ahead_skip_of_drop_one h.split))

/-- Where a copied word is no problem, it comes after blanks and is copied with them. -/
theorem exists_copied (hl : look.Looks) (h : (copied kind expected look c).faults = []) :
    ∃ blanks t rest a, c.Meets blanks t rest ∧ t.kind = kind ∧ look (c.skip (blanks.length + 1)) = ⟨some a, 0, []⟩ ∧
      copied kind expected look c = ⟨some a, blanks.length + 1, (blanks ++ [t]).map .copy⟩ := by
  obtain ⟨blanks, t, rest, meets, hk⟩ := exists_meets_of_demandOneOf (faults_of_faults_bind h)
  have outcome : demand kind expected c = ⟨some (), blanks.length + 1, blanks.map .copy⟩ :=
    demandOneOf_apply meets hk
  have looked : (look (c.skip (blanks.length + 1))).faults = [] := by
    rw [copied, faults_bind_of_some (a := ()) (by rw [outcome]), outcome] at h
    exact faults_of_faults_bind (List.append_eq_nil_iff.1 h).2
  have ahead := ahead_skip_of_drop_one meets.split
  obtain ⟨a, ha⟩ := hl _ (by rw [ahead]; simp) looked
  have hk : t.kind = kind := by simpa using hk
  exact ⟨blanks, t, rest, a, meets, hk, ha, copied_apply meets hk ha⟩

/-- A copied word writes what it passes. -/
theorem written_copied (hl : look.Looks) (h : (copied kind expected look c).faults = []) :
    (copied kind expected look c).written = (copied kind expected look c).passed c ∧
      ∃ blanks t, (copied kind expected look c).passed c = blanks ++ [t] ∧ (∀ b ∈ blanks, b.isBlank = true) ∧
        t.isBlank = false := by
  obtain ⟨blanks, t, rest, a, meets, -, -, outcome⟩ := exists_copied hl h
  have passed : (copied kind expected look c).passed c = blanks ++ [t] := by
    have length : (blanks ++ [t]).length = blanks.length + 1 := by simp
    rw [Outcome.passed, outcome, meets.split, List.append_cons blanks t rest]
    exact List.take_left' length
  refine ⟨?_, blanks, t, passed, meets.blanks, meets.solid⟩
  rw [passed, outcome]
  exact writtenTokens_copy _

end Copied

/-- Where a sequence is no problem, neither part of it is. -/
theorem Smooth.clean_bind {r : Reader α} {f : α → Reader β} {c : Cursor} (hr : Smooth α r) (hc : c.ahead ≠ [])
    (h : ((r >>= f) c).faults = []) : ∃ a, (r c).value = some a ∧ (r c).faults = [] ∧
      (c.skip (r c).steps).ahead ≠ [] ∧ (f a (c.skip (r c).steps)).faults = [] := by
  cases hv : (r c).value with
  | none =>
    rw [faults_bind_of_none hv] at h
    obtain ⟨⟨a, ha⟩, -⟩ := hr c hc h
    rw [hv] at ha
    simp at ha
  | some a =>
    rw [faults_bind_of_some hv] at h
    obtain ⟨first, second⟩ := List.append_eq_nil_iff.1 h
    exact ⟨a, rfl, first, (hr c hc first).2.1, second⟩

/-! ### Declarations -/

theorem smooth_copied {kind : Token.Kind} {expected : String} {look : Reader α} (h : Smooth α look) :
    Smooth α (copied kind expected look) :=
  (smooth_demandOneOf _ _).bind fun _ => h.bind fun a => writingLaw_smooth.copy.bind fun _ => smooth_pure a

theorem smooth_current_text : Smooth String (current >>= fun t => pure t.text) :=
  writingLaw_smooth.toLaw.map writingLaw_smooth.toLaw.current Token.text

theorem declaration_eq_copied (types : Structs) :
    declaration types = copied .keyword "a type" (variableType types) >>= fun type =>
      copied .keyword "a variable name" (current >>= fun t => pure t.text) >>= fun name =>
      variableOf name type >>= fun v => copied .semicolon "a semicolon" (pure v) := by
  simp only [declaration, copied, bind_assoc, pure_value_bind]

/-- **A declaration writes its blanks, its first two words and its semicolon.** -/
theorem written_declaration {types : Structs} {c : Cursor} (hc : c.ahead ≠ [])
    (hf : (declaration types c).faults = []) :
    ∃ raw stop, (declaration types c).passed c = raw ++ [stop] ∧
      (declaration types c).written = keep 2 raw ++ [stop] := by
  rw [declaration_eq_copied] at hf ⊢
  have law := writingLaw_smooth.toLaw
  obtain ⟨type, hv₁, hf₁, hc₁, hf⟩ := (smooth_copied (law.variableType types)).clean_bind hc hf
  obtain ⟨name, hv₂, hf₂, hc₂, hf⟩ := (smooth_copied smooth_current_text).clean_bind hc₁ hf
  obtain ⟨v, hv₃, -, -, hf₄⟩ := (law.variableOf name type).clean_bind hc₂ hf
  obtain ⟨w₁, b₁, t₁, p₁, blank₁, solid₁⟩ := written_copied (looks_variableType types) hf₁
  obtain ⟨w₂, b₂, t₂, p₂, blank₂, solid₂⟩ := written_copied looks_current_text hf₂
  obtain ⟨w₄, b₄, stop, p₄, blank₄, solid₄⟩ := written_copied (looks_pure v) hf₄
  have single {bs : List Token} {t : Token} (hb : ∀ b ∈ bs, b.isBlank = true) (ht : t.isBlank = false) :
      (significant (bs ++ [t])).length = 1 := by
    rw [significant_append, significant_of_isBlank hb]
    simp [significant, ht]
  rw [written_bind_of_some hv₁, passed_bind_of_some hv₁, written_bind_of_some hv₂, passed_bind_of_some hv₂,
    written_bind_of_some hv₃, passed_bind_of_some hv₃, law_silent.variableOf name type _ v hv₃, w₁, w₂, w₄, p₁, p₂,
    p₄]
  generalize (variableOf name type _).passed _ = middle
  refine ⟨(b₁ ++ [t₁]) ++ ((b₂ ++ [t₂]) ++ (middle ++ b₄)), stop, by simp, ?_⟩
  rw [keep_append (single blank₁ solid₁) 1, keep_append (single blank₂ solid₂) 0, keep_zero, List.filter_append,
    List.filter_eq_self.2 blank₄]
  simp

/-- **A declaration of the grammar is read to its semicolon, wherever it stands.** -/
theorem declaration_apply {types : Structs} {c : Cursor} {raw rest : List Token} {stop : Token} {v : Variable}
    (split : c.ahead.drop 1 = raw ++ stop :: rest) (hs : stop.isBlank = false)
    (phrase : Phrase.Declaration types (significant (raw ++ [stop])) v []) :
    declaration types c = ⟨some v, raw.length + 1, (keep 2 raw ++ [stop]).map .copy⟩ := by
  have last : significant (raw ++ [stop]) = significant raw ++ [stop] := by
    simp [significant, hs]
  have upcoming : c.view.upcoming = significant raw ++ stop :: significant rest := by
    rw [Cursor.view, split]
    simp [significant, hs]
  rw [last] at phrase
  have view : c.view = ⟨c.view.under, (significant raw ++ [stop]) ++ significant rest⟩ := by
    rw [List.append_assoc, List.singleton_append, ← upcoming]
  obtain ⟨value, faults, sight⟩ := (recognizes_declaration types).reads phrase c.view.under (significant rest) c view
  rw [List.getLast?_concat, Option.some_or] at sight
  obtain ⟨raw', rest', split', same, ahead⟩ := split_of_view upcoming sight
  obtain ⟨rfl, -, rfl⟩ := eq_of_significant_eq (split'.symm.trans split) hs hs same
  have hc : c.ahead ≠ [] := by
    intro h
    rw [h] at split
    simp at split
  have steps : (declaration types c).steps = raw'.length + 1 := by
    have ahead' := ahead_skip_of_drop_one split
    have lengths := congrArg List.length ahead
    have lengths' := congrArg List.length ahead'
    simp only [Cursor.ahead_skip, List.length_drop, List.length_cons] at lengths lengths'
    omega
  have smooth := writingLaw_smooth.declaration types
  obtain ⟨xs, x, passed, written⟩ := written_declaration hc faults
  have same : xs = raw' ∧ x = stop := by
    have length : (raw' ++ [stop]).length = raw'.length + 1 := by simp
    rw [Outcome.passed, steps, split, List.append_cons, List.take_left' length] at passed
    obtain ⟨h, h'⟩ := List.append_inj' passed rfl
    exact ⟨h.symm, (List.cons.inj h').1.symm⟩
  obtain ⟨rfl, rfl⟩ := same
  have output := smooth.output_eq hc faults
  rw [written] at output
  generalize declaration types c = o at value steps output
  obtain ⟨_, _, _⟩ := o
  simp only at value steps output
  rw [value, steps, output]

/-- A declaration that is no problem is one of the grammar. -/
theorem exists_declaration {types : Structs} {c : Cursor} (ht : ∀ t ∈ c.ahead, t.Truthful) (hc : c.ahead ≠ [])
    (hf : (declaration types c).faults = []) :
    ∃ raw stop rest v, c.ahead.drop 1 = raw ++ stop :: rest ∧ stop.kind = .semicolon ∧
      Phrase.Declaration types (significant (raw ++ [stop])) v [] := by
  have recognized := recognizes_declaration types
  obtain ⟨⟨v, value⟩, -⟩ := writingLaw_smooth.declaration types c hc hf
  obtain ⟨ts, us, fs, split, phrase⟩ := (recognized.value_eq_some_iff ht).1 value
  obtain ⟨ts, stop, rfl, hs⟩ := ends_with_semicolon phrase
  obtain ⟨raw, rest, accepted⟩ := recognized.accepted phrase (by simpa using split)
  exact ⟨raw, stop, rest, v, accepted.split, hs, hf ▸ accepted.phrase⟩

/-! ### Fields -/

/-- Declarations one after another: their tokens, what they declare, and what is written for them. -/
inductive Fields (types : Structs) : List Token → List Variable → List Token → Prop
  /-- There is none. -/
  | nil : Fields types [] [] []
  /-- One is followed by others. -/
  | cons {raw more kept : List Token} {stop : Token} {v : Variable} {vs : List Variable} (hs : stop.kind = .semicolon)
    (h : Phrase.Declaration types (significant (raw ++ [stop])) v []) (rest : Fields types more vs kept) :
    Fields types (raw ++ stop :: more) (v :: vs) (keep 2 raw ++ stop :: kept)

theorem isBlank_of_kind {t : Token} {kind : Token.Kind} (h : t.kind = kind) (hk : kind ≠ .whitespace) :
    t.isBlank = false := by
  simpa [Token.isBlank, h] using hk

/-- A declaration begins with a word. -/
theorem head?_of_declaration {types : Structs} {ts : List Token} {v : Variable} {fs : List Fault}
    (h : Phrase.Declaration types ts v fs) : ts.head?.map Token.kind = some .keyword := by
  cases h with
  | intro hw => simp [hw]

theorem nextKind_of_split {c : Cursor} {raw rest : List Token} {stop : Token}
    (split : c.ahead.drop 1 = raw ++ stop :: rest) (hs : stop.isBlank = false) :
    c.nextKind = (significant (raw ++ [stop])).head?.map Token.kind := by
  rw [Cursor.nextKind_eq, Cursor.view, split, List.append_cons, significant_append]
  simp [significant, hs]

/-- Reading goes on after the tokens that have been passed. -/
theorem drop_one_skip {c : Cursor} {raw rest : List Token} (split : c.ahead.drop 1 = raw ++ rest) :
    (c.skip raw.length).ahead.drop 1 = rest := by
  rw [Cursor.ahead_skip, List.drop_drop, Nat.add_comm, ← List.drop_drop, split, List.drop_left]

theorem structFields_apply {types : Structs} {raw kept : List Token} {vs : List Variable}
    (h : Fields types raw vs kept) {blanks rest : List Token} {closing : Token}
    (hb : ∀ b ∈ blanks, b.isBlank = true) (hk : closing.kind = .closeCurly) :
    ∀ c : Cursor, c.ahead.drop 1 = raw ++ (blanks ++ closing :: rest) →
      structFields types c = ⟨some vs, raw.length, kept.map .copy⟩ := by
  induction h with
  | nil =>
    intro c split
    have solid := isBlank_of_kind hk (by simp)
    have next : c.nextKind = some .closeCurly := by
      rw [nextKind_of_split split solid, significant_append, significant_of_isBlank hb]
      simp [significant, solid, hk]
    rw [structFields, collectUntil_of_stop (.inr next)]
    rfl
  | @cons raw more kept stop v vs hs h _ ih =>
    intro c split
    rw [List.append_assoc, List.cons_append] at split
    have solid := isBlank_of_kind hs (by simp)
    have next : c.nextKind = some .keyword := by rw [nextKind_of_split split solid, head?_of_declaration h]
    have one := declaration_apply split solid h
    have split' : c.ahead.drop 1 = (raw ++ [stop]) ++ (more ++ (blanks ++ closing :: rest)) := by simpa using split
    have more := ih (c.skip (raw.length + 1)) (by simpa using drop_one_skip split')
    rw [structFields] at more
    rw [structFields, collectUntil_of_more (by simp [next])]
    simp only [one, more]
    simp [Nat.add_assoc, Nat.add_comm 1]

/-- Fields that are no problem are declarations of the grammar. -/
theorem exists_fields {types : Structs} (c : Cursor) (ht : ∀ t ∈ c.ahead, t.Truthful) (hc : c.ahead ≠ [])
    (hf : (structFields types c).faults = []) :
    ∃ raw rest vs kept, c.ahead.drop 1 = raw ++ rest ∧ Fields types raw vs kept ∧
      structFields types c = ⟨some vs, raw.length, kept.map .copy⟩ := by
  rw [structFields] at hf ⊢
  induction c using collectUntil.induct .closeCurly (declaration types) (steps_declaration_pos types) with
  | case1 c h =>
    rw [collectUntil_of_stop h]
    exact ⟨[], _, [], [], rfl, .nil, rfl⟩
  | case2 c h o ih =>
    rw [collectUntil_of_more h] at hf ⊢
    obtain ⟨first, rest⟩ := List.append_eq_nil_iff.1 (List.filterMap_append.symm.trans hf)
    obtain ⟨raw, stop, left, v, split, hs, phrase⟩ := exists_declaration ht hc first
    have one : declaration types c = _ := declaration_apply split (isBlank_of_kind hs (by simp)) phrase
    have ahead := ahead_skip_of_drop_one split
    rw [show o = _ from one] at ih
    rw [one] at rest
    obtain ⟨more, left', vs, kept, split', fields, outcome⟩ := ih
      (fun t h => ht t (List.mem_of_mem_drop h)) (by rw [ahead]; simp) rest
    rw [ahead, List.drop_one, List.tail_cons] at split'
    refine ⟨raw ++ stop :: more, left', v :: vs, keep 2 raw ++ stop :: kept, ?_, .cons hs phrase fields, ?_⟩
    · rw [split, split']
      simp
    · simp only [one, outcome]
      simp [Nat.add_assoc, Nat.add_comm 1]

/-! ### Struct types -/

/-- The definition of a struct type after its first word: its tokens, what it defines, the token it ends with, and what
is written for it. -/
inductive Definition (types : Structs) : List Token → String → List Variable → Token → List Token → Prop
  /-- There are a name and, in curly braces, the fields. -/
  | intro {b₁ b₂ b₃ b₄ raw kept : List Token} {name opening closing stop : Token} {vs : List Variable}
    (h₁ : ∀ b ∈ b₁, b.isBlank = true) (hn : name.kind = .keyword) (h₂ : ∀ b ∈ b₂, b.isBlank = true)
    (ho : opening.kind = .openCurly) (fields : Fields types raw vs kept) (h₃ : ∀ b ∈ b₃, b.isBlank = true)
    (hc : closing.kind = .closeCurly) (h₄ : ∀ b ∈ b₄, b.isBlank = true) (hs : stop.kind = .semicolon) :
    Definition types (b₁ ++ name :: (b₂ ++ opening :: (raw ++ (b₃ ++ closing :: (b₄ ++ [stop]))))) name.text vs stop
      (b₁ ++ name :: (b₂ ++ opening :: (kept ++ (b₃ ++ closing :: (b₄ ++ [stop])))))

/-- Reads the end of the definition of a struct type. -/
def structEnd : Reader Unit := do
  copied .closeCurly "a closing curly brace" (pure ())
  copied .semicolon "a semicolon" (pure ())

/-- Reads what follows the name of a struct type. -/
def bracedFields (types : Structs) : Reader (List Variable) := do
  copied .openCurly "an opening curly brace" (pure ())
  let fields ← structFields types
  structEnd
  return fields

theorem structBody_eq_copied (types : Structs) :
    structBody types = copy >>= fun _ =>
      copied .keyword "a struct name" (current >>= fun t => pure t.text) >>= fun name =>
      bracedFields types >>= fun fields => pure (name, fields) := by
  simp only [structBody, bracedFields, structEnd, copied, bind_assoc, pure_value_bind]

section Struct

variable {types : Structs} {c : Cursor} {b₂ b₃ b₄ raw kept rest : List Token} {opening closing stop : Token}
  {vs : List Variable}

theorem structEnd_apply (h₃ : ∀ b ∈ b₃, b.isBlank = true) (hc : closing.kind = .closeCurly)
    (h₄ : ∀ b ∈ b₄, b.isBlank = true) (hs : stop.kind = .semicolon)
    (split : c.ahead.drop 1 = b₃ ++ closing :: (b₄ ++ stop :: rest)) :
    structEnd c = ⟨some (), b₃.length + 1 + (b₄.length + 1),
      (b₃ ++ [closing]).map .copy ++ (b₄ ++ [stop]).map .copy⟩ :=
  copied_bind_apply ⟨split, h₃, isBlank_of_kind hc (by simp)⟩ hc rfl fun _ ahead =>
    copied_apply ⟨by rw [ahead]; rfl, h₄, isBlank_of_kind hs (by simp)⟩ hs rfl

theorem bracedFields_apply (h₂ : ∀ b ∈ b₂, b.isBlank = true) (ho : opening.kind = .openCurly)
    (fields : Fields types raw vs kept) (h₃ : ∀ b ∈ b₃, b.isBlank = true) (hc : closing.kind = .closeCurly)
    (h₄ : ∀ b ∈ b₄, b.isBlank = true) (hs : stop.kind = .semicolon)
    (split : c.ahead.drop 1 = b₂ ++ opening :: (raw ++ (b₃ ++ closing :: (b₄ ++ stop :: rest)))) :
    bracedFields types c = ⟨some vs, b₂.length + 1 + (raw.length + (b₃.length + 1 + (b₄.length + 1))),
      (b₂ ++ [opening]).map .copy ++
        (kept.map .copy ++ ((b₃ ++ [closing]).map .copy ++ (b₄ ++ [stop]).map .copy))⟩ := by
  have ended (c : Cursor) (split : c.ahead.drop 1 = b₃ ++ closing :: (b₄ ++ stop :: rest)) :
      (structEnd >>= fun _ => pure vs) c = ⟨some vs, b₃.length + 1 + (b₄.length + 1),
        (b₃ ++ [closing]).map .copy ++ (b₄ ++ [stop]).map .copy⟩ :=
    map_apply_of_eq (structEnd_apply h₃ hc h₄ hs split) fun _ => vs
  refine copied_bind_apply ⟨split, h₂, isBlank_of_kind ho (by simp)⟩ ho rfl fun c ahead => ?_
  have split : c.ahead.drop 1 = raw ++ (b₃ ++ closing :: (b₄ ++ stop :: rest)) := by
    rw [ahead]
    rfl
  exact bind_apply_of_eq (structFields_apply fields h₃ hc c split) (ended _ (drop_one_skip split))

/-- **The definition of a struct type is read to its semicolon, wherever it stands.** -/
theorem structBody_apply {name : String} (h : Definition types raw name vs stop kept) {t : Token}
    (ahead : c.ahead = t :: (raw ++ rest)) :
    structBody types c = ⟨some (name, vs), raw.length, (t :: kept).map .copy⟩ := by
  obtain @⟨b₁, b₂, b₃, b₄, raw, kept, name, opening, closing, stop, vs, h₁, hn, h₂, ho, fields, h₃, hc, h₄, hs⟩ := h
  have meets : c.Meets b₁ name (b₂ ++ opening :: (raw ++ (b₃ ++ closing :: (b₄ ++ stop :: rest)))) :=
    ⟨by rw [ahead]; simp, h₁, isBlank_of_kind hn (by simp)⟩
  have named : (current >>= fun t => pure t.text : Reader String) (c.skip (b₁.length + 1)) =
      ⟨some name.text, 0, []⟩ := by
    rw [bind_apply_of_still (current_apply (ahead_skip_of_drop_one meets.split)), pure_apply]
  have braced : (c.skip (b₁.length + 1)).ahead.drop 1 =
      b₂ ++ opening :: (raw ++ (b₃ ++ closing :: (b₄ ++ stop :: rest))) := by
    rw [ahead_skip_of_drop_one meets.split]
    rfl
  have fields := map_apply_of_eq (bracedFields_apply h₂ ho fields h₃ hc h₄ hs braced) fun vs => (name.text, vs)
  rw [structBody_eq_copied, bind_apply_of_eq (copy_apply ahead) (bind_apply_of_eq (copied_apply meets hn named) fields)]
  simp
  omega

theorem smooth_structEnd : Smooth Unit structEnd :=
  (smooth_copied (smooth_pure ())).bind fun _ => smooth_copied (smooth_pure ())

theorem smooth_bracedFields (types : Structs) : Smooth (List Variable) (bracedFields types) :=
  (smooth_copied (smooth_pure ())).bind fun _ =>
    (smooth_collectUntil _ _ (writingLaw_smooth.declaration types)).bind fun vs =>
    smooth_structEnd.bind fun _ => smooth_pure vs

theorem exists_structEnd (hc : c.ahead ≠ []) (hf : (structEnd c).faults = []) :
    ∃ b₃ closing b₄ stop rest, c.ahead.drop 1 = b₃ ++ closing :: (b₄ ++ stop :: rest) ∧
      (∀ b ∈ b₃, b.isBlank = true) ∧ closing.kind = .closeCurly ∧ (∀ b ∈ b₄, b.isBlank = true) ∧
      stop.kind = .semicolon := by
  obtain ⟨_, -, first, -, second⟩ := (smooth_copied (smooth_pure ())).clean_bind hc hf
  obtain ⟨b₃, closing, rest, _, meets, hk, -, outcome⟩ := exists_copied (looks_pure ()) first
  rw [outcome] at second
  obtain ⟨b₄, stop, rest, _, meets', hk', -, -⟩ := exists_copied (looks_pure ()) second
  have split := meets'.split
  rw [ahead_skip_of_drop_one meets.split, List.drop_one, List.tail_cons] at split
  exact ⟨b₃, closing, b₄, stop, rest, by rw [meets.split, split], meets.blanks, hk, meets'.blanks, hk'⟩

theorem exists_bracedFields (ht : ∀ t ∈ c.ahead, t.Truthful) (hc : c.ahead ≠ [])
    (hf : (bracedFields types c).faults = []) :
    ∃ b₂ opening raw vs kept b₃ closing b₄ stop rest,
      c.ahead.drop 1 = b₂ ++ opening :: (raw ++ (b₃ ++ closing :: (b₄ ++ stop :: rest))) ∧
      (∀ b ∈ b₂, b.isBlank = true) ∧ opening.kind = .openCurly ∧ Fields types raw vs kept ∧
      (∀ b ∈ b₃, b.isBlank = true) ∧ closing.kind = .closeCurly ∧ (∀ b ∈ b₄, b.isBlank = true) ∧
      stop.kind = .semicolon := by
  have fields : Smooth (List Variable) (structFields types) :=
    smooth_collectUntil _ _ (writingLaw_smooth.declaration types)
  obtain ⟨_, -, first, hc₁, second⟩ := (smooth_copied (smooth_pure ())).clean_bind hc hf
  obtain ⟨b₂, opening, rest, _, meets, ho, -, outcome⟩ := exists_copied (looks_pure ()) first
  have ahead := ahead_skip_of_drop_one meets.split
  rw [outcome] at second hc₁
  obtain ⟨_, -, first, hc₂, second⟩ := fields.clean_bind hc₁ second
  obtain ⟨raw, left, vs, kept, split, fields, outcome⟩ :=
    exists_fields _ (fun t h => ht t (List.mem_of_mem_drop h)) hc₁ first
  rw [outcome] at second hc₂
  obtain ⟨_, -, first, -, -⟩ := Smooth.clean_bind smooth_structEnd hc₂ second
  obtain ⟨b₃, closing, b₄, stop, rest', split', h₃, hk, h₄, hs⟩ := exists_structEnd hc₂ first
  rw [drop_one_skip split] at split'
  rw [ahead, List.drop_one, List.tail_cons] at split
  exact ⟨b₂, opening, raw, vs, kept, b₃, closing, b₄, stop, rest', by rw [meets.split, split, split'], meets.blanks,
    ho, fields, h₃, hk, h₄, hs⟩

/-- The definition of a struct type that is no problem is one that is written as it must be. -/
theorem exists_definition {t : Token} {left : List Token} (ahead : c.ahead = t :: left)
    (ht : ∀ t ∈ c.ahead, t.Truthful) (hf : (structBody types c).faults = []) :
    ∃ raw rest name vs stop kept, left = raw ++ rest ∧ Definition types raw name vs stop kept := by
  have hc : c.ahead ≠ [] := by simp [ahead]
  rw [structBody_eq_copied] at hf
  obtain ⟨_, -, -, -, hf⟩ := writingLaw_smooth.copy.clean_bind hc hf
  rw [copy_apply ahead, Cursor.skip_zero] at hf
  obtain ⟨_, -, first, hc₁, hf⟩ := (smooth_copied smooth_current_text).clean_bind hc hf
  obtain ⟨b₁, name, _, _, meets, hn, -, outcome⟩ := exists_copied looks_current_text first
  have named := ahead_skip_of_drop_one meets.split
  rw [outcome] at hf hc₁
  obtain ⟨_, -, second, -, -⟩ := (smooth_bracedFields types).clean_bind hc₁ hf
  obtain ⟨b₂, opening, raw, vs, kept, b₃, closing, b₄, stop, rest, split, h₂, ho, fields, h₃, hk, h₄, hs⟩ :=
    exists_bracedFields (fun t h => ht t (List.mem_of_mem_drop h)) hc₁ second
  rw [named, List.drop_one, List.tail_cons] at split
  refine ⟨_, rest, _, _, _, _, ?_, .intro meets.blanks hn h₂ ho fields h₃ hk h₄ hs⟩
  have whole := meets.split
  rw [ahead, List.drop_one, List.tail_cons, split] at whole
  rw [whole]
  simp

end Struct

end Reader

end ShaderWeave
