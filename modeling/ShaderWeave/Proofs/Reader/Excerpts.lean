import ShaderWeave.Proofs.Declaration.Copying
import ShaderWeave.Proofs.Declaration.Structs

/-!
# Excerpts

An `Excerpt` is the tokens of a construct that asks for no other file, together with what it declares and what is put
out for it. A construct that reports nothing reads an excerpt (`exists_excerpt`), and where the tokens begin with an
excerpt, it is read and put out as it says (`construct_of_excerpt`), whatever follows and whatever file it stands in.

What a construct without a problem reads is thus told by the tokens that it passes. This holds of requests for other
files as well, and with the position of the mark of a template file also of that (`construct_congr`).
-/

namespace ShaderWeave

/-- The token starts no construct that has to do with other files. -/
def Token.IsOwn (t : Token) : Prop :=
  t.role = .plain ∨ t.role = .structDefinition ∨ t.role = .uniform

instance (t : Token) : Decidable t.IsOwn :=
  inferInstanceAs (Decidable (_ ∨ _))

theorem Token.role_of_isBlank {t : Token} (h : t.isBlank = true) : t.role = .plain := by
  have hk : t.kind = .whitespace := of_decide_eq_true h
  simp [role, hk]

/-- The tokens of a construct, what it asks for, and what is put out for it. -/
inductive Excerpt (types : Structs) : List Token → Action → List Output → Prop
  /-- A token alone is copied. -/
  | plain {t : Token} (hr : t.role = .plain) : Excerpt types [t] .nothing [.copy t]
  /-- A uniform is copied without its initializer. -/
  | uniform {t stop : Token} {raw : List Token} {v : Variable} (hr : t.role = .uniform) (hs : stop.kind = .semicolon)
    (h : Phrase.Declaration types (significant (raw ++ [stop])) v []) :
    Excerpt types (t :: (raw ++ [stop])) (.declare v) ((t :: (keep 2 raw ++ [stop])).map .copy)
  /-- The definition of a struct type is copied, the initializers of its fields left out, and a newline is added. -/
  | struct {t stop : Token} {raw kept : List Token} {name : String} {fields : List Variable}
    (hr : t.role = .structDefinition) (h : Reader.Definition types raw name fields stop kept) :
    Excerpt types (t :: raw) (.define name fields) ((t :: kept).map .copy ++ [.newline stop.line])

theorem Excerpt.ne_nil {types : Structs} {raw : List Token} {action : Action}
    {out : List Output} (h : Excerpt types raw action out) : raw ≠ [] := by
  cases h <;> simp

/-! ### No directives within a construct -/

theorem Token.kind_ne_directive_of_isBlank {t : Token} (h : t.isBlank = true) : t.kind ≠ .directive := by
  simp [of_decide_eq_true h]

theorem kind_ne_directive_of_blanks {bs : List Token} (h : ∀ b ∈ bs, b.isBlank = true) :
    ∀ b ∈ bs, b.kind ≠ .directive :=
  fun b hb => Token.kind_ne_directive_of_isBlank (h b hb)

/-- Only the tokens that a reader sees can be directives. -/
theorem kind_ne_directive_of_significant {ts : List Token} (h : ∀ t ∈ significant ts, t.kind ≠ .directive) :
    ∀ t ∈ ts, t.kind ≠ .directive := by
  intro t ht
  cases hb : t.isBlank with
  | true => exact Token.kind_ne_directive_of_isBlank hb
  | false => exact h t (List.mem_filter.2 ⟨ht, by simp [hb]⟩)

section Directives

variable {types : Structs}

theorem Phrase.Declaration.kind_ne_directive {ts : List Token} {v : Variable} {fs : List Fault}
    (h : Phrase.Declaration types ts v fs) : ∀ t ∈ ts, t.kind ≠ .directive := by
  obtain ⟨type, name, values, stop, rfl, ht, hn, hv, -, hs⟩ := h.exists_parts
  have inside : ∀ t ∈ values, t.kind ≠ .directive := hv.kind_ne (by simp [valueKinds])
  simp only [List.forall_mem_cons, List.forall_mem_append]
  exact ⟨by simp [ht], by simp [hn], inside, by simp [hs]⟩

theorem Reader.Fields.kind_ne_directive {raw kept : List Token} {vs : List Variable} (h : Fields types raw vs kept) :
    ∀ t ∈ raw, t.kind ≠ .directive := by
  induction h with
  | nil => simp
  | cons _ h _ ih =>
    rw [List.append_cons]
    exact List.forall_mem_append.2 ⟨kind_ne_directive_of_significant h.kind_ne_directive, ih⟩

/-- Behind its first token, a construct that asks for no file has no directive. -/
theorem Excerpt.kind_ne_directive {t : Token} {raw : List Token} {action : Action} {out : List Output}
    (h : Excerpt types (t :: raw) action out) : ∀ u ∈ raw, u.kind ≠ .directive := by
  cases h with
  | plain => simp
  | uniform _ _ h => exact kind_ne_directive_of_significant h.kind_ne_directive
  | struct _ h =>
    obtain ⟨h₁, hn, h₂, ho, fields, h₃, hc, h₄, hs⟩ := h
    simp only [List.forall_mem_append, List.forall_mem_cons]
    exact ⟨kind_ne_directive_of_blanks h₁, by simp [hn], kind_ne_directive_of_blanks h₂, by simp [ho],
      fields.kind_ne_directive, kind_ne_directive_of_blanks h₃, by simp [hc], kind_ne_directive_of_blanks h₄,
      by simp [hs]⟩

end Directives

namespace Reader

variable {types : Structs} {c : Cursor} {t : Token} {rest : List Token} {path : Path} {standsAlone : Bool}

/-! ### Excerpts are read -/

theorem Definition.exists_append {raw kept : List Token} {name : String} {fields : List Variable} {stop : Token}
    (h : Definition types raw name fields stop kept) : ∃ us, raw = us ++ [stop] := by
  cases h with
  | @intro b₁ b₂ b₃ b₄ raw _ name opening closing _ _ =>
    exact ⟨b₁ ++ name :: (b₂ ++ opening :: (raw ++ (b₃ ++ closing :: b₄))), by simp⟩

/-- **Where the tokens begin with an excerpt, it is read.** -/
theorem construct_of_excerpt {raw : List Token} {action : Action} {out : List Output}
    (h : Excerpt types raw action out) (ahead : c.ahead = raw ++ rest) :
    construct path standsAlone types c = ⟨some action, raw.length - 1, out⟩ := by
  cases h with
  | plain hr => exact construct_of_plain ahead hr
  | @uniform t stop raw v hr hs phrase =>
    have split : c.ahead.drop 1 = raw ++ stop :: rest := by
      rw [ahead]
      simp
    have declared := map_apply_of_eq (declaration_apply split (isBlank_of_kind hs (by simp)) phrase) Action.declare
    rw [construct_of_uniform ahead hr, uniform, bind_apply_of_eq (copy_apply ahead) declared]
    simp
  | @struct t stop raw kept name fields hr h =>
    obtain ⟨us, rfl⟩ := h.exists_append
    have line : (c.skip (us ++ [stop]).length).line = stop.line := by
      have ahead' : (c.skip (us ++ [stop]).length).ahead = stop :: rest := by
        rw [Cursor.ahead_skip, ahead]
        simp
      rw [Cursor.line, ahead']
      rfl
    have ended : (newline >>= fun _ => pure (.define name fields) : Reader Action) (c.skip (us ++ [stop]).length) =
        ⟨some (.define name fields), 0, [.newline stop.line]⟩ := by
      rw [← line]
      rfl
    rw [construct_of_structDefinition ahead hr, structDefinition_eq,
      bind_apply_of_eq (structBody_apply h ahead) ended]
    simp

/-- **A construct that asks for no other file and is no problem is an excerpt.** -/
theorem exists_excerpt (ahead : c.ahead = t :: rest) (ht : ∀ t ∈ c.ahead, t.Truthful) (ho : t.IsOwn)
    (hf : (construct path standsAlone types c).faults = []) :
    ∃ raw rest' action out, c.ahead = raw ++ rest' ∧ Excerpt types raw action out := by
  rcases ho with hr | hr | hr
  · exact ⟨[t], rest, _, _, ahead, .plain hr⟩
  · rw [construct_of_structDefinition ahead hr, structDefinition_eq] at hf
    obtain ⟨raw, rest', name, fields, stop, kept, rfl, h⟩ := exists_definition ahead ht (faults_of_faults_bind hf)
    exact ⟨t :: raw, rest', _, _, ahead, .struct hr h⟩
  · have hc : c.ahead ≠ [] := by simp [ahead]
    rw [construct_of_uniform ahead hr, uniform] at hf
    obtain ⟨_, -, -, -, hf⟩ := writingLaw_smooth.copy.clean_bind hc hf
    rw [copy_apply ahead, Cursor.skip_zero] at hf
    obtain ⟨raw, stop, rest', v, split, hs, phrase⟩ := exists_declaration ht hc (faults_of_faults_bind hf)
    rw [ahead, List.drop_one, List.tail_cons] at split
    exact ⟨t :: (raw ++ [stop]), rest', _, _, by simp [ahead, split], .uniform hr hs phrase⟩

/-! ### Requests -/

section Request

variable {manner : Manner} {expected : String} {blanks : List Token} {s : Token}

theorem request_apply (h : c.Meets blanks s rest) (hk : s.kind = .string) :
    request manner expected c = ⟨some (.request manner s.text s.line), blanks.length + 1, blanks.map .copy⟩ := by
  have found : (current >>= fun t => pure (.request manner t.text t.line) : Reader Action)
      (c.skip (blanks.length + 1)) = ⟨some (.request manner s.text s.line), 0, []⟩ :=
    map_apply_of_eq (current_apply (ahead_skip_of_drop_one h.split)) fun t => Action.request manner t.text t.line
  exact (bind_apply_of_eq (expect_apply h (by simp [hk])) found).trans (by simp)

/-- A request that is no problem is followed by a string. -/
theorem exists_meets_of_request (hf : (request manner expected c).faults = []) :
    ∃ blanks s rest, c.Meets blanks s rest ∧ s.kind = .string := by
  obtain ⟨blanks, s, rest, meets, hk⟩ := exists_meets_of_expect (faults_of_faults_bind hf)
  exact ⟨blanks, s, rest, meets, by simpa using hk⟩

/-- What a request without a problem reads is told by the tokens that it passes. -/
theorem request_congr {c' : Cursor} {raw rest' : List Token} (ahead : c.ahead = t :: raw ++ rest)
    (ahead' : c'.ahead = t :: raw ++ rest') (hn : raw.length = (request manner expected c).steps)
    (hf : (request manner expected c).faults = []) : request manner expected c' = request manner expected c := by
  obtain ⟨blanks, s, left, meets, hk⟩ := exists_meets_of_request hf
  have outcome : request manner expected c = _ := request_apply meets hk
  have length : (blanks ++ [s]).length = raw.length := by simp [hn, outcome]
  have split : (blanks ++ [s]) ++ left = raw ++ rest := by
    have split := meets.split
    rw [ahead, List.cons_append, List.drop_one, List.tail_cons] at split
    simp [split]
  obtain ⟨rfl, -⟩ := List.append_inj split length
  have meets' : c'.Meets blanks s rest' := ⟨by simp [ahead'], meets.blanks, meets.solid⟩
  rw [outcome, request_apply meets' hk]

end Request

theorem templateMark_of_zero (hi : c.index = 0) : templateMark false c = ⟨some .nothing, 0, []⟩ := by
  rw [templateMark, here_bind_apply, hi]
  rfl

/-- The mark of a template file is no problem at the start of a file that may be one. -/
theorem zero_of_faults_templateMark (hf : (templateMark standsAlone c).faults = []) :
    c.index = 0 ∧ standsAlone = false := by
  rw [templateMark, here_bind_apply] at hf
  by_cases hi : c.index = 0
  · cases standsAlone with
    | false => exact ⟨hi, rfl⟩
    | true =>
      simp only [hi, ne_eq, not_true_eq_false, if_false, if_true] at hf
      exact absurd (faults_of_faults_bind hf) (faults_report_ne_nil _ _)
  · simp only [ne_eq, hi, not_false_eq_true, if_true] at hf
    exact absurd (faults_of_faults_bind hf) (faults_report_ne_nil _ _)

/-! ### Passed tokens tell the outcome -/

/-- A construct without a problem ends on a token. -/
theorem ahead_skip_construct_ne_nil (hc : c.ahead ≠ []) (hf : (construct path standsAlone types c).faults = []) :
    (c.skip (construct path standsAlone types c).steps).ahead ≠ [] := by
  obtain ⟨t, rest, ahead⟩ := List.exists_cons_of_ne_nil hc
  cases hr : t.role with
  | plain =>
    rw [construct_of_plain ahead hr]
    exact hc
  | structDefinition =>
    rw [construct_of_structDefinition ahead hr, structDefinition_eq] at hf ⊢
    obtain ⟨body, hv, -, left, -⟩ := (writingLaw_smooth.structBody types).clean_bind hc hf
    rw [bind_apply_of_some hv]
    exact left
  | uniform =>
    rw [construct_of_uniform ahead hr] at hf ⊢
    exact (writingLaw_smooth.uniform types c hc hf).2.1
  | inclusion =>
    rw [construct_of_inclusion ahead hr] at hf ⊢
    exact (writingLaw_smooth.request _ _ c hc hf).2.1
  | templateMark =>
    rw [construct_of_templateMark ahead hr] at hf ⊢
    exact (writingLaw_smooth.toLaw.templateMark _ c hc hf).2.1
  | vertexLink =>
    rw [construct_of_vertexLink ahead hr] at hf ⊢
    cases hp : path.isFragment with
    | true =>
      rw [hp] at hf
      exact (writingLaw_smooth.request _ _ c hc hf).2.1
    | false =>
      rw [hp] at hf
      exact absurd (faults_of_faults_bind hf) (faults_report_ne_nil _ _)

/-- **What a construct without a problem reads is told by the tokens that it passes.** The mark of a template file
depends on its position as well. -/
theorem construct_congr {c' : Cursor} {raw rest' : List Token} (ht : ∀ t ∈ c.ahead, t.Truthful)
    (ahead : c.ahead = raw ++ rest) (ahead' : c'.ahead = raw ++ rest')
    (hn : raw.length = (construct path standsAlone types c).steps + 1)
    (hf : (construct path standsAlone types c).faults = [])
    (hi : ∀ t ∈ raw.head?, t.role = .templateMark → c'.index = c.index) :
    construct path standsAlone types c' = construct path standsAlone types c := by
  obtain ⟨t, raw, rfl⟩ : ∃ t us, raw = t :: us := List.exists_cons_of_length_pos (by omega)
  rw [List.length_cons, Nat.add_right_cancel_iff] at hn
  by_cases ho : t.IsOwn
  · obtain ⟨xs, left, action, out, split, excerpt⟩ := exists_excerpt ahead ht ho hf
    have outcome : construct path standsAlone types c = ⟨some action, xs.length - 1, out⟩ :=
      construct_of_excerpt excerpt split
    have length : xs.length = (t :: raw).length := by
      have := List.length_pos_iff.2 excerpt.ne_nil
      rw [outcome] at hn
      simp only [List.length_cons] at hn ⊢
      omega
    obtain ⟨rfl, -⟩ := List.append_inj (split.symm.trans ahead) length
    rw [outcome, construct_of_excerpt excerpt ahead']
  · cases hr : t.role with
    | plain => exact absurd (.inl hr) ho
    | structDefinition => exact absurd (.inr (.inl hr)) ho
    | uniform => exact absurd (.inr (.inr hr)) ho
    | inclusion =>
      rw [construct_of_inclusion ahead hr] at hn hf ⊢
      rw [construct_of_inclusion ahead' hr]
      exact request_congr ahead ahead' hn hf
    | vertexLink =>
      rw [construct_of_vertexLink ahead hr] at hn hf ⊢
      rw [construct_of_vertexLink ahead' hr]
      cases hp : path.isFragment with
      | true =>
        rw [hp] at hn hf
        exact request_congr ahead ahead' hn hf
      | false =>
        rw [hp] at hf
        exact absurd (faults_of_faults_bind hf) (faults_report_ne_nil _ _)
    | templateMark =>
      rw [construct_of_templateMark ahead hr] at hf ⊢
      obtain ⟨zero, rfl⟩ := zero_of_faults_templateMark hf
      rw [construct_of_templateMark ahead' hr, templateMark_of_zero zero,
        templateMark_of_zero ((hi t rfl hr).trans zero)]

end Reader

end ShaderWeave
