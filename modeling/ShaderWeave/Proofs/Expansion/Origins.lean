import ShaderWeave.Proofs.Expansion.Chain
import ShaderWeave.Proofs.Expansion.Refusals
import ShaderWeave.Proofs.Lexing.Lines
import ShaderWeave.Proofs.Reader.Tracing

/-!
# Where the lines of a woven text come from

Every line of a woven text names a line of a file. The main result, `expandFile_origins`, says for every expansion that
the file is the one that was asked for or was included in its chain and could be loaded, that it has that line, and that
the first character of the woven line belongs to a token of that line, or is the newline after a struct type whose
definition ends there. The lines that name one file are in the order of that file, whatever stands between them.

A file writes in the order of its lines (`walk_sorted`), and each file of a chain is expanded once, so the emissions of
different files lie apart in different entries of the journal (`hasOrigins_of_nested`).
-/

namespace ShaderWeave

variable {σ : Type}

/-! ### Tokens of a text -/

/-- A token is on a line of its text. -/
theorem line_of_mem_lex {text : String} {t : Token} (h : t ∈ lex text) :
    1 ≤ t.line ∧ t.line ≤ (Text.lines text.toList).length := by
  obtain ⟨line, hl, ht⟩ := List.mem_flatMap.1 h
  have bounds := List.mem_zipIdx hl
  rw [List.length_map] at bounds
  rw [line_of_mem_lineTokens ht]
  omega

/-- The tokens of a text are in the order of its lines. -/
theorem pairwise_line_lex (text : String) : ((lex text).map Token.line).Pairwise (· ≤ ·) := by
  have numbers (ls : List (List Char × Nat)) (h : (ls.map Prod.snd).Pairwise (· ≤ ·)) :
      ((ls.flatMap fun line => lineTokens line.1 line.2).map Token.line).Pairwise (· ≤ ·) := by
    induction ls with
    | nil => exact List.Pairwise.nil
    | cons l ls ih =>
      obtain ⟨first, rest⟩ := List.pairwise_cons.1 h
      have same : (lineTokens l.1 l.2).map Token.line = List.replicate (lineTokens l.1 l.2).length l.2 := by
        refine List.eq_replicate_iff.2 ⟨List.length_map .., fun n hn => ?_⟩
        obtain ⟨t, ht, rfl⟩ := List.mem_map.1 hn
        exact line_of_mem_lineTokens ht
      rw [List.flatMap_cons, List.map_append, same]
      refine List.pairwise_append.2 ⟨List.pairwise_replicate.2 (.inr (Nat.le_refl _)), ih rest, fun n hn m hm => ?_⟩
      obtain ⟨t, ht, rfl⟩ := List.mem_map.1 hm
      obtain ⟨l', hl', ht⟩ := List.mem_flatMap.1 ht
      rw [List.eq_of_mem_replicate hn, line_of_mem_lineTokens ht]
      exact first _ (List.mem_map_of_mem hl')
  refine numbers _ ?_
  rw [numberedLines, List.zipIdx_map_snd]
  exact List.pairwise_le_range'

/-- A cursor sees ordered tokens if they are ordered. -/
theorem Cursor.ordered_start {ts : List Token} (h : (ts.map Token.line).Pairwise (· ≤ ·)) :
    (Cursor.start ts).Ordered where
  lines := h
  last t ht := by
    rcases List.eq_nil_or_concat ts with rfl | ⟨us, u, rfl⟩
    · simp [Cursor.start] at ht
    · rw [List.concat_eq_append] at h ht ⊢
      have last : (Cursor.start (us ++ [u])).lastLine = u.line := by simp [Cursor.start]
      rw [last]
      rcases List.mem_append.1 (show t ∈ us ++ [u] from ht) with ht | ht
      · rw [List.map_append] at h
        exact (List.pairwise_append.1 h).2.2 _ (List.mem_map_of_mem ht) _ (by simp)
      · exact Nat.le_of_eq (congrArg Token.line (List.mem_singleton.1 ht))

/-! ### What a file writes itself -/

namespace FileContext

variable (ctx : FileContext σ)

theorem writtenLines_eq_nil {ps : List Output} (h : ∀ p ∈ ps, p.written? = none) : writtenLines ps = [] := by
  rw [writtenLines, writtenTokens_eq_nil h]
  rfl

/-- Lines that each construct keeps between those on which it starts and ends are in order over all constructs. -/
theorem walk_within (lines : Journal → List Nat) (nil : lines [] = [])
    (append : ∀ j k, lines (j ++ k) = lines j ++ lines k)
    (each : ∀ (s : FileState σ) (c : Cursor), c.Ordered →
      c.Within (ctx.read s c).steps (lines (ctx.finish s c (ctx.read s c)).2))
    (s : FileState σ) (c : Cursor) (hc : c.Ordered) : ∃ n, c.Within n (lines (ctx.walk s c).2) := by
  induction s, c using ctx.walk_induction with
  | done s c h =>
    rw [ctx.walk_of_end h, nil]
    exact ⟨0, c.within_nil 0⟩
  | more s c h ih =>
    obtain ⟨n, within⟩ := ih (hc.skip _)
    have one := (each s c hc).append hc ((c.skip _).within_nil 1)
    rw [ctx.walk_of_ahead h, append]
    rw [List.append_nil] at one
    exact ⟨_, one.append hc within⟩

/-- What a construct writes lies between where it starts and where it ends. -/
theorem finish_within (s : FileState σ) (c : Cursor) (hc : c.Ordered) :
    c.Within (ctx.read s c).steps (writtenLines (Journal.own (ctx.finish s c (ctx.read s c)).2)) := by
  obtain ⟨ps, own, refused⟩ := ctx.own_finish s c (ctx.read s c)
  have mute : ∀ p ∈ ps, p.written? = none := by
    intro p hp
    obtain ⟨_, _, _, _, -, rfl, -⟩ := refused p hp
    rfl
  rw [own, writtenLines_append, writtenLines_eq_nil mute, List.append_nil]
  exact (Reader.traced_construct c hc).within

/-- What a file writes lies ahead of its cursor. -/
theorem walk_stems (s : FileState σ) (c : Cursor) (hc : c.Ordered) :
    ∀ o ∈ Journal.own (ctx.walk s c).2, o.written? ≠ none → Stems c o := by
  induction s, c using ctx.walk_induction with
  | done s c h =>
    rw [ctx.walk_of_end h]
    exact fun _ ho => absurd ho List.not_mem_nil
  | more s c h ih =>
    obtain ⟨ps, own, refused⟩ := ctx.own_finish s c (ctx.read s c)
    rw [ctx.walk_of_ahead h]
    simp only [Journal.own_append, own]
    intro o ho hw
    rcases List.mem_append.1 ho with ho | ho
    · rcases List.mem_append.1 ho with ho | ho
      · exact Reader.stems_construct hc ho hw
      · obtain ⟨_, _, _, _, -, rfl, -⟩ := refused o ho
        exact absurd rfl hw
    · exact (ih (hc.skip _) o ho hw).of_skip

/-- **A file writes in the order of its lines.** -/
theorem walk_sorted (s : FileState σ) (c : Cursor) (hc : c.Ordered) :
    (writtenLines (Journal.own (ctx.walk s c).2)).Pairwise (· ≤ ·) := by
  obtain ⟨n, within⟩ := ctx.walk_within (fun j => writtenLines (Journal.own j)) rfl
    (fun j k => by rw [Journal.own_append, writtenLines_append]) ctx.finish_within s c hc
  exact within.sorted

end FileContext

/-! ### Emissions of a file -/

mutual

/-- The files that an entry loads with their texts, but for those that linked vertex shaders load. -/
def Entry.chainTexts : Entry → List (Path × String)
  | .load path (.ok content) => [(path, content)]
  | .expand .included _ _ body => Journal.chainTexts body
  | _ => []

/-- The files that are loaded with their texts, but for those that linked vertex shaders load. -/
def Journal.chainTexts : List Entry → List (Path × String)
  | [] => []
  | e :: j => Entry.chainTexts e ++ Journal.chainTexts j

end

namespace Journal

theorem isView_chainTexts : IsView chainTexts Entry.chainTexts :=
  ⟨rfl, fun _ _ => rfl⟩

@[simp] theorem chainTexts_append (j k : Journal) : chainTexts (j ++ k) = chainTexts j ++ chainTexts k :=
  isView_chainTexts.append j k

end Journal

/-- The lines of a file from which something is put out, in the order in which it is. -/
def linesOf (path : Path) (xs : List Emission) : List Nat :=
  writtenLines ((xs.filter (·.file = path)).map Emission.output)

theorem linesOf_append (path : Path) (xs ys : List Emission) :
    linesOf path (xs ++ ys) = linesOf path xs ++ linesOf path ys := by
  rw [linesOf, List.filter_append, List.map_append, writtenLines_append]
  rfl

theorem linesOf_eq_nil {path : Path} {xs : List Emission} (h : ∀ x ∈ xs, x.file ≠ path) : linesOf path xs = [] := by
  rw [linesOf, List.filter_eq_nil_iff.2 fun x hx => by simpa using h x hx]
  rfl

/-- Where emissions come from that are put out for one file: from it or from files that are included, from texts that
have been loaded, and for each file in the order of its lines. -/
structure Origins (root : Path) (included : List Path) (texts : List (Path × String)) (xs : List Emission) : Prop where
  /-- They come from these files. -/
  files : ∀ x ∈ xs, x.file = root ∨ x.file ∈ included
  /-- What is written stands in the text that was loaded. -/
  stems : ∀ x ∈ xs, x.output.written? ≠ none →
    ∃ content, (x.file, content) ∈ texts ∧ Stems (.start (lex content)) x.output
  /-- Each file is written in order. -/
  sorted : ∀ path, (linesOf path xs).Pairwise (· ≤ ·)

/-- Where nothing is written, there is nothing to say. -/
theorem Origins.of_mute {root : Path} {included : List Path} {texts : List (Path × String)} {xs : List Emission}
    (h : ∀ x ∈ xs, x.file = root ∧ x.output.written? = none) : Origins root included texts xs where
  files x hx := .inl (h x hx).1
  stems x hx hw := absurd (h x hx).2 hw
  sorted path := by
    have mute : ∀ o ∈ (xs.filter (·.file = path)).map Emission.output, o.written? = none := by
      intro o ho
      obtain ⟨x, hx, rfl⟩ := List.mem_map.1 ho
      exact (h x (List.mem_filter.1 hx).1).2
    rw [linesOf, FileContext.writtenLines_eq_nil mute]
    exact List.Pairwise.nil

/-- The emissions of the journal of a file come from where they must. -/
def Journal.HasOrigins (file : Path) (j : Journal) : Prop :=
  Origins file (included j) (chainTexts j) (emissions file j)

/-- All files that are included by the entries of a journal have emissions that come from where they must. -/
def Journal.NestedOrigins (j : Journal) : Prop :=
  ∀ q result body, .expand .included q result body ∈ j → HasOrigins q.path body

theorem Journal.NestedOrigins.tail {e : Entry} {j : Journal} (h : NestedOrigins (e :: j)) : NestedOrigins j :=
  fun q result body hm => h q result body (List.mem_cons_of_mem _ hm)

section Nested

variable {file : Path} {j : Journal}

theorem files_of_nested (nested : j.NestedOrigins) :
    ∀ x ∈ Journal.emissions file j, x.file = file ∨ x.file ∈ Journal.included j := by
  intro x hx
  obtain ⟨e, he, hx⟩ := (Journal.isView_emissions _).mem_iff.1 hx
  cases e with
  | output o => exact .inl (by rw [List.mem_singleton.1 hx])
  | expand m q result body =>
    cases m with
    | linked => simp [Entry.emissions] at hx
    | included =>
      exact .inr (Journal.isView_included.mem_iff.2 ⟨_, he, List.mem_cons.2 ((nested q result body he).files x hx)⟩)
  | _ => simp [Entry.emissions] at hx

/-- What comes from the file itself is what is put out while it is read. -/
theorem linesOf_self (nested : j.NestedOrigins) (hf : file ∉ Journal.included j) :
    linesOf file (Journal.emissions file j) = writtenLines (Journal.own j) := by
  induction j with
  | nil => rfl
  | cons e j ih =>
    rw [Journal.included, List.mem_append, not_or] at hf
    have rest := ih nested.tail hf.2
    have own : Journal.own (e :: j) = e.own?.toList ++ Journal.own j := by
      rw [Journal.own, List.filterMap_cons]
      cases e.own? <;> rfl
    rw [Journal.emissions, linesOf_append, rest, own, writtenLines_append]
    congr 1
    cases e with
    | output o => simp [Entry.emissions, Entry.own?, linesOf]
    | expand m q result body =>
      cases m with
      | linked => rfl
      | included =>
        refine linesOf_eq_nil fun x hx heq => hf.1 ?_
        rw [← heq]
        exact List.mem_cons.2 ((nested q result body List.mem_cons_self).files x hx)
    | _ => rfl

/-- A file that is included is written by one entry alone. -/
theorem sorted_of_ne (nested : j.NestedOrigins) (hn : (Journal.included j).Nodup) {path : Path} (hp : path ≠ file) :
    (linesOf path (Journal.emissions file j)).Pairwise (· ≤ ·) := by
  induction j with
  | nil => exact List.Pairwise.nil
  | cons e j ih =>
    rw [Journal.included] at hn
    obtain ⟨-, hn, disjoint⟩ := List.nodup_append.1 hn
    have rest := ih nested.tail hn
    rw [Journal.emissions, linesOf_append]
    cases e with
    | output o =>
      have none : linesOf path (Entry.emissions file (.output o)) = [] :=
        linesOf_eq_nil fun x hx heq => hp (by rw [← heq, List.mem_singleton.1 hx])
      rwa [none, List.nil_append]
    | expand m q result body =>
      cases m with
      | linked => exact rest
      | included =>
        have inner := nested q result body List.mem_cons_self
        by_cases hi : path ∈ Entry.included (.expand .included q result body)
        · have none : linesOf path (Journal.emissions file j) = [] := by
            refine linesOf_eq_nil fun x hx heq => ?_
            rcases files_of_nested nested.tail x hx with hx | hx
            · exact hp (heq.symm.trans hx)
            · exact disjoint path hi x.file hx heq.symm
          rw [none, List.append_nil]
          exact inner.sorted path
        · have none : linesOf path (Entry.emissions file (.expand .included q result body)) = [] := by
            refine linesOf_eq_nil fun x hx heq => hi ?_
            rw [← heq]
            exact List.mem_cons.2 (inner.files x hx)
          rwa [none, List.nil_append]
    | _ => exact rest

/-- **A file whose own tokens are written in order, and which includes files of which this holds, is written in
order.** -/
theorem hasOrigins_of_nested (nested : j.NestedOrigins) (hn : (Journal.included j).Nodup)
    (hf : file ∉ Journal.included j) {content : String} (loaded : (file, content) ∈ Journal.chainTexts j)
    (own : ∀ o ∈ Journal.own j, o.written? ≠ none → Stems (.start (lex content)) o)
    (sorted : (writtenLines (Journal.own j)).Pairwise (· ≤ ·)) : Journal.HasOrigins file j where
  files := files_of_nested nested
  stems x hx hw := by
    obtain ⟨e, he, hx⟩ := (Journal.isView_emissions _).mem_iff.1 hx
    cases e with
    | output o =>
      obtain rfl := List.mem_singleton.1 hx
      exact ⟨content, loaded, own o (List.mem_filterMap.2 ⟨_, he, rfl⟩) hw⟩
    | expand m q result body =>
      cases m with
      | linked => simp [Entry.emissions] at hx
      | included =>
        obtain ⟨text, ht, stems⟩ := (nested q result body he).stems x hx hw
        exact ⟨text, Journal.isView_chainTexts.mem_iff.2 ⟨_, he, ht⟩, stems⟩
    | _ => simp [Entry.emissions] at hx
  sorted path := by
    by_cases hp : path = file
    · rw [hp, linesOf_self nested hf]
      exact sorted
    · exact sorted_of_ne nested hn hp

end Nested

/-! ### Whole files -/

theorem mute_opening (path : Path) (content : String) :
    ∀ o ∈ Journal.own (opening path content), o.written? = none := by
  rw [own_opening]
  intro o ho
  obtain ⟨line, -, rfl⟩ := List.mem_map.1 ho
  rfl

theorem chainTexts_opening (path : Path) (content : String) :
    (path, content) ∈ Journal.chainTexts (opening path content) := by
  simp [opening, Journal.chainTexts, Entry.chainTexts]

/-- Everything that is put out in the expansion of a file comes from where it must. -/
theorem hasOrigins_expandFile (provider : Provider σ) (depth : Nat) (r : FileRequest) (store : σ) :
    Journal.HasOrigins r.path (expandFile provider depth r store).journal := by
  induction depth generalizing r store with
  | zero => exact .of_mute (by simp [expandFile, Journal.emissions, Entry.emissions])
  | succ depth ih =>
    have nodup := (expandFile_includeFreshly provider (depth + 1) r store).fresh.nodup
    have outside := (expandFile_includeFreshly provider (depth + 1) r store).notMem_included
    rw [expandFile] at nodup outside ⊢
    cases hn : r.path.namesFile with
    | false =>
      rw [openFile_of_nameless provider _ store hn]
      exact .of_mute (by simp [Journal.emissions, Entry.problem, Entry.emissions, Output.written?])
    | true =>
      cases hl : (provider.load store r.path).1 with
      | error cause =>
        rw [openFile_of_unloaded provider _ hn hl]
        exact .of_mute (by simp [Journal.emissions, Entry.problem, Entry.emissions, Output.written?])
      | ok content =>
        let ctx := r.context provider (expandFile provider depth)
        let body := ctx.walk (r.initial (provider.load store r.path).2) (.start (lex content))
        have journal : (openFile provider (expandFile provider depth) r store).journal =
            opening r.path content ++ body.2 := by
          rw [openFile_of_loaded provider _ hn hl]
          rfl
        have ordered := Cursor.ordered_start (pairwise_line_lex content)
        have stems := ctx.walk_stems (r.initial (provider.load store r.path).2) (.start (lex content)) ordered
        have sorted := ctx.walk_sorted (r.initial (provider.load store r.path).2) (.start (lex content)) ordered
        have mute := mute_opening r.path content
        have lines := FileContext.writtenLines_eq_nil mute
        rw [journal] at nodup outside ⊢
        have loaded : (r.path, content) ∈ Journal.chainTexts (opening r.path content ++ body.2) := by
          rw [Journal.chainTexts_append]
          exact List.mem_append_left _ (chainTexts_opening r.path content)
        refine hasOrigins_of_nested ?_ nodup outside loaded ?_ ?_
        · intro q result inner he
          rcases List.mem_append.1 he with he | he
          · exact absurd he (expand_notMem_opening _ _ _ _ _ _)
          · obtain ⟨s, -, path, -, -, -, -, rfl⟩ := (ctx.walk_run _ _).order_of_mem he
            exact ih q s.store
        · intro o ho hw
          rw [Journal.own_append] at ho
          rcases List.mem_append.1 ho with ho | ho
          · exact absurd (mute o ho) hw
          · exact stems o ho hw
        · rw [Journal.own_append, writtenLines_append, lines, List.nil_append]
          exact sorted

/-! ### Lines of the woven text -/

/-- The characters that are written. -/
def Emission.text (x : Emission) : List Char :=
  x.marks.map Prod.fst

/-- A place in what is put together from pieces lies in one of the pieces. -/
theorem exists_of_flatMap_eq_append {α β : Type} {f : α → List β} {l : List α} {before after : List β} {b : β}
    (h : l.flatMap f = before ++ b :: after) :
    ∃ l₁ a l₂ start rest, l = l₁ ++ a :: l₂ ∧ f a = start ++ b :: rest ∧ before = l₁.flatMap f ++ start := by
  induction l generalizing before with
  | nil => simp at h
  | cons a l ih =>
    have further (bs : List β) (hl : l.flatMap f = bs ++ b :: after) (hb : before = f a ++ bs) :
        ∃ l₁ x l₂ start rest, a :: l = l₁ ++ x :: l₂ ∧ f x = start ++ b :: rest ∧ before = l₁.flatMap f ++ start := by
      obtain ⟨l₁, x, l₂, start, rest, rfl, hx, rfl⟩ := ih hl
      exact ⟨a :: l₁, x, l₂, start, rest, rfl, hx, by rw [hb, List.flatMap_cons, List.append_assoc]⟩
    rw [List.flatMap_cons] at h
    rcases List.append_eq_append_iff.1 h with ⟨bs, hb, hl⟩ | ⟨bs, ha, hl⟩
    · exact further bs hl hb
    · cases bs with
      | nil => exact further [] hl.symm (by simpa using ha.symm)
      | cons b' bs =>
        obtain ⟨rfl, -⟩ := List.cons.inj hl
        exact ⟨[], a, l, before, bs, rfl, ha, rfl⟩

/-- A line of the woven text in a journal, counted from zero, comes from a place. -/
structure LineOrigin (r : FileRequest) (j : Journal) (k : Nat) (place : Place) (path : Path) (content : String)
    (o : Output) : Prop where
  /-- The place names the file. -/
  file : place.file = path.text
  /-- The file is the one that is expanded, or it is included in its chain. -/
  opened : path = r.path ∨ path ∈ Journal.included j
  /-- It has been loaded in the chain, with this text. -/
  loaded : (path, content) ∈ Journal.chainTexts j
  /-- The place is a line of the text. -/
  bounds : 1 ≤ place.line ∧ place.line ≤ (Text.lines content.toList).length
  /-- What is written is a token of the text, or a newline after a struct type that it defines. -/
  stems : Stems (.start (lex content)) o
  /-- It stands on the line of the place. -/
  line : o.written?.map Token.line = some place.line
  /-- The line starts with one of its characters: what is written before that character is the lines before. -/
  starts : ∃ before after start c rest, Journal.emissions r.path j = before ++ ⟨path, o⟩ :: after ∧
    Emission.text ⟨path, o⟩ = start ++ c :: rest ∧
    before.flatMap Emission.text ++ start = ((Text.lines (Journal.woven r.path j).text.toList).take k).flatten

theorem Emission.exists_token_of_mem_marks {x : Emission} {m : Mark} (h : m ∈ x.marks) :
    ∃ t, x.output.written? = some t ∧ m.2 = ⟨x.file.text, t.line⟩ := by
  rw [marks] at h
  cases hw : x.output.written? with
  | none => simp [hw] at h
  | some t =>
    simp only [hw, Option.map_some, Option.getD_some, Token.marks, List.mem_map] at h
    obtain ⟨c, -, rfl⟩ := h
    exact ⟨t, rfl, rfl⟩

/-- What is written for a file comes from a line that the file has. -/
theorem Stems.bounds {content : String} {o : Output} (h : Stems (.start (lex content)) o) {t : Token}
    (ht : o.written? = some t) : 1 ≤ t.line ∧ t.line ≤ (Text.lines content.toList).length := by
  cases h with
  | token h =>
    obtain rfl := Option.some.inj ht
    exact line_of_mem_lex h
  | @newline n types _ stop rest _ _ _ _ _ hs =>
    obtain rfl := Option.some.inj ht
    have mem : stop ∈ lex content := by
      have ahead : stop ∈ (((Cursor.start (lex content)).skip n).skip
          (Reader.structDefinition types ((Cursor.start (lex content)).skip n)).steps).ahead := by
        rw [hs]
        exact List.mem_cons_self
      exact List.mem_of_mem_drop (show stop ∈ (lex content).drop n from List.mem_of_mem_drop ahead)
    exact (line_of_mem_lex mem :)

/-- The lines of a file that are named by characters, in the order in which they are written. -/
def markedLines (file : String) (ms : List Mark) : List Nat :=
  ((ms.map Prod.snd).filter (·.file = file)).map Place.line

theorem markedLines_append (file : String) (ms ns : List Mark) :
    markedLines file (ms ++ ns) = markedLines file ms ++ markedLines file ns := by
  simp [markedLines]

/-- The characters that are written at once name one line. -/
theorem markedLines_marks (path : Path) (x : Emission) :
    markedLines path.text x.marks = [] ∨
      ∃ n line, markedLines path.text x.marks = List.replicate n line ∧ linesOf path [x] = [line] := by
  cases hw : x.output.written? with
  | none => exact .inl (by simp [markedLines, Emission.marks, hw])
  | some t =>
    by_cases hf : x.file = path
    · refine .inr ⟨t.render.toList.length, t.line, ?_, ?_⟩
      · rw [markedLines, List.filter_eq_self.2 (by simp [Emission.marks, hw, Token.marks, hf])]
        simp only [Emission.marks, hw, Token.marks, Option.map_some, Option.getD_some, List.map_map]
        exact List.map_const' ..
      · simp [linesOf, writtenLines, hf, hw]
    · have hf : x.file.text ≠ path.text := fun h => hf (congrArg Path.mk h)
      exact .inl (by simp [markedLines, Emission.marks, hw, Token.marks, hf])

/-- Where a file is written in order, so are the characters that name it. -/
theorem pairwise_markedLines {path : Path} {xs : List Emission} (h : (linesOf path xs).Pairwise (· ≤ ·)) :
    (markedLines path.text (xs.flatMap Emission.marks)).Pairwise (· ≤ ·) ∧
      markedLines path.text (xs.flatMap Emission.marks) ⊆ linesOf path xs := by
  induction xs with
  | nil => exact ⟨List.Pairwise.nil, List.nil_subset _⟩
  | cons x xs ih =>
    have split : linesOf path (x :: xs) = linesOf path [x] ++ linesOf path xs := linesOf_append path [x] xs
    rw [split] at h ⊢
    rw [List.flatMap_cons, markedLines_append]
    obtain ⟨-, rest, across⟩ := List.pairwise_append.1 h
    obtain ⟨sorted, sub⟩ := ih rest
    rcases markedLines_marks path x with hx | ⟨n, line, hx, hline⟩
    · rw [hx, List.nil_append]
      exact ⟨sorted, List.subset_append_of_subset_right _ sub⟩
    · rw [hx, hline]
      refine ⟨List.pairwise_append.2 ⟨List.pairwise_replicate.2 (.inr (Nat.le_refl _)), sorted, ?_⟩, ?_⟩
      · intro l hl l' hl'
        rw [List.eq_of_mem_replicate hl]
        exact across line (by simp [hline]) l' (sub hl')
      · refine List.append_subset.2 ⟨fun l hl => ?_, List.subset_append_of_subset_right _ sub⟩
        rw [List.eq_of_mem_replicate hl]
        exact List.mem_cons_self

/-- **Every line of a woven text comes from where its place says, and the lines that come from one file are in order.**
The file is the one that is expanded or one that is included in its chain, it has been loaded, and it has such a line.
The first character of the woven line belongs to a token of that line, or to the newline after a struct type whose
definition ends on it. -/
theorem expandFile_origins (provider : Provider σ) (depth : Nat) (r : FileRequest) (store : σ) :
    let j := (expandFile provider depth r store).journal
    let woven := Journal.woven r.path j
    woven.places.size = (Text.lines woven.text.toList).length ∧
      (∀ k place, woven.places[k]? = some place → ∃ path content o, LineOrigin r j k place path content o) ∧
      ∀ file : String, ((woven.places.toList.filter (·.file = file)).map Place.line).Pairwise (· ≤ ·) := by
  intro j woven
  have origins : Journal.HasOrigins r.path j := hasOrigins_expandFile provider depth r store
  have write : woven = Weave.empty.write ((Journal.emissions r.path j).flatMap Emission.marks) :=
    Journal.woven_eq_write r.path j
  refine ⟨?_, ?_, ?_⟩
  · rw [write]
    exact Weave.size_places_empty_write _
  · intro k place hk
    rw [write] at hk
    obtain ⟨before, m, after, hms, rfl, starts⟩ := Weave.exists_mark_of_places_get hk
    rw [← write] at starts
    obtain ⟨xs, x, ys, start, rest, split, hx, rfl⟩ := exists_of_flatMap_eq_append hms
    have hmem : x ∈ Journal.emissions r.path j := by simp [split]
    obtain ⟨t, ht, hm⟩ := x.exists_token_of_mem_marks (m := m) (by simp [hx])
    obtain ⟨content, loaded, stems⟩ := origins.stems x hmem (by simp [ht])
    refine ⟨x.file, content, x.output, ?_⟩
    constructor
    · rw [hm]
    · exact origins.files x hmem
    · exact loaded
    · rw [hm]
      exact stems.bounds ht
    · exact stems
    · rw [ht, hm]
      rfl
    · refine ⟨xs, ys, start.map Prod.fst, m.1, rest.map Prod.fst, split, ?_, ?_⟩
      · rw [Emission.text, hx]
        simp
      · rw [← starts, List.map_append, List.map_flatMap]
        rfl
  · intro file
    have sub := lineStarts_sublist true ((Journal.emissions r.path j).flatMap Emission.marks)
    rw [write, Weave.toList_places_empty_write]
    exact ((pairwise_markedLines (origins.sorted ⟨file⟩)).1).sublist ((sub.filter _).map _)

end ShaderWeave
