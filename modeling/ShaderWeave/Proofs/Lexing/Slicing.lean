import ShaderWeave.LexedFile
import ShaderWeave.Declaration
import ShaderWeave.Proofs.Lexing.Cuts
import ShaderWeave.Proofs.Text.Slices

/-!
# Lexemes as slices

Instead of a list of characters that is taken apart, a line can be one text, from which each lexeme is cut out by the
positions in bytes where it starts and stops. `slicedLexemes?` reads a line in this way. A slice that does not exist
would stop it, but none is ever asked for (`slicedLexemes?_eq`): whatever characters a line is made of, the lexemes come
out, and they are the same.

The size of a vector type and the letter before it are also cut out by positions, where `vec` has been found
(`slicedVectorType?_eq`).
-/

namespace ShaderWeave

open Text (slice? positions position)

/-- Characters of a class are passed over up to where they end. -/
theorem Text.dropWhile_positions_of_ends {p : Char → Bool} {taken rest : List Char} (ht : ∀ d ∈ taken, p d = true)
    (hr : Ends p rest) (before : String) (c : Char) :
    (positions (before.utf8ByteSize + c.utf8Size) (taken ++ rest)).dropWhile (fun d => p d.2) =
      positions (before ++ String.ofList (c :: taken)).utf8ByteSize rest := by
  rw [utf8ByteSize_append_char, dropWhile_positions, hr.takeWhile_append ht, hr.dropWhile_append ht,
    append_ofList_cons]

/-! ### Lexemes -/

namespace Lexeme

/-- The lexeme whose text is the slice between two positions, and what is left after it. -/
def cutOut? (line : String) (start stop : Nat) (lexeme : List Char → Lexeme) (after : List (Nat × Char)) :
    Option (Lexeme × List (Nat × Char)) :=
  (slice? line start stop).map fun text => (lexeme text.toList, after)

/-- The lexeme that starts with the character `c` of a line, and what is left after it, where each character ahead has
its position. -/
def slicedFirst? (line : String) (start : Nat) (c : Char) (ahead : List (Nat × Char)) :
    Option (Lexeme × List (Nat × Char)) :=
  if c = '#' then
    let after := ahead.dropWhile fun d => isLetter d.2
    cutOut? line start (position line after) (whole .directive) after
  else if isLetter c then
    let after := ahead.dropWhile fun d => isWordPart d.2
    cutOut? line start (position line after) (fun text => whole (.ofWord text) text) after
  else if c.isDigit then
    let after := ahead.dropWhile fun d => isNumberPart d.2
    let stop := position line after
    if after.head?.map Prod.snd = some 'f' then
      cutOut? line start (stop + 1) (fun text => whole (.ofNumber text) text) (after.drop 1)
    else cutOut? line start stop (fun text => whole (.ofNumber text) text) after
  else if isBlank c then
    let after := ahead.dropWhile fun d => isBlank d.2
    cutOut? line start (position line after) (whole .whitespace) after
  else if c = '"' then
    let after := ahead.dropWhile fun d => decide (d.2 ≠ '"')
    cutOut? line (start + 1) (position line after) (fun text => ⟨.string, text, after.isEmpty⟩) (after.drop 1)
  else cutOut? line start (start + c.utf8Size) (whole (.ofChar c)) ahead

/-- A part of the line is cut out where it stands. -/
theorem cutOut?_eq {line before : String} {start stop : Nat} {part rest : List Char} (lexeme : List Char → Lexeme)
    (after : List (Nat × Char)) (hl : line = before ++ String.ofList (part ++ rest)) (hb : start = before.utf8ByteSize)
    (he : stop = (before ++ String.ofList part).utf8ByteSize) :
    cutOut? line start stop lexeme after = some (lexeme part, after) := by
  rw [hl, hb, he, cutOut?, Text.slice?_ofList, Option.map_some, String.toList_ofList]

/-- Letters, digits or blanks are cut out up to a character of another class. -/
theorem cutOut?_of_ends {p : Char → Bool} {taken rest : List Char} (ht : ∀ d ∈ taken, p d = true) (hr : Ends p rest)
    (before : String) (c : Char) (lexeme : List Char → Lexeme) :
    let after := (positions (before.utf8ByteSize + c.utf8Size) (taken ++ rest)).dropWhile fun d => p d.2
    let line := before ++ String.ofList (c :: (taken ++ rest))
    cutOut? line before.utf8ByteSize (position line after) lexeme after =
      some (lexeme (c :: taken), positions (before ++ String.ofList (c :: taken)).utf8ByteSize rest) := by
  intro after line
  have there : after = positions (before ++ String.ofList (c :: taken)).utf8ByteSize rest :=
    Text.dropWhile_positions_of_ends ht hr before c
  have stop : position line after = (before ++ String.ofList (c :: taken)).utf8ByteSize := by
    rw [there]
    exact Text.position_ofList before (c :: taken) rest
  rw [← there]
  exact cutOut?_eq lexeme after rfl rfl stop

/-- The first lexeme of what stands behind `before` on a line, and what is left after it. -/
def slicedLexeme? (before : String) : List Char → Option (Lexeme × List (Nat × Char))
  | [] => none
  | c :: cs =>
    slicedFirst? (before ++ String.ofList (c :: cs)) before.utf8ByteSize c
      (positions (before.utf8ByteSize + c.utf8Size) cs)

/-- A number sign is cut out with the letters after it. -/
theorem slicedLexeme?_directive {word rest : List Char} (hw : ∀ d ∈ word, isLetter d = true)
    (hr : Ends isLetter rest) (before : String) :
    slicedLexeme? before ('#' :: (word ++ rest)) =
      some (whole .directive ('#' :: word), positions (before ++ String.ofList ('#' :: word)).utf8ByteSize rest) := by
  rw [slicedLexeme?, slicedFirst?, if_pos rfl]
  exact cutOut?_of_ends hw hr before _ _

/-- A word is cut out up to what is no letter and no digit. -/
theorem slicedLexeme?_word {c : Char} {word rest : List Char} (hc : isLetter c = true)
    (hw : ∀ d ∈ word, isWordPart d = true) (hr : Ends isWordPart rest) (before : String) :
    slicedLexeme? before (c :: (word ++ rest)) =
      some (whole (.ofWord (c :: word)) (c :: word),
        positions (before ++ String.ofList (c :: word)).utf8ByteSize rest) := by
  have hash : c ≠ '#' := by
    rintro rfl
    exact absurd hc (by decide)
  rw [slicedLexeme?, slicedFirst?, if_neg hash, if_pos hc]
  exact cutOut?_of_ends hw hr before _ _

theorem slicedFirst?_of_isDigit {c : Char} (h : c.isDigit = true) (line : String) (start : Nat)
    (ahead : List (Nat × Char)) :
    slicedFirst? line start c ahead =
      let after := ahead.dropWhile fun d => isNumberPart d.2
      let stop := position line after
      if after.head?.map Prod.snd = some 'f' then
        cutOut? line start (stop + 1) (fun text => whole (.ofNumber text) text) (after.drop 1)
      else cutOut? line start stop (fun text => whole (.ofNumber text) text) after := by
  have hash : c ≠ '#' := by
    rintro rfl
    exact absurd h (by decide)
  rw [slicedFirst?, if_neg hash, if_neg (by simp [isLetter_of_isDigit h]), if_pos h]

/-- A number is cut out up to what is no digit and no dot. -/
theorem slicedLexeme?_number {c : Char} {body rest : List Char} (hc : c.isDigit = true)
    (hb : ∀ d ∈ body, isNumberPart d = true) (hr : Ends isNumberPart rest) (hf : rest.head? ≠ some 'f')
    (before : String) :
    slicedLexeme? before (c :: (body ++ rest)) =
      some (whole (.ofNumber (c :: body)) (c :: body),
        positions (before ++ String.ofList (c :: body)).utf8ByteSize rest) := by
  have unmarked (n : Nat) : (positions n rest).head?.map Prod.snd ≠ some 'f' := by
    cases rest with
    | nil => simp [positions]
    | cons e rest => simpa [positions] using hf
  rw [slicedLexeme?, slicedFirst?_of_isDigit hc]
  dsimp only
  rw [if_neg (by rw [Text.dropWhile_positions_of_ends hb hr]; exact unmarked _)]
  exact cutOut?_of_ends hb hr before c _

/-- One letter `f` is cut out with the number before it. -/
theorem slicedLexeme?_marked {c : Char} {body : List Char} (hc : c.isDigit = true)
    (hb : ∀ d ∈ body, isNumberPart d = true) (rest : List Char) (before : String) :
    slicedLexeme? before (c :: (body ++ 'f' :: rest)) =
      some (whole (.ofNumber (c :: (body ++ ['f']))) (c :: (body ++ ['f'])),
        positions (before ++ String.ofList (c :: (body ++ ['f']))).utf8ByteSize rest) := by
  have ends : Ends isNumberPart ('f' :: rest) := by
    intro e he
    obtain rfl : 'f' = e := by simpa using he
    decide
  have there := Text.dropWhile_positions_of_ends hb ends before c
  have stop := Text.position_ofList before (c :: body) ('f' :: rest)
  have next : (before ++ String.ofList (c :: body)).utf8ByteSize + 1 =
      (before ++ String.ofList (c :: (body ++ ['f']))).utf8ByteSize :=
    (Text.utf8ByteSize_append_snoc before (c :: body) 'f').symm
  rw [slicedLexeme?, slicedFirst?_of_isDigit hc, ← next]
  dsimp only
  rw [there, if_pos (by rfl)]
  have line : c :: (body ++ 'f' :: rest) = (c :: (body ++ ['f'])) ++ rest := by simp
  exact cutOut?_eq _ _ (by rw [line]) rfl ((congrArg (· + 1) stop).trans next)

theorem slicedFirst?_of_isBlank {c : Char} (h : isBlank c = true) (line : String) (start : Nat)
    (ahead : List (Nat × Char)) :
    slicedFirst? line start c ahead =
      let after := ahead.dropWhile fun d => isBlank d.2
      cutOut? line start (position line after) (whole .whitespace) after := by
  obtain rfl | rfl | rfl := isBlank_iff.1 h <;> rfl

/-- Blanks are cut out up to what is no blank. -/
theorem slicedLexeme?_blank {c : Char} {blanks rest : List Char} (hc : isBlank c = true)
    (hb : ∀ d ∈ blanks, isBlank d = true) (hr : Ends isBlank rest) (before : String) :
    slicedLexeme? before (c :: (blanks ++ rest)) =
      some (whole .whitespace (c :: blanks), positions (before ++ String.ofList (c :: blanks)).utf8ByteSize rest) := by
  rw [slicedLexeme?, slicedFirst?_of_isBlank hc]
  exact cutOut?_of_ends hb hr before _ _

theorem slicedFirst?_quote (line : String) (start : Nat) (ahead : List (Nat × Char)) :
    slicedFirst? line start '"' ahead =
      let after := ahead.dropWhile fun d => decide (d.2 ≠ '"')
      cutOut? line (start + 1) (position line after) (fun text => ⟨.string, text, after.isEmpty⟩) (after.drop 1) :=
  rfl

/-- What stands between quotes is cut out up to the next quote or the end of the line. Only the end leaves the string
open. -/
theorem slicedLexeme?_quote {text rest : List Char} (ht : '"' ∉ text)
    (hr : Ends (fun d => decide (d ≠ '"')) rest) (before : String) :
    slicedLexeme? before ('"' :: (text ++ rest)) =
      some (⟨.string, text, rest.isEmpty⟩,
        (positions (before ++ String.ofList ('"' :: text)).utf8ByteSize rest).drop 1) := by
  have inside : ∀ d ∈ text, decide (d ≠ '"') = true := by
    intro d hd
    simpa using fun h : d = '"' => ht (h ▸ hd)
  have there := Text.dropWhile_positions_of_ends inside hr before '"'
  have stop := Text.position_ofList before ('"' :: text) rest
  have nothing (n : Nat) : (positions n rest).isEmpty = rest.isEmpty := by
    cases rest <;> rfl
  rw [slicedLexeme?, slicedFirst?_quote]
  dsimp only
  rw [there, nothing]
  exact cutOut?_eq (fun text => ⟨.string, text, rest.isEmpty⟩) _ (Text.append_ofList_cons before '"' _).symm
    (Text.utf8ByteSize_append_char before '"') (stop.trans (by rw [Text.append_ofList_cons]))

/-- Any other character is cut out alone. -/
theorem slicedLexeme?_single {c : Char} (hash : c ≠ '#') (letter : isLetter c = false) (digit : c.isDigit = false)
    (blank : isBlank c = false) (quote : c ≠ '"') (rest : List Char) (before : String) :
    slicedLexeme? before (c :: rest) =
      some (whole (.ofChar c) [c], positions (before ++ String.ofList [c]).utf8ByteSize rest) := by
  rw [slicedLexeme?, slicedFirst?, if_neg hash, if_neg (by simp [letter]), if_neg (by simp [digit]),
    if_neg (by simp [blank]), if_neg quote, Text.utf8ByteSize_append_char]
  exact cutOut?_eq _ _ rfl rfl rfl

/-- **What can be cut off a line can be cut out of it.** -/
theorem Cut.slicedLexeme?_eq {l : Lexeme} {rest : List Char} (h : Cut l rest) (before : String) :
    slicedLexeme? before (l.source ++ rest) =
      some (l, positions (before ++ String.ofList l.source).utf8ByteSize rest) := by
  cases h with
  | directive hw hr =>
    rw [source_whole (by simp)]
    exact slicedLexeme?_directive hw hr before
  | word hc hw hr =>
    rw [source_whole (Token.Kind.ofWord_ne_string _)]
    exact slicedLexeme?_word hc hw hr before
  | number hc hb hr hf =>
    rw [source_whole (Token.Kind.ofNumber_ne_string _)]
    exact slicedLexeme?_number hc hb hr hf before
  | marked hc hb =>
    rw [source_whole (Token.Kind.ofNumber_ne_string _), List.cons_append, ← List.append_cons]
    exact slicedLexeme?_marked hc hb rest before
  | blank hc hb hr =>
    rw [source_whole (by simp)]
    exact slicedLexeme?_blank hc hb hr before
  | @string text _ ht =>
    have line : (whole .string text).source ++ rest = '"' :: (text ++ '"' :: rest) := by
      simp [source, whole, render]
    have next : (before ++ String.ofList (whole .string text).source).utf8ByteSize =
        (before ++ String.ofList ('"' :: text)).utf8ByteSize + '"'.utf8Size :=
      Text.utf8ByteSize_append_snoc before ('"' :: text) '"'
    rw [line, next]
    exact slicedLexeme?_quote ht (by simp [Ends]) before
  | @unclosed text ht => exact slicedLexeme?_quote ht (Ends.nil _) before
  | single hash letter digit blank quote =>
    rw [source_whole (Token.Kind.ofChar_ne (by decide) _)]
    exact slicedLexeme?_single hash letter digit blank quote rest before

theorem slicedFirst?_suffix {line : String} {start : Nat} {c : Char} {ahead after : List (Nat × Char)} {l : Lexeme}
    (h : slicedFirst? line start c ahead = some (l, after)) : after <:+ ahead := by
  have left {start stop : Nat} {lexeme : List Char → Lexeme} {rest : List (Nat × Char)}
      (h : cutOut? line start stop lexeme rest = some (l, after)) : after = rest := by
    obtain ⟨text, -, he⟩ := Option.map_eq_some_iff.1 h
    exact (Prod.mk.inj he).2.symm
  simp only [slicedFirst?] at h
  repeat' split at h
  all_goals rewrite [left h]
  · exact List.dropWhile_suffix _
  · exact List.dropWhile_suffix _
  · exact (List.drop_suffix _ _).trans (List.dropWhile_suffix _)
  · exact List.dropWhile_suffix _
  · exact List.dropWhile_suffix _
  · exact (List.drop_suffix _ _).trans (List.dropWhile_suffix _)
  · exact List.suffix_rfl

end Lexeme

/-- The lexemes of a line, cut out of it one after another. -/
def slicedLexemes? (line : String) : List (Nat × Char) → Option (List Lexeme)
  | [] => some []
  | (start, c) :: ahead =>
    match _h : Lexeme.slicedFirst? line start c ahead with
    | none => none
    | some (l, after) => (slicedLexemes? line after).map (l :: ·)
termination_by ahead => ahead.length
decreasing_by
  have := (Lexeme.slicedFirst?_suffix _h).length_le
  simp only [List.length_cons]
  omega

/-- **All slices of a line exist, and they are its lexemes.** -/
theorem slicedLexemes?_eq (before : String) (cs : List Char) :
    slicedLexemes? (before ++ String.ofList cs) (positions before.utf8ByteSize cs) = some (lexemes cs) := by
  induction cs using lexemes.induct generalizing before with
  | case1 => rw [positions, slicedLexemes?, lexemes_nil]
  | case2 c cs ih =>
    obtain ⟨cut, source⟩ := Lexeme.cut_first c cs
    have first := cut.slicedLexeme?_eq before
    rw [source, Lexeme.slicedLexeme?] at first
    have rest : before ++ String.ofList (c :: cs) =
        (before ++ String.ofList (Lexeme.first c cs).1.source) ++ String.ofList (Lexeme.first c cs).2 := by
      rw [← source, String.ofList_append, String.append_assoc]
    rw [positions, slicedLexemes?, lexemes_cons]
    split
    · next h =>
      rw [first] at h
      cases h
    · next l after h =>
      obtain ⟨rfl, rfl⟩ := Prod.mk.inj (Option.some.inj (first.symm.trans h))
      rw [rest, ih]
      rfl

/-- The tokens of a line, cut out of it. -/
def slicedLineTokens? (line : List Char) (number : Nat) : Option (List Token) :=
  (slicedLexemes? (String.ofList line) (positions 0 line)).map fun ls =>
    ls.map (Lexeme.token number) ++ [Token.newline number]

theorem slicedLineTokens?_eq (line : List Char) (number : Nat) :
    slicedLineTokens? line number = some (lineTokens line number) := by
  have lexemes : slicedLexemes? (String.ofList line) (positions 0 line) = some (lexemes line) := by
    simpa using slicedLexemes?_eq "" line
  rw [slicedLineTokens?, lexemes]
  rfl

/-- The tokens of a text, cut out of its lines. -/
def slicedLex? (text : String) : Option (List Token) :=
  ((numberedLines text).mapM fun line => slicedLineTokens? line.1 line.2).map List.flatten

/-- **All slices of a text exist, and they are its tokens.** -/
theorem slicedLex?_eq (text : String) : slicedLex? text = some (lex text) := by
  have lines : (numberedLines text).mapM (fun line => slicedLineTokens? line.1 line.2) =
      some ((numberedLines text).map fun line => lineTokens line.1 line.2) := by
    simp only [slicedLineTokens?_eq]
    exact List.mapM_pure
  rw [slicedLex?, lines, lex, List.flatMap_def]
  rfl

/-! ### Vector types -/

/-- The components of a vector type, where the letter before `vec` and the digit after it are cut out of the word. -/
def slicedVectorType? (word : String) : Option (Option (Element × Nat)) :=
  match Text.splitFirst vectorMark word.toList with
  | none => some none
  | some parts => do
    let start := (String.ofList parts.1).utf8ByteSize
    let before ← slice? word 0 start
    match Element.ofVectorPrefix? before with
    | none => return none
    | some element =>
      let after ← slice? word (start + 3) word.utf8ByteSize
      match after.toList with
      | [digit] => return if '1' ≤ digit ∧ digit ≤ '9' then some (element, digit.toNat - '0'.toNat) else none
      | _ => return none

/-- **Both slices of a word exist.** -/
theorem slicedVectorType?_eq (word : String) : slicedVectorType? word = some (vectorType? word) := by
  cases hs : Text.splitFirst vectorMark word.toList with
  | none => simp [slicedVectorType?, vectorType?, hs]
  | some parts =>
    obtain ⟨before, after⟩ := parts
    have split : word = String.ofList before ++ String.ofList vectorMark ++ String.ofList after := by
      rw [← String.ofList_append, ← String.ofList_append, ← Text.splitFirst_eq_some hs, String.ofList_toList]
    have letter : slice? word 0 (String.ofList before).utf8ByteSize = some (String.ofList before) := by
      rw [split, String.append_assoc]
      simpa using Text.slice?_append "" (String.ofList before) (String.ofList vectorMark ++ String.ofList after)
    have digit : slice? word ((String.ofList before).utf8ByteSize + 3) word.utf8ByteSize =
        some (String.ofList after) := by
      have mark : (String.ofList before).utf8ByteSize + 3 =
          (String.ofList before ++ String.ofList vectorMark).utf8ByteSize := by
        rw [String.utf8ByteSize_append]
        rfl
      rw [mark, split]
      simpa using Text.slice?_append (String.ofList before ++ String.ofList vectorMark) (String.ofList after) ""
    simp only [slicedVectorType?, vectorType?, hs, letter, digit, Option.bind_eq_bind, Option.bind_some]
    cases hp : Element.ofVectorPrefix? (String.ofList before) with
    | none => rfl
    | some element =>
      rw [Option.bind_some, String.toList_ofList]
      cases after with
      | nil => rfl
      | cons digit more => cases more <;> rfl

end ShaderWeave
