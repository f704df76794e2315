/-!
# Slices of texts

A slice is the part of a text between two positions, which count its bytes. There is one only if both positions lie
between characters and in this order, so a slice cannot cut a character of several bytes.

A text that is read character by character knows the position of each (`positions`). By `slice?_append`, a part of the
text can be cut out by the positions where it starts and stops.
-/

namespace ShaderWeave.Text

/-- The text between two positions in bytes, unless they are out of order or one of them is none of the text: it lies
beyond the end, or inside a character. -/
def slice? (text : String) (start stop : Nat) : Option String :=
  if h : start ≤ stop ∧ (String.Pos.Raw.mk start).IsValid text ∧ (String.Pos.Raw.mk stop).IsValid text then
    some (String.extract ⟨⟨start⟩, h.2.1⟩ ⟨⟨stop⟩, h.2.2⟩)
  else none

/-- The end of a first part is a position. -/
theorem isValid_append (before after : String) : (String.Pos.Raw.mk before.utf8ByteSize).IsValid (before ++ after) :=
  String.Pos.Raw.isValid_iff_exists_append.2 ⟨before, after, rfl, rfl⟩

/-- **A part is the slice between its two ends.** -/
theorem slice?_append (before part after : String) :
    slice? (before ++ part ++ after) before.utf8ByteSize (before ++ part).utf8ByteSize = some part := by
  have order : before.utf8ByteSize ≤ (before ++ part).utf8ByteSize := by
    rw [String.utf8ByteSize_append]
    exact Nat.le_add_right _ _
  have start : (String.Pos.Raw.mk before.utf8ByteSize).IsValid (before ++ part ++ after) := by
    rw [String.append_assoc]
    exact isValid_append before (part ++ after)
  have bytes (a b c : ByteArray) : (a ++ b ++ c).extract a.size (a ++ b).size = b := by
    rw [ByteArray.extract_append_size_left, ByteArray.size_append]
    exact (ByteArray.extract_append_size_add (i := 0)).trans ByteArray.extract_zero_size
  rw [slice?, dif_pos ⟨order, start, isValid_append (before ++ part) after⟩, Option.some.injEq,
    ← String.toByteArray_inj]
  simp only [String.extract, String.toByteArray_append, ← String.size_toByteArray]
  exact bytes _ _ _

/-- A character adds its bytes. -/
theorem utf8ByteSize_ofList_cons (c : Char) (cs : List Char) :
    (String.ofList (c :: cs)).utf8ByteSize = c.utf8Size + (String.ofList cs).utf8ByteSize := by
  rw [← List.singleton_append, String.ofList_append, String.utf8ByteSize_append, ← String.singleton_eq_ofList,
    String.utf8ByteSize_singleton]

/-- The position after one more character. -/
theorem utf8ByteSize_append_char (before : String) (c : Char) :
    before.utf8ByteSize + c.utf8Size = (before ++ String.ofList [c]).utf8ByteSize := by
  rw [String.utf8ByteSize_append, utf8ByteSize_ofList_cons]
  simp

theorem utf8ByteSize_append_snoc (before : String) (part : List Char) (c : Char) :
    (before ++ String.ofList (part ++ [c])).utf8ByteSize =
      (before ++ String.ofList part).utf8ByteSize + c.utf8Size := by
  rw [String.ofList_append, ← String.append_assoc, ← utf8ByteSize_append_char]

theorem append_ofList_cons (before : String) (c : Char) (cs : List Char) :
    (before ++ String.ofList [c]) ++ String.ofList cs = before ++ String.ofList (c :: cs) := by
  rw [String.append_assoc, ← String.ofList_append, List.singleton_append]

/-- The next characters are the slice between where they start and where they stop. -/
theorem slice?_ofList (before : String) (part rest : List Char) :
    slice? (before ++ String.ofList (part ++ rest)) before.utf8ByteSize (before ++ String.ofList part).utf8ByteSize =
      some (String.ofList part) := by
  rw [String.ofList_append, ← String.append_assoc]
  exact slice?_append before _ _

/-- The characters of a text, each with its position, where the text starts at a position. -/
def positions : Nat → List Char → List (Nat × Char)
  | _, [] => []
  | n, c :: cs => (n, c) :: positions (n + c.utf8Size) cs

/-- The position of the next character, or the end of the text. -/
def position (text : String) (ahead : List (Nat × Char)) : Nat :=
  (ahead.head?.map Prod.fst).getD text.utf8ByteSize

theorem position_positions (before : String) (cs : List Char) :
    position (before ++ String.ofList cs) (positions before.utf8ByteSize cs) = before.utf8ByteSize := by
  cases cs <;> simp [position, positions]

theorem position_ofList (before : String) (part rest : List Char) :
    position (before ++ String.ofList (part ++ rest)) (positions (before ++ String.ofList part).utf8ByteSize rest) =
      (before ++ String.ofList part).utf8ByteSize := by
  rw [String.ofList_append, ← String.append_assoc]
  exact position_positions _ rest

/-- To pass over characters of a class is to pass over their bytes. -/
theorem dropWhile_positions (p : Char → Bool) (before : String) (cs : List Char) :
    (positions before.utf8ByteSize cs).dropWhile (fun d => p d.2) =
      positions (before ++ String.ofList (cs.takeWhile p)).utf8ByteSize (cs.dropWhile p) := by
  induction cs generalizing before with
  | nil => rfl
  | cons c cs ih =>
    cases hc : p c with
    | false => simp [positions, hc]
    | true =>
      rw [positions, utf8ByteSize_append_char, List.dropWhile_cons_of_pos (by exact hc), ih,
        List.takeWhile_cons_of_pos hc, List.dropWhile_cons_of_pos hc, append_ofList_cons]

example : slice? "aäb" 1 3 = some "ä" := by decide +kernel

example : slice? "aäb" 1 2 = none := by decide +kernel

end ShaderWeave.Text
