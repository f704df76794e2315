import ShaderWeave.Proofs.Weave.Building

/-!
# Nested weaves are flat

A weave does not know how it was nested. To append what some texts make, when they are pushed onto an empty weave, is
to push the texts themselves (`Weave.append_pushed`), although an appended weave is cut into its finished lines, each
with one place, and those lines may have been put together from several texts.

So every weave that is built is one list of texts, pushed from the first to the last (`Weaving.weave_eq_pushed`), and so
is the woven text of a file, whatever it includes (`Journal.woven_eq_pushed`). `weaves_flatten` collects the laws.
-/

namespace ShaderWeave

/-- A text that is pushed, with the place it comes from. -/
abbrev PlacedText := String × Place

/-- The characters of a text, all with its place. -/
def PlacedText.marks (p : PlacedText) : List Mark :=
  p.1.toList.map fun c => (c, p.2)

namespace Weave

/-- Pushes texts, from the first to the last. -/
def pushAll (w : Weave) (ps : List PlacedText) : Weave :=
  ps.foldl (fun w p => w.push p.1 p.2) w

/-- The weave that some texts make. -/
def pushed (ps : List PlacedText) : Weave :=
  empty.pushAll ps

@[simp] theorem pushed_nil : pushed [] = empty := rfl

/-- To push texts is to write their characters. -/
theorem pushAll_eq_write (w : Weave) (ps : List PlacedText) : w.pushAll ps = w.write (ps.flatMap PlacedText.marks) := by
  induction ps generalizing w with
  | nil => simp [pushAll]
  | cons p ps ih =>
    have one : w.push p.1 p.2 = w.write p.marks := w.push_eq_write p.1 p.2
    rw [List.flatMap_cons, write_append, ← one]
    exact ih (w.push p.1 p.2)

theorem pushed_eq_write (ps : List PlacedText) : pushed ps = empty.write (ps.flatMap PlacedText.marks) :=
  empty.pushAll_eq_write ps

/-- To append what some texts make is to push them, whatever has been written before. -/
theorem append_pushed (w : Weave) (ps : List PlacedText) : w.append (pushed ps) = w.pushAll ps := by
  rw [pushed_eq_write, append_eq_write, pushAll_eq_write]

/-- To push texts goes on with the text of the weave. -/
theorem text_pushAll (w : Weave) (ps : List PlacedText) : w.text.toList <+: (w.pushAll ps).text.toList := by
  rw [pushAll_eq_write, write, String.toList_append]
  exact List.prefix_append _ _

/-- To push texts leaves the places that lines have. -/
theorem places_pushAll (w : Weave) (ps : List PlacedText) : w.places.toList <+: (w.pushAll ps).places.toList := by
  rw [pushAll_eq_write, write, Array.toList_append]
  exact List.prefix_append _ _

theorem pushed_append (ps qs : List PlacedText) : pushed (ps ++ qs) = (pushed ps).append (pushed qs) := by
  rw [append_pushed, pushed, pushAll, List.foldl_append]
  rfl

end Weave

/-! ### Weaves that are built -/

/-- The texts that are pushed, in order, also onto the weaves that are appended. -/
def Weaving.pushes : Weaving → List PlacedText
  | start => []
  | push before text place => before.pushes ++ [(text, place)]
  | append before other => before.pushes ++ other.pushes

/-- A weave that is built is what its texts make. -/
theorem Weaving.weave_eq_pushed (b : Weaving) : b.weave = Weave.pushed b.pushes := by
  induction b with
  | start => rfl
  | push before text place ih =>
    rw [weave, pushes, ih, Weave.pushed_append, Weave.append_pushed]
    rfl
  | append before other ih ih' => rw [weave, pushes, ih, ih', Weave.pushed_append]

/-! ### Woven texts -/

/-- The text that is pushed for a token of a file. -/
def Token.placed (file : Path) (t : Token) : PlacedText :=
  (t.render, ⟨file.text, t.line⟩)

/-- The text that is pushed for something that is put out, if it is written. -/
def Emission.placed? (x : Emission) : Option PlacedText :=
  x.output.written?.map (Token.placed x.file)

/-- The texts that are pushed for the woven text of a file, in order. Those of an included file stand where it was asked
for. -/
def Journal.pushes (file : Path) (j : Journal) : List PlacedText :=
  (emissions file j).filterMap Emission.placed?

theorem Emission.flatMap_marks (xs : List Emission) :
    xs.flatMap Emission.marks = (xs.filterMap Emission.placed?).flatMap PlacedText.marks := by
  induction xs with
  | nil => rfl
  | cons x xs ih =>
    rw [List.flatMap_cons, ih, List.filterMap_cons]
    cases h : x.output.written? with
    | none => simp [Emission.marks, Emission.placed?, h]
    | some t => simp [Emission.marks, Emission.placed?, h, PlacedText.marks, Token.marks, Token.placed]

namespace Journal

theorem pushes_append (file : Path) (j k : Journal) : pushes file (j ++ k) = pushes file j ++ pushes file k := by
  rw [pushes, emissions_append, List.filterMap_append, ← pushes, ← pushes]

/-- What is put out while a file is read pushes each token that is written. -/
theorem pushes_map_output (file : Path) (os : List Output) :
    pushes file (os.map .output) = (writtenTokens os).map (Token.placed file) := by
  rw [pushes, emissions_map_output, List.filterMap_map, writtenTokens, List.map_filterMap]
  rfl

/-- What a journal writes is what it pushes. -/
theorem write_eq_pushAll (file : Path) (w : Weave) (j : Journal) : write file w j = w.pushAll (pushes file j) := by
  rw [write_eq, Emission.flatMap_marks, ← Weave.pushAll_eq_write, pushes]

/-- The woven text of a file is what its texts make. -/
theorem woven_eq_pushed (file : Path) (j : Journal) : woven file j = Weave.pushed (pushes file j) :=
  write_eq_pushAll file .empty j

/-- More entries of a journal go on with its woven text. -/
theorem woven_append (file : Path) (j k : Journal) : woven file (j ++ k) = (woven file j).pushAll (pushes file k) := by
  rw [woven, write_append, write_eq_pushAll file (write file .empty j), ← woven]

end Journal

/-- **To append is to go on pushing:** the weaves that are built form a monoid under `append`, pushing carries lists of
texts over to it, and every weave that is built, and the woven text of every file, comes from one such list. -/
theorem weaves_flatten :
    (∀ ps qs : List PlacedText, (Weave.pushed ps).append (Weave.pushed qs) = Weave.pushed (ps ++ qs)) ∧
    (∀ a b c : Weaving, (a.weave.append b.weave).append c.weave = a.weave.append (b.weave.append c.weave)) ∧
    (∀ b : Weaving, Weave.empty.append b.weave = b.weave ∧ b.weave.append .empty = b.weave) ∧
    (∀ b : Weaving, b.weave = Weave.pushed b.pushes) ∧
    (∀ file j, Journal.woven file j = Weave.pushed (Journal.pushes file j)) := by
  refine ⟨fun ps qs => (Weave.pushed_append ps qs).symm, fun a b c => ?assoc, fun b => ⟨?left, ?right⟩,
    Weaving.weave_eq_pushed, Journal.woven_eq_pushed⟩
  case assoc =>
    rw [a.weave_eq_pushed, b.weave_eq_pushed, c.weave_eq_pushed]
    simp only [← Weave.pushed_append, List.append_assoc]
  case left => rw [b.weave_eq_pushed, Weave.append_pushed, Weave.pushed]
  case right => rw [b.weave_eq_pushed, ← Weave.pushed_nil, ← Weave.pushed_append, List.append_nil]

end ShaderWeave
