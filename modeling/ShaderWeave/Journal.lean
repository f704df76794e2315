import ShaderWeave.Construct
import ShaderWeave.Weave

/-!
# Journals

The expansion of a file is recorded as a list of entries, in the order in which things happen. The expansion of another
file that it opens is one entry, which holds the journal of that file. All that an expansion puts out is a view of the
journal:

* `Journal.woven`: the woven text, in which an included file stands where it was asked for and a linked one does not
  appear;
* `Journal.diagnostics`: the problems of the file and of all files it opened;
* `Journal.calls`: what the provider was asked;
* `Journal.log`: the messages of the run.

But for the text these are lists, and they are made of what each entry shows (`IsView`), so they carry appending over.
-/

namespace ShaderWeave

/-- Which files have been opened, as a nested file needs to know. -/
structure Chain where
  /-- The files that have been included in this chain. They are not expanded again. -/
  visited : PathSet
  /-- The files that are being expanded, the outermost one first. -/
  active : List Path

/-- The chain before any file is opened. -/
def Chain.empty : Chain :=
  ⟨∅, []⟩

/-- The order to expand a file. -/
structure FileRequest where
  /-- The file. -/
  path : Path
  /-- The file must not be a template. -/
  standsAlone : Bool
  /-- What has been declared before. -/
  scope : Scope
  /-- Which files have been opened before. -/
  chain : Chain

/-- What the expansion of a file hands back to the one that asked for it. -/
structure FileResult where
  /-- What has been declared. -/
  scope : Scope
  /-- Which files have been opened. -/
  chain : Chain
  /-- The text of the vertex shader, if the file is one or has found one. -/
  vertex : Option Weave

/-- Something that happens while a file is expanded. -/
inductive Entry where
  /-- Something is written or reported while the file is read. -/
  | output (o : Output)
  /-- The file asks for another one. -/
  | request (manner : Manner) (written : String)
  /-- The provider resolves a path. -/
  | resolve (written : String) (answer : Except String Path)
  /-- The provider loads the file. -/
  | load (path : Path) (answer : Except String String)
  /-- The file has been cut into tokens. -/
  | lexed (tokens : Nat)
  /-- A declaration has been abandoned, and the cursor stands on the given line. -/
  | abandon (line : Nat)
  /-- A file is not expanded since it has been before. -/
  | skip (path : Path)
  /-- Another file is expanded. -/
  | expand (manner : Manner) (request : FileRequest) (result : FileResult) (body : List Entry)
  /-- The file lies deeper than files can be. -/
  | tooDeep (path : Path)

/-- A problem on a line of the file. -/
def Entry.problem (p : Problem) (line : Nat) : Entry :=
  .output (.problem p line)

/-- What happens while a file is expanded, in order. -/
abbrev Journal := List Entry

/-- A question to the provider. -/
inductive Call where
  /-- To resolve a written path. -/
  | resolve (written : String)
  /-- To load a file. -/
  | load (path : Path)
  deriving DecidableEq

/-- How important a message is. -/
inductive Level where
  /-- It says what is being done. -/
  | debug
  /-- It says what may be wrong. -/
  | warn
  deriving DecidableEq

/-- A message of the run. -/
structure LogLine where
  /-- How important it is. -/
  level : Level
  /-- Its text. -/
  text : String
  deriving DecidableEq

/-! ### Views of an entry -/

mutual

/-- The woven text after an entry of the journal of a file. -/
def Entry.write (file : Path) (w : Weave) : Entry → Weave
  | .output (.copy t) => w.push t.render ⟨file.text, t.line⟩
  | .output (.newline line) => w.push "\n" ⟨file.text, line⟩
  | .expand .included request _ body => w.append (Journal.write request.path .empty body)
  | _ => w

/-- The woven text after some entries of the journal of a file. -/
def Journal.write (file : Path) (w : Weave) : List Entry → Weave
  | [] => w
  | e :: j => Journal.write file (Entry.write file w e) j

end

mutual

/-- The diagnostics of an entry of the journal of a file. -/
def Entry.diagnostics (file : Path) : Entry → List Diagnostic
  | .output (.problem p line) => [⟨file.text, line, p⟩]
  | .expand _ request _ body => Journal.diagnostics request.path body
  | _ => []

/-- The diagnostics in the journal of a file, in the order in which they were found. -/
def Journal.diagnostics (file : Path) : List Entry → List Diagnostic
  | [] => []
  | e :: j => Entry.diagnostics file e ++ Journal.diagnostics file j

end

mutual

/-- What an entry asks of the provider. -/
def Entry.calls : Entry → List Call
  | .resolve written _ => [.resolve written]
  | .load path _ => [.load path]
  | .expand _ _ _ body => Journal.calls body
  | _ => []

/-- What is asked of the provider, in order. -/
def Journal.calls : List Entry → List Call
  | [] => []
  | e :: j => Entry.calls e ++ Journal.calls j

end

mutual

/-- The messages of an entry of the journal of a file. -/
def Entry.log (file : Path) : Entry → List LogLine
  | .lexed tokens => [⟨.debug, "Parsing " ++ file.text ++ " (" ++ toString tokens ++ " tokens)"⟩]
  | .abandon line =>
    [⟨.debug, file.text ++ "(" ++ toString line ++ "): skipped to the next semicolon"⟩]
  | .skip path => [⟨.debug, "Skipping " ++ path.text ++ "; already included"⟩]
  | .expand .included request _ body => Journal.log request.path body
  | .expand .linked request _ body =>
    ⟨.debug, "Linking vertex shader " ++ request.path.text ++ " into " ++ file.text⟩ ::
      Journal.log request.path body
  | _ => []

/-- The messages in the journal of a file, in order. -/
def Journal.log (file : Path) : List Entry → List LogLine
  | [] => []
  | e :: j => Entry.log file e ++ Journal.log file j

end

mutual

/-- The reads of tokens that a file does not have, each by the position of the token. -/
def Entry.misreads : Entry → List Nat
  | .output (.misread index) => [index]
  | .expand _ _ _ body => Journal.misreads body
  | _ => []

/-- The reads of tokens that a file does not have, of the file and of all files it opened. -/
def Journal.misreads : List Entry → List Nat
  | [] => []
  | e :: j => Entry.misreads e ++ Journal.misreads j

end

mutual

/-- The files of an entry that lie deeper than files can be. -/
def Entry.tooDeepFiles : Entry → List Path
  | .tooDeep path => [path]
  | .expand _ _ _ body => Journal.tooDeepFiles body
  | _ => []

/-- The files that lie deeper than files can be, of all files that were opened. -/
def Journal.tooDeepFiles : List Entry → List Path
  | [] => []
  | e :: j => Entry.tooDeepFiles e ++ Journal.tooDeepFiles j

end

/-! ### Views that are lists -/

/-- The view shows of a journal what it shows of the entries, one after another. -/
structure IsView {α : Type} (view : Journal → List α) (shown : Entry → List α) : Prop where
  /-- It shows nothing of no entries. -/
  nil : view [] = []
  /-- It shows the first entry first. -/
  cons : ∀ e j, view (e :: j) = shown e ++ view j

namespace IsView

variable {α : Type} {view : Journal → List α} {shown : Entry → List α} (h : IsView view shown)
include h

theorem eq_flatMap (j : Journal) : view j = j.flatMap shown := by
  induction j with
  | nil => exact h.nil
  | cons e j ih => rw [h.cons, ih, List.flatMap_cons]

theorem append (j k : Journal) : view (j ++ k) = view j ++ view k := by
  rw [h.eq_flatMap, h.eq_flatMap, h.eq_flatMap, List.flatMap_append]

theorem mem_iff {j : Journal} {x : α} : x ∈ view j ↔ ∃ e ∈ j, x ∈ shown e := by
  rw [h.eq_flatMap, List.mem_flatMap]

theorem eq_nil_iff {j : Journal} : view j = [] ↔ ∀ e ∈ j, shown e = [] := by
  rw [h.eq_flatMap, List.flatMap_eq_nil_iff]

theorem map_output (os : List Output) : view (os.map .output) = os.flatMap fun o => shown (.output o) := by
  rw [h.eq_flatMap, List.flatMap_map]

end IsView

namespace Journal

/-- The woven text of a file. -/
def woven (file : Path) (j : Journal) : Weave :=
  write file .empty j

@[simp] theorem write_append (file : Path) (w : Weave) (j k : Journal) :
    write file w (j ++ k) = write file (write file w j) k := by
  induction j generalizing w with
  | nil => simp [write]
  | cons e j ih => simp [write, ih]

theorem isView_diagnostics (file : Path) : IsView (diagnostics file) (Entry.diagnostics file) :=
  ⟨rfl, fun _ _ => rfl⟩

theorem isView_calls : IsView calls Entry.calls :=
  ⟨rfl, fun _ _ => rfl⟩

theorem isView_log (file : Path) : IsView (log file) (Entry.log file) :=
  ⟨rfl, fun _ _ => rfl⟩

theorem isView_misreads : IsView misreads Entry.misreads :=
  ⟨rfl, fun _ _ => rfl⟩

theorem isView_tooDeepFiles : IsView tooDeepFiles Entry.tooDeepFiles :=
  ⟨rfl, fun _ _ => rfl⟩

@[simp] theorem diagnostics_append (file : Path) (j k : Journal) :
    diagnostics file (j ++ k) = diagnostics file j ++ diagnostics file k :=
  (isView_diagnostics file).append j k

@[simp] theorem calls_append (j k : Journal) : calls (j ++ k) = calls j ++ calls k :=
  isView_calls.append j k

@[simp] theorem log_append (file : Path) (j k : Journal) : log file (j ++ k) = log file j ++ log file k :=
  (isView_log file).append j k

@[simp] theorem misreads_append (j k : Journal) : misreads (j ++ k) = misreads j ++ misreads k :=
  isView_misreads.append j k

@[simp] theorem tooDeepFiles_append (j k : Journal) :
    tooDeepFiles (j ++ k) = tooDeepFiles j ++ tooDeepFiles k :=
  isView_tooDeepFiles.append j k

end Journal

end ShaderWeave
