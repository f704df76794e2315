import ShaderWeave.Number.Literal
import ShaderWeave.Reader
import ShaderWeave.Scope
import ShaderWeave.Text.Search

/-!
# Declarations

A uniform or a field of a struct is declared by a type, a name, and for scalars and vectors the values it starts with:

    int count = -3;
    vec2 offset = (0.5, 1);
    Light light;

`declaration` reads from the token before the type to the semicolon. Only the type, the name and the semicolon are
copied to the woven text, with all blanks. A number that is out of range is reported and read as zero; any other
fault abandons the declaration.
-/

namespace ShaderWeave

/-- What a word in the place of a type stands for. -/
inductive VariableType where
  /-- A scalar, of size one, or a vector. -/
  | values (element : Element) (size : Nat)
  /-- A struct with the given fields. -/
  | group (fields : List Variable)

/-- The word that makes a type a vector. -/
def vectorMark : List Char :=
  "vec".toList

/-- The components of a vector type: its name is `vec` between the letter of a kind of components and one digit from
one to nine. -/
def vectorType? (word : String) : Option (Element × Nat) := do
  let (before, after) ← Text.splitFirst vectorMark word.toList
  let element ← Element.ofVectorPrefix? (String.ofList before)
  match after with
  | [digit] => if '1' ≤ digit ∧ digit ≤ '9' then some (element, digit.toNat - '0'.toNat) else none
  | _ => none

/-- The type that a word names. Scalars come first, then vectors, then structs. -/
def variableType? (types : Structs) (word : String) : Option VariableType :=
  match Element.ofScalarKeyword? word with
  | some element => some (.values element 1)
  | none =>
    match vectorType? word with
    | some (element, size) => some (.values element size)
    | none => types[word]?.map .group

/-- What is wrong with a word that names no type. -/
def typeProblem (word : String) : Problem :=
  if Text.contains vectorMark word.toList then .badVectorType word else .unknownType word

/-- How numbers of a type are written. -/
structure NumberForm (α : Type) where
  /-- A minus sign may stand before the number. -/
  signed : Bool
  /-- The number may have a dot, and a letter `f` at its end. -/
  fractional : Bool
  /-- The value of a number, from its sign and its digits. -/
  value? : Bool → List Char → Option α
  /-- The value in place of a number that has none. -/
  fallback : α

namespace NumberForm

/-- Whole numbers with a sign. -/
def integer : NumberForm Int32 := ⟨true, false, Literal.integer?, 0⟩

/-- Whole numbers without a sign. -/
def unsigned : NumberForm UInt32 := ⟨false, false, Literal.unsigned?, 0⟩

/-- Single-precision numbers. -/
def single : NumberForm Single := ⟨true, true, Literal.single?, Single.zero⟩

/-- Double-precision numbers. -/
def double : NumberForm Double := ⟨true, true, Literal.double?, Double.zero⟩

/-- The digits of a number token. The letter at the end of a fraction does not belong to them. -/
def digits {α : Type} (form : NumberForm α) (text : String) : List Char :=
  if form.fractional ∧ text.toList.getLast? = some 'f' then text.toList.dropLast else text.toList

/-- The kinds of tokens that hold such a number. -/
def kinds {α : Type} (form : NumberForm α) : List Token.Kind :=
  if form.fractional then [.float, .integer] else [.integer]

/-- What a message calls such a number. -/
def expected {α : Type} (form : NumberForm α) : String :=
  if form.fractional then "a floating point value" else "an integer value"

end NumberForm

namespace Reader

/-! ### Values -/

/-- Reads one of the words `true` and `false`. -/
def truthValue : Reader Bool := do
  demand .boolean "a boolean value"
  let t ← current
  if t.text = "true" then return true
  if t.text = "false" then return false
  report (.badTruthValue t.text)
  return false

/-- Reads a number with its sign. -/
def number {α : Type} (form : NumberForm α) : Reader α := do
  let negative := form.signed && (← here).nextKind = some .minus
  if negative then
    let _ ← expect [.minus] "a minus sign"
  demandOneOf form.kinds form.expected
  let digits := form.digits (← current).text
  match form.value? negative digits with
  | some value => return value
  | none =>
    report (.badNumber (String.ofList (if negative then '-' :: digits else digits)))
    return form.fallback

/-- Reads as many values as asked for, with commas between. -/
def list {α : Type} (one : Reader α) : Nat → Reader (List α)
  | 0 => return []
  | 1 => return [← one]
  | n + 2 => do
    let value ← one
    demand .comma "a comma separating values"
    return value :: (← list one (n + 1))

/-- Reads the values of a type, with commas between. -/
def values (size : Nat) : Element → Reader Values
  | .boolean => return .boolean (← list truthValue size)
  | .integer => return .integer (← list (number .integer) size)
  | .unsigned => return .unsigned (← list (number .unsigned) size)
  | .single => return .single (← list (number .single) size)
  | .double => return .double (← list (number .double) size)

/-- Reads the values a variable starts with. One value stands alone, several stand in parentheses, and where there is
no equals sign all are zero. -/
def initialValues (element : Element) (size : Nat) : Reader Values := do
  if (← here).nextKind ≠ some .equals then return element.zeros size
  demand .equals "an equals sign"
  if size = 1 then values size element
  else
    demand .openParen "an opening parenthesis"
    let vs ← values size element
    demand .closeParen "a closing parenthesis"
    return vs

/-! ### Declarations -/

/-- Reads the word under the cursor as a type. -/
def variableType (types : Structs) : Reader VariableType := do
  let t ← current
  match variableType? types t.text with
  | some type => return type
  | none =>
    report (typeProblem t.text)
    abandon

/-- Reads the values of a variable of the given type, where there is a place for them. -/
def variableOf (name : String) : VariableType → Reader Variable
  | .values element size => return .value name (← initialValues element size)
  | .group fields => return .group name fields

/-- Reads the declaration of a variable, from the token before it on. -/
def declaration (types : Structs) : Reader Variable := do
  demand .keyword "a type"
  let type ← variableType types
  copy
  demand .keyword "a variable name"
  let name := (← current).text
  copy
  let declared ← variableOf name type
  demand .semicolon "a semicolon"
  copy
  return declared

theorem steps_declaration_pos (types : Structs) (c : Cursor) : 0 < (declaration types c).steps :=
  Nat.lt_of_lt_of_le (steps_demand_pos .keyword "a type" c) (steps_le_steps_bind _ _ c)

end Reader

end ShaderWeave
