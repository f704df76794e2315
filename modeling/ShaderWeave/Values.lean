import ShaderWeave.Number.Binary

/-!
# Values of uniforms

A scalar or a vector has one to nine components of one kind. `Values` holds the components, and `Element` says what
they are and how a declaration spells it: by a keyword for a scalar, by the letter before `vec` for a vector.
-/

namespace ShaderWeave

/-- What the components of a uniform are. -/
inductive Element where
  /-- Truth values. -/
  | boolean
  /-- Whole numbers of 32 bits with a sign. -/
  | integer
  /-- Whole numbers of 32 bits without a sign. -/
  | unsigned
  /-- Single-precision numbers. -/
  | single
  /-- Double-precision numbers. -/
  | double
  deriving DecidableEq

/-- The components of a scalar or a vector, in order. -/
inductive Values where
  /-- Truth values. -/
  | boolean (components : List Bool)
  /-- Whole numbers with a sign. -/
  | integer (components : List Int32)
  /-- Whole numbers without a sign. -/
  | unsigned (components : List UInt32)
  /-- Single-precision numbers. -/
  | single (components : List Single)
  /-- Double-precision numbers. -/
  | double (components : List Double)
  deriving DecidableEq

namespace Element

/-- The type that a keyword declares a scalar of. -/
def ofScalarKeyword? (word : String) : Option Element :=
  if word = "bool" then some .boolean
  else if word = "int" then some .integer
  else if word = "uint" then some .unsigned
  else if word = "float" then some .single
  else if word = "double" then some .double
  else none

/-- The type of the components of a vector, from the text before `vec`. Nothing stands for single precision. -/
def ofVectorPrefix? (word : String) : Option Element :=
  if word = "b" then some .boolean
  else if word = "i" then some .integer
  else if word = "u" then some .unsigned
  else if word = "" then some .single
  else if word = "d" then some .double
  else none

/-- As many zeros as asked for, where `false` is the zero of the truth values. -/
def zeros : Element → Nat → Values
  | .boolean, count => .boolean (List.replicate count false)
  | .integer, count => .integer (List.replicate count 0)
  | .unsigned, count => .unsigned (List.replicate count 0)
  | .single, count => .single (List.replicate count Single.zero)
  | .double, count => .double (List.replicate count Double.zero)

end Element

namespace Values

/-- The type of the components. -/
def element : Values → Element
  | .boolean _ => .boolean
  | .integer _ => .integer
  | .unsigned _ => .unsigned
  | .single _ => .single
  | .double _ => .double

/-- The number of components. -/
def size : Values → Nat
  | .boolean components => components.length
  | .integer components => components.length
  | .unsigned components => components.length
  | .single components => components.length
  | .double components => components.length

@[simp] theorem element_zeros (type : Element) (count : Nat) :
    (type.zeros count).element = type := by
  cases type <;> rfl

@[simp] theorem size_zeros (type : Element) (count : Nat) : (type.zeros count).size = count := by
  cases type <;> simp [Element.zeros, size]

end Values

end ShaderWeave
