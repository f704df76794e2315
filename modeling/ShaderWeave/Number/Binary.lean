/-!
# Binary floating-point patterns

The values of the IEEE 754 formats binary32 and binary64, held as their bit patterns. Two values are equal here if
their patterns are, so a value that is no number equals itself and the two zeros differ.

`BinaryFormat.nearest` rounds a fraction to a format, to the nearest value and in the middle to the even one. Patterns
of values that are not negative are ordered as the values are and count them up from zero, so the pattern is found
by arithmetic alone: the value is measured in the steps of the format at its size.
-/

namespace ShaderWeave

/-- A format of binary floating-point values. -/
structure BinaryFormat where
  /-- The bits of a significand, the leading one among them. -/
  precision : Nat
  /-- The least positive value is `2 ^ (-depth)`. -/
  depth : Nat
  /-- The bits of a pattern. -/
  width : Nat

/-- Single precision. -/
def BinaryFormat.single : BinaryFormat := ⟨24, 149, 32⟩

/-- Double precision. -/
def BinaryFormat.double : BinaryFormat := ⟨53, 1074, 64⟩

/-- The fraction `num / den`, rounded to a whole number. A half goes to the even neighbour. -/
def roundHalfEven (num den : Nat) : Nat :=
  let q := num / den
  let r := num % den
  if 2 * r < den then q
  else if den < 2 * r then q + 1
  else q + q % 2

namespace BinaryFormat

/-- The pattern of positive infinity. -/
def infinity (f : BinaryFormat) : Nat :=
  (Nat.pow 2 (f.width - f.precision) - 1) * Nat.pow 2 (f.precision - 1)

/-- The pattern of the sign alone, which is negative zero. -/
def negativeZero (f : BinaryFormat) : Nat :=
  Nat.pow 2 (f.width - 1)

/-- How often the step between neighbouring values, `2 ^ (-depth)` near zero, has doubled at the value `num / den`. -/
def doublings (f : BinaryFormat) (num den : Nat) : Nat :=
  let whole := num * Nat.pow 2 f.depth / den
  if whole = 0 then 0 else whole.log2 + 1 - f.precision

/-- The pattern of the value of the format nearest to `num / den`, which is infinity if that is too large. -/
def nearest (f : BinaryFormat) (num den : Nat) : Nat :=
  let s := f.doublings num den
  min (s * Nat.pow 2 (f.precision - 1) + roundHalfEven (num * Nat.pow 2 f.depth) (den * Nat.pow 2 s)) f.infinity

end BinaryFormat

/-- A single-precision value. -/
structure Single where
  /-- Its pattern. -/
  bits : UInt32
  deriving DecidableEq

/-- A double-precision value. -/
structure Double where
  /-- Its pattern. -/
  bits : UInt64
  deriving DecidableEq

/-- Positive zero. -/
def Single.zero : Single := ⟨0⟩

/-- Positive zero. -/
def Double.zero : Double := ⟨0⟩

end ShaderWeave
