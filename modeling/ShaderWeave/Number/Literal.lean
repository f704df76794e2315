import ShaderWeave.Number.Binary

/-!
# Number literals

What a number that is written in a declaration stands for. A literal is a run of digits, with one dot at most where a
fraction is allowed, and a sign that is read before it.

* `integer?` and `unsigned?` accept exactly the whole numbers in the range of 32 bits.
* `single?` and `double?` accept any number of digits. The value is the one nearest to the number written, found in
  one rounding, and a negative zero keeps its sign.
-/

namespace ShaderWeave.Literal

/-- The number that a run of digits spells, most significant first. -/
def natOfDigits (digits : List Char) : Nat :=
  digits.foldl (fun n c => 10 * n + (c.toNat - '0'.toNat)) 0

/-- A number of at least one digit and nothing else. -/
def nat? (text : List Char) : Option Nat :=
  if text ≠ [] ∧ text.all Char.isDigit then some (natOfDigits text) else none

/-- A number with its sign. -/
def int? (negative : Bool) (text : List Char) : Option Int :=
  (nat? text).map fun n => if negative then -(n : Int) else n

/-- A whole number from `-2 ^ 31` to `2 ^ 31 - 1`. -/
def integer? (negative : Bool) (text : List Char) : Option Int32 := do
  let n ← int? negative text
  if Int32.minValue.toInt ≤ n ∧ n ≤ Int32.maxValue.toInt then some (Int32.ofInt n) else none

/-- A whole number from `0` to `2 ^ 32 - 1`. -/
def unsigned? (negative : Bool) (text : List Char) : Option UInt32 := do
  let n ← if negative then none else nat? text
  if n < UInt32.size then some (UInt32.ofNat n) else none

/-- A fraction: the number that its digits spell, and how many of them stand after the dot. -/
structure Decimal where
  /-- The number that all digits spell, the dot left out. -/
  digits : Nat
  /-- The digits after the dot. -/
  places : Nat
  deriving DecidableEq

/-- Digits with at most one dot, which may come last. -/
def decimal? (text : List Char) : Option Decimal :=
  let whole := text.takeWhile (· ≠ '.')
  let fraction := (text.dropWhile (· ≠ '.')).drop 1
  (nat? (whole ++ fraction)).map fun n => ⟨n, fraction.length⟩

/-- The pattern of the value nearest to a decimal, under its sign. -/
def pattern? (f : BinaryFormat) (negative : Bool) (text : List Char) : Option Nat := do
  let d ← decimal? text
  let magnitude := f.nearest d.digits (Nat.pow 10 d.places)
  some (if negative then f.negativeZero + magnitude else magnitude)

/-- The single-precision value nearest to the number written. -/
def single? (negative : Bool) (text : List Char) : Option Single :=
  (pattern? .single negative text).map fun n => ⟨UInt32.ofNat n⟩

/-- The double-precision value nearest to the number written. -/
def double? (negative : Bool) (text : List Char) : Option Double :=
  (pattern? .double negative text).map fun n => ⟨UInt64.ofNat n⟩

end ShaderWeave.Literal
