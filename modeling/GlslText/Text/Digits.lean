/-!
# Numbers written in decimal digits

A number is read from one or more of the digits `0` to `9`; zeros in front do not count.
-/

namespace GlslText

/-- The number that a text of decimal digits stands for; no other text stands for one. -/
def readDigits (chars : List Char) : Option Nat :=
  if chars ≠ [] ∧ chars.all Char.isDigit then some (Nat.ofDigitChars 10 chars 0) else none

end GlslText
