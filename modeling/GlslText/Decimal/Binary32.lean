/-!
# Binary32 words

A binary32 word has a sign bit, eight bits of exponent and twenty-three bits of fraction.
A finite word denotes plus or minus `mantissa * 2 ^ exponent`. Words below the least normal one
share the exponent of that one and have no leading bit.
-/

namespace GlslText

/-- What a binary32 word denotes. -/
inductive Binary32 where
  /-- No number. -/
  | nan
  /-- An infinity of either sign. -/
  | infinite (negative : Bool)
  /-- Plus or minus `mantissa * 2 ^ exponent`; zero has a sign too. -/
  | finite (negative : Bool) (mantissa : Nat) (exponent : Int)
deriving DecidableEq, Repr

namespace Binary32

/-- The exponent of the least units a word can count in. -/
def leastExponent : Int := -149

/-- The mantissa of a power of two, the first one with a leading bit. -/
def leadingBit : Nat := 0x800000

/-- Reads the three fields of a word. -/
def ofBits (bits : UInt32) : Binary32 :=
  let negative := bits.toNat / 0x80000000 == 1
  let field := bits.toNat / leadingBit % 256
  let fraction := bits.toNat % leadingBit
  if field = 255 then
    if fraction = 0 then infinite negative else nan
  else if field = 0 then
    finite negative fraction leastExponent
  else
    finite negative (leadingBit + fraction) (leastExponent + (field - 1 : Nat))

/-- The magnitude of a finite word. -/
def magnitude (mantissa : Nat) (exponent : Int) : Rat :=
  mantissa * (2 : Rat) ^ exponent

/-- The least rational that rounds to the magnitude or lies on the border of those that do.
Below a power of two the words are twice as dense, unless it is the least normal word. -/
def lowerBorder (mantissa : Nat) (exponent : Int) : Rat :=
  if mantissa = leadingBit ∧ leastExponent < exponent then
    (4 * mantissa - 1 : Rat) * (2 : Rat) ^ (exponent - 2)
  else
    (2 * mantissa - 1 : Rat) * (2 : Rat) ^ (exponent - 1)

/-- The greatest rational that rounds to the magnitude or lies on the border of those that do. -/
def upperBorder (mantissa : Nat) (exponent : Int) : Rat :=
  (2 * mantissa + 1 : Rat) * (2 : Rat) ^ (exponent - 1)

/-- Whether a rational rounds to the magnitude: it lies between the borders, and a border itself
goes to the word whose mantissa is even. -/
def reads (mantissa : Nat) (exponent : Int) (x : Rat) : Bool :=
  if mantissa % 2 = 0 then
    decide (lowerBorder mantissa exponent ≤ x ∧ x ≤ upperBorder mantissa exponent)
  else
    decide (lowerBorder mantissa exponent < x ∧ x < upperBorder mantissa exponent)

end Binary32

end GlslText
