import GlslText.Decimal.Binary32

/-!
# The shortest decimal of a binary32 word

A decimal is a whole coefficient times a power of ten. The decimals with one exponent form a
grid, and a word lies between two neighbours on it. The shortest decimal of a word is found on
the coarsest grid where one of the two neighbours still reads back as the word; of two that do
the nearer one is taken, and when they are equally near the greater one.
-/

namespace GlslText

/-- The decimal `coefficient * 10 ^ exponent`. -/
structure Decimal where
  /-- The digits, read as a whole number. -/
  coefficient : Nat
  /-- The power of ten they count. -/
  exponent : Int
deriving DecidableEq, Repr

namespace Decimal

/-- The number a decimal stands for. -/
def value (d : Decimal) : Rat :=
  d.coefficient * (10 : Rat) ^ d.exponent

/-- The greatest decimal of a grid that is no greater than a number. -/
def below (x : Rat) (exponent : Int) : Decimal :=
  ⟨(x / (10 : Rat) ^ exponent).floor.toNat, exponent⟩

/-- The next decimal of the same grid. -/
def next (d : Decimal) : Decimal :=
  ⟨d.coefficient + 1, d.exponent⟩

/-- The neighbour that reads back as the word, if the grid is fine enough to have one. -/
def onGrid? (mantissa : Nat) (exponent : Int) (grid : Int) : Option Decimal :=
  let x := Binary32.magnitude mantissa exponent
  let low := below x grid
  let high := low.next
  match Binary32.reads mantissa exponent low.value, Binary32.reads mantissa exponent high.value with
  | true, true => if x - low.value < high.value - x then some low else some high
  | true, false => some low
  | false, true => some high
  | false, false => none

/-- The first hit on the grids from the given one down to finer ones, at most `fuel` of them;
then the greatest decimal below. -/
def firstHit (mantissa : Nat) (exponent : Int) (grid : Int) : Nat → Decimal
  | 0 => below (Binary32.magnitude mantissa exponent) grid
  | fuel + 1 => (onGrid? mantissa exponent grid).getD (firstHit mantissa exponent (grid - 1) fuel)

/-- The exponent of a grid coarser than every binary32 word. -/
def coarsest : Int := 39

/-- How many grids lie between the coarsest one and `10 ^ -45`, which is finer than the least
distance of two words. -/
def grids : Nat := 85

/-- The shortest decimal that reads back as a positive magnitude. -/
def shortest (mantissa : Nat) (exponent : Int) : Decimal :=
  firstHit mantissa exponent coarsest grids

/-- Decimal digits, with zeros in front up to the given number. -/
def padded (places number : Nat) : String :=
  String.ofList ((Nat.toDigits 10 number).leftpad places '0')

/-- A decimal without an exponent: all its digits, and a point with at least one digit after
it. -/
def positional (d : Decimal) : String :=
  if 0 ≤ d.exponent then
    toString (d.coefficient * Nat.pow 10 d.exponent.toNat) ++ ".0"
  else
    let places := (-d.exponent).toNat
    let unit := Nat.pow 10 places
    toString (d.coefficient / unit) ++ "." ++ padded places (d.coefficient % unit)

end Decimal

end GlslText
