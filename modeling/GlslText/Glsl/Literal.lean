import GlslText.Decimal.Shortest
import GlslText.Shader.Expr

/-!
# Literals in the generated text

A floating-point literal is the shortest decimal that reads back as its word, always with a point
and never with an exponent. What is no number or infinite is written as a quotient that has that
value.
-/

namespace GlslText

/-- The text of a binary32 value. -/
def Binary32.text : Binary32 → String
  | nan => "(0.0 / 0.0)"
  | infinite false => "(1.0 / 0.0)"
  | infinite true => "(-1.0 / 0.0)"
  | finite negative mantissa exponent =>
    (if negative then "-" else "")
      ++ if mantissa = 0 then "0.0" else (Decimal.shortest mantissa exponent).positional

/-- An integer in decimal digits, with a minus in front if it is negative. -/
def signedText : Int → String
  | .ofNat n => toString n
  | .negSucc n => "-" ++ toString (n + 1)

/-- The text of a literal. -/
def Literal.text : Literal → String
  | float bits => (Binary32.ofBits bits).text
  | int value => signedText value
  | uint value => toString value
  | bool true => "true"
  | bool false => "false"

end GlslText
