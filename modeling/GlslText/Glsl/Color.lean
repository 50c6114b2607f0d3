import GlslText.Profile.Basic

/-!
# Variables of the colour outputs

The legacy generation has one variable for a single colour output and an array for several; the
modern generation declares a variable for each.
-/

namespace GlslText

/-- The variable of a colour output. With a single output its number does not matter. -/
def colorVariable (generation : Generation) (several : Bool) (slot : Nat) : String :=
  match generation, several with
  | .legacy, false => "gl_FragColor"
  | .legacy, true => "gl_FragData[" ++ toString slot ++ "]"
  | .modern, false => "out_FragColor0"
  | .modern, true => "out_FragColor" ++ toString slot

end GlslText
