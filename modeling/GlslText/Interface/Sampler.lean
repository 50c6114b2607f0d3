import GlslText.Fault
import GlslText.Shader.Statement
import GlslText.Text.Digits

/-!
# Registers of samplers

A sampler is bound to a texture unit by its register, which is the letter `s` in either case and
the number of the unit. The number fits in thirty-two bits.
-/

namespace GlslText

/-- The texture unit a register names. -/
def textureUnit? (register : String) : Option Nat :=
  match register.toList with
  | [] => none
  | letter :: digits =>
    if letter.toLower = 's' then
      (readDigits digits).filter fun n => decide (n < UInt32.size)
    else
      none

/-- The texture unit of a sampler, or what is wrong with its register. -/
def Declaration.textureUnit (declaration : Declaration) : Except Fault Nat :=
  match declaration.register with
  | none => .error (.missingRegister declaration.name)
  | some register =>
    match textureUnit? register with
    | some unit => .ok unit
    | none => .error (.invalidRegister declaration.name register)

end GlslText
