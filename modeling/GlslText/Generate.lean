import GlslText.Glsl.Program
import GlslText.Lowering.Stmt
import GlslText.Profile.Preamble

/-!
# Generating a text

The text of an entry is the program that its shader is lowered to, written with names that clash
with nothing. Generation fails when there is no such entry, when no free name is left, or with the
first fault of the program.
-/

namespace GlslText

/-- The properties of a shader that are local variables of `main`. -/
def Shader.localProperties (shader : Shader) : List Declaration :=
  shader.filterMap fun
    | .declare declaration =>
      if declaration.ty.isProperty && !declaration.ty.isArray then some declaration else none
    | _ => none

namespace Context

/-- Whether colour outputs are declared: by the fragment stage of the modern generation. -/
def declaresOutputs (c : Context) : Bool :=
  c.profile.isFragment && !c.profile.isLegacy

/-- The scope of the body of `main`. -/
def mainScope (c : Context) : Scope :=
  ⟨false, true, some c.entry.result⟩

/-- The program that a shader becomes. -/
def program (c : Context) : Glsl.Program where
  preamble := c.profile.preamble c.features
  declared := c.interface.declared c.profile
  outputs :=
    if c.declaresOutputs then
      resolveOutputs (c.interface.slots c.entry) c.shader.fetchedSlots
    else
      []
  outputFaults := if c.declaresOutputs then c.shader.fetchFaults else []
  helpers := Features.helpers c.profile c.features
  globals := Statement.lowerAll c Scope.global c.shader
  properties := c.shader.localProperties.map (Declaration.declarator c)
  body := Statement.lowerAll c c.mainScope c.entry.body

end Context

/-- What generation gives. -/
structure Output where
  text : String
  dialect : Dialect
  features : Features
deriving DecidableEq, Repr

/-- Generates the text of an entry of a shader for a profile. -/
def generate (shader : Shader) (profile : Profile) (entryName : String) : Except Fault Output :=
  match shader.function? entryName with
  | none => .error (.missingEntry entryName)
  | some entry =>
    match Renaming.ofTokens shader.tokens with
    | .error fault => .error fault
    | .ok names =>
      let context := Context.ofEntry shader profile entry
      match context.program.faults with
      | fault :: _ => .error fault
      | [] =>
        .ok {
          text := context.program.text names
          dialect := profile.dialect
          features := context.features }

end GlslText
