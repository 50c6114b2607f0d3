import GlslText.Glsl.Name
import GlslText.Interface.Role

/-!
# Variables of the interface

The fields of the stage structures that are vertex inputs or carried between the stages are
declared in front of everything else. A declaration has a qualifier, on mobile platforms perhaps a
precision, a type and a name.
-/

namespace GlslText

/-- The word in front of a variable of the interface. -/
inductive Qualifier where
  | vertexInput
  | varying
  | input
  | output
deriving DecidableEq, Repr

/-- The spelling of a qualifier. -/
def Qualifier.text : Qualifier → String
  | vertexInput => "attribute"
  | varying => "varying"
  | input => "in"
  | output => "out"

/-- The qualifier of what a stage takes. -/
def Profile.inputQualifier (profile : Profile) : Qualifier :=
  match profile.generation, profile.stage with
  | .legacy, .vertex => .vertexInput
  | .legacy, .fragment => .varying
  | .modern, _ => .input

/-- The qualifier of what a stage returns. -/
def Profile.outputQualifier (profile : Profile) : Qualifier :=
  match profile.generation with
  | .legacy => .varying
  | .modern => .output

/-- A declared variable of the interface. -/
structure InterfaceVariable where
  qualifier : Qualifier
  precision : Option String
  type : Glsl.Name
  name : Glsl.Name
deriving DecidableEq, Repr

/-- The declaration of a variable. -/
def InterfaceVariable.text (names : Renaming) (var : InterfaceVariable) : String :=
  var.qualifier.text ++ " " ++ (var.precision.map (· ++ " ")).getD "" ++ var.type.text names ++ " "
    ++ var.name.text names ++ ";"

/-- The precision of a field carried between the stages. Only mobile platforms have one: the low
precision the field asks for, or medium precision for half precision types. -/
def Field.precision? (profile : Profile) (field : Field) : Option String :=
  if profile.isMobile then
    if field.modifier.any (alike "lowp") then some "lowp"
    else if field.ty.base.isHalf then some "mediump"
    else none
  else
    none

/-- The type an interface variable is declared with. The name of a structure stands as it is. -/
def Ty.interfaceName (ty : Ty) : Glsl.Name :=
  if ty.base = .userDefined then
    match ty.name with
    | some name => .verbatim name
    | none => .word "void"
  else
    .word ty.base.spelling

/-- The variable that carries a field between the stages. -/
def Field.varying (profile : Profile) (qualifier : Qualifier) (field : Field) :
    InterfaceVariable where
  qualifier := qualifier
  precision := field.precision? profile
  type := field.ty.interfaceName
  name := .varying field.name

/-- The variable of a field of the structure a stage takes. -/
def Field.inputVariable? (profile : Profile) (field : Field) : Option InterfaceVariable :=
  match field.binding? profile.stage .input with
  | some (.vertexInput isWidened) =>
    some {
      qualifier := profile.inputQualifier
      precision := none
      type := if isWidened then .word "vec4" else field.ty.interfaceName
      name := .vertexInput field.name }
  | some .varying => some (field.varying profile profile.inputQualifier)
  | _ => none

/-- The variable of a field of the structure a stage returns. -/
def Field.outputVariable? (profile : Profile) (field : Field) : Option InterfaceVariable :=
  match field.binding? profile.stage .output with
  | some .varying => some (field.varying profile profile.outputQualifier)
  | _ => none

/-- The variables of a stage: those of the structure it takes, and those that a vertex stage
returns. -/
def Interface.declared (interface : Interface) (profile : Profile) : List InterfaceVariable :=
  let taken := interface.input.toList.flatMap fun struct =>
    struct.fields.filterMap (Field.inputVariable? profile)
  let returned := interface.output.toList.flatMap fun struct =>
    struct.fields.filterMap (Field.outputVariable? profile)
  match profile.stage with
  | .vertex => taken ++ returned
  | .fragment => taken

end GlslText
