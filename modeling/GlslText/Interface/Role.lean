import GlslText.Interface.Slot
import GlslText.Profile.Basic
import GlslText.Shader.Statement

/-!
# Roles of structures and bindings of their fields

The structure of the entry's first argument is the input of the stage and the structure it
returns is the output; every other structure is generic. A field of a stage structure is bound to
a variable of the interface by the stage, the role and its semantic.
-/

namespace GlslText

/-- What a structure is to the entry. -/
inductive Role where
  | generic
  | input
  | output
deriving DecidableEq, Repr

/-- The structures of a stage. -/
structure Interface where
  input : Option Struct
  output : Option Struct

namespace Interface

/-- The global structures that the entry takes and returns. -/
def ofEntry (shader : Shader) (entry : Function) : Interface where
  input := do shader.struct? (← (← entry.arguments.head?).ty.structName)
  output := do shader.struct? (← entry.result.structName)

/-- The role of the structures of a name; one that is both taken and returned is an input. -/
def role (interface : Interface) (name : String) : Role :=
  if interface.input.any fun struct => struct.name == name then .input
  else if interface.output.any fun struct => struct.name == name then .output
  else .generic

/-- The role of the structure that a type stands for. -/
def roleOf (interface : Interface) (ty : Ty) : Role :=
  match ty.structName with
  | some name => interface.role name
  | none => .generic

/-- The structure that plays a role. -/
def struct? (interface : Interface) : Role → Option Struct
  | .generic => none
  | .input => interface.input
  | .output => interface.output

end Interface

/-- What a field of a stage structure stands for. -/
inductive Binding where
  /-- A variable of the language. -/
  | builtIn (variableName : String)
  /-- A vertex input; a widened one has four components whatever its type. -/
  | vertexInput (isWidened : Bool)
  /-- A variable carried between the stages. -/
  | varying
  /-- A colour output. -/
  | color (slot : Slot)
deriving DecidableEq, Repr

/-- The slot that the semantic of a field names. -/
def Field.slot? (field : Field) : Option Slot :=
  field.semantic.bind Slot.ofSemantic?

/-- The binding of a field by its semantic, in the structure a stage returns. -/
def Field.outputBinding (field : Field) : Binding :=
  match field.semantic.bind builtIn? with
  | some variableName => .builtIn variableName
  | none =>
    match field.slot? with
    | some slot => .color slot
    | none => .varying

/-- The binding of a field; fields of generic structures have none. -/
def Field.binding? (stage : Stage) (role : Role) (field : Field) : Option Binding :=
  match role, stage with
  | .generic, _ => none
  | .input, .vertex => some (.vertexInput (isWidened field.semantic))
  | .input, .fragment => some .varying
  | .output, _ => some field.outputBinding

end GlslText
