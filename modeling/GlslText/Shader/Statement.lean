import GlslText.Shader.Expr

/-!
# Statements of a shader

A shader is a list of statements. Declarations, structures, buffers and functions may stand at
any level, but only those of the outermost list are global.
-/

namespace GlslText

/-- A declared variable. -/
structure Declaration where
  name : String
  ty : Ty
  /-- The register it is bound to. -/
  register : Option String
  /-- A free annotation. -/
  annotation : Option String
  /-- The initial values: one for a plain variable, all elements for an array. -/
  initializer : List Expr

/-- A field of a structure. -/
structure Field where
  name : String
  ty : Ty
  /-- What the field means to the pipeline. -/
  semantic : Option String
  /-- A mark for the precision of the field. -/
  modifier : Option String

/-- A structure. -/
structure Struct where
  name : String
  fields : List Field

/-- The first field of the given name. -/
def Struct.field? (struct : Struct) (name : String) : Option Field :=
  struct.fields.find? fun field => field.name == name

/-- How an argument is passed. -/
inductive Passing where
  | plain
  | input
  | inOut
deriving DecidableEq, Repr

/-- An argument of a function. -/
structure Argument where
  name : String
  ty : Ty
  passing : Passing

/-- The head of a function. -/
structure Signature where
  name : String
  result : Ty
  /-- What the result means to the pipeline. -/
  semantic : Option String
  arguments : List Argument

/-- A statement. -/
inductive Statement where
  | declare (declaration : Declaration)
  | struct (definition : Struct)
  /-- A buffer of the given name, with the variable it holds. -/
  | buffer (name : String) (content : Declaration)
  | function (signature : Signature) (body : List Statement)
  | branch (condition : Expr) (whenTrue : List Statement) (whenFalse : Option (List Statement))
  | loop (start : Option Declaration) (condition step : Option Expr) (body : List Statement)
  | block (body : List Statement)
  | result (value : Option Expr)
  | discard
  | leave
  | next
  | evaluate (expr : Expr)

/-- A shader: its global statements in order. -/
abbrev Shader := List Statement

/-- A function with its body. -/
structure Function extends Signature where
  body : List Statement

namespace Shader

/-- The first global structure of the given name. -/
def struct? (shader : Shader) (name : String) : Option Struct :=
  shader.findSome? fun
    | .struct definition => if definition.name = name then some definition else none
    | _ => none

/-- The first global function of the given name. -/
def function? (shader : Shader) (name : String) : Option Function :=
  shader.findSome? fun
    | .function signature body => if signature.name = name then some ⟨signature, body⟩ else none
    | _ => none

/-- The first global variable of the given name; a buffer declares the variable it holds. -/
def declaration? (shader : Shader) (name : String) : Option Declaration :=
  shader.findSome? fun
    | .declare declaration => if declaration.name = name then some declaration else none
    | .buffer _ content => if content.name = name then some content else none
    | _ => none

end Shader

end GlslText
