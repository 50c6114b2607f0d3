import GlslText.Feature.Scan
import GlslText.Glsl.Term
import GlslText.Interface.ColorOutput
import GlslText.Interface.Sampler
import GlslText.Lowering.Intrinsic

/-!
# From expressions to terms

An expression becomes a term under a hint, the type its surroundings expect. Where the base types
differ the term is enclosed in a constructor of the expected type, unless the expression is a cast
itself. Fields of stage structures become variables of the interface, samplers become texture
units, and built-in functions take their name in the generated language or the operator they
stand for.
-/

namespace GlslText

/-- What a text is generated from. -/
structure Context where
  shader : Shader
  profile : Profile
  entry : Function
  interface : Interface
  features : Features

namespace Context

/-- The context of an entry of a shader. Only a fragment entry writes colour outputs. -/
def ofEntry (shader : Shader) (profile : Profile) (entry : Function) : Context :=
  let interface := Interface.ofEntry shader entry
  { shader, profile, entry, interface
    features := shader.features (if profile.isFragment then interface.output else none) }

/-- The variable of a colour output in the generation that is written. -/
def colorName (c : Context) (slot : Slot) : Glsl.Name :=
  .color c.profile.generation (c.features.contains .multipleTargets) slot.index

/-- An identifier. A sampler that is declared globally stands for its texture unit. -/
def identifier (c : Context) (name : String) (ty : Ty) : Glsl.Term :=
  let plain := Glsl.Term.named (.source name) ""
  if ty.base.isSampler then
    match (c.shader.declaration? name).filter fun found => found.ty.base.isSampler with
    | none => plain
    | some found =>
      match found.textureUnit with
      | .ok unit => .named (.texture c.profile.stage unit) ""
      | .error fault => .faulty fault plain
  else
    plain

/-- The variable that a field is bound to, cut down to the components of the field where the
variable has four. -/
def boundField (c : Context) (field : Field) : Binding → Glsl.Term
  | .builtIn variableName => .named (.word variableName) ""
  | .vertexInput isWidened =>
    .named (.vertexInput field.name) (if isWidened then field.ty.base.narrowing else "")
  | .varying => .named (.varying field.name) ""
  | .color slot => .named (c.colorName slot) field.ty.base.narrowing

/-- The variable that a field of an object of the given type is bound to, if the type is a stage
structure with such a field. -/
def stageField? (c : Context) (object : Ty) (name : String) : Option Glsl.Term := do
  let role := c.interface.roleOf object
  let field ← (← c.interface.struct? role).field? name
  let binding ← field.binding? c.profile.stage role
  return c.boundField field binding

/-- The selection of a field from an object. A scalar has no components to select: it is repeated
by a helper function, or stands alone when there is none for the length of the field. -/
def member (c : Context) (object : Ty) (field : String) (term : Glsl.Term) : Glsl.Term :=
  match c.stageField? object field with
  | some bound => bound
  | none =>
    if object.base.isNumericScalar then
      match Helper.ofSwizzle? field.utf8ByteSize with
      | some helper => .apply (.helper helper) [term]
      | none => .group term
    else
      .select term (.source field)

/-- A call with its arguments as terms. The product of matrices takes its factors in the opposite
order, and saturation is a clamp between zero and one; called with another number of arguments
both come to nothing. In the modern generation a read of a colour output is its variable. -/
def call (c : Context) (callee : String) (arguments : List Expr) (terms : List Glsl.Term) :
    Glsl.Term :=
  let plain := Glsl.Term.apply (calleeName c.profile callee) terms
  if callee = fetchCallee then
    match fetchTarget arguments with
    | .ok slot => if c.profile.isLegacy then plain else .named (.color .modern true slot) ""
    | .error cause => .faulty (.fetch cause) plain
  else if alike callee "mul" then
    match terms with
    | [left, right] => .product right left
    | _ => .faulty (.arity "mul" 2 terms.length) .missing
  else if alike callee "saturate" then
    match terms with
    | [value] => .apply (.word "clamp") [value, .ofWord "0.0", .ofWord "1.0"]
    | _ => .faulty (.arity "saturate" 1 terms.length) .missing
  else
    plain

end Context

/-- The type that the left operand is expected to have, given the type of the operation. -/
def BinaryOp.leftHint (op : BinaryOp) (ty : Ty) : Option Ty :=
  match op with
  | arithmetic .add => some ty
  | arithmetic .sub => some ty
  | and => some ty
  | or => some ty
  | _ => none

/-- The type that the right operand is expected to have, given the type of the operation. -/
def BinaryOp.rightHint (op : BinaryOp) (ty : Ty) : Option Ty :=
  if op.isAssignment then some ty else op.leftHint ty

/-- Whether an expression is converted to the type it is expected to have. -/
def Expr.needsCast (e : Expr) (target : Ty) : Bool :=
  target.base != e.ty.base && !e.isCast

/-- Encloses the term of an expression in a constructor of the expected type where it is needed. -/
def castTo (hint : Option Ty) (e : Expr) (term : Glsl.Term) : Glsl.Term :=
  match hint with
  | some target => if e.needsCast target then .apply target.glslName [term] else term
  | none => term

/-- The type of conditions. -/
def boolTy : Ty := Ty.ofBase .bool

mutual

/-- The term of an expression under a hint. -/
def Expr.lower (c : Context) (hint : Option Ty) (e : Expr) : Glsl.Term :=
  castTo hint e <|
    match e with
    | .identifier name ty => c.identifier name ty
    | .literal value _ => .literal value
    | .unary op operand ty => .unary op (operand.lower c (if op = .not then some ty else none))
    | .binary op left right ty =>
      .binary op (left.lower c (op.leftHint ty)) (right.lower c (op.rightHint ty))
    | .conditional condition whenTrue whenFalse ty =>
      .conditional (condition.lower c (some boolTy)) (whenTrue.lower c (some ty))
        (whenFalse.lower c (some ty))
    | .member object field _ => c.member object.ty field (object.lower c none)
    | .index array position _ => .index (array.lower c none) (position.lower c none)
    | .call callee arguments parameters _ =>
      c.call callee arguments (Expr.lowerAll c parameters arguments)
    | .construct arguments ty => .apply ty.glslName (Expr.lowerAll c [] arguments)
    | .cast operand ty => .apply ty.glslName [operand.lower c none]

/-- The terms of arguments under the types of their parameters; an argument without a parameter
has no hint. -/
def Expr.lowerAll (c : Context) (parameters : List Ty) : List Expr → List Glsl.Term
  | [] => []
  | e :: rest => e.lower c parameters.head? :: Expr.lowerAll c parameters.tail rest

end

end GlslText
