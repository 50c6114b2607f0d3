import GlslText.Glsl.Stmt
import GlslText.Lowering.Term
import GlslText.Text.Occurrence

/-!
# From statements to statements of the text

Global declarations become uniforms, constants, macros or samplers, local ones plain variables.
Stage structures, variables of their types and textures leave no trace. The entry itself is not a
function of the text: its body is the body of `main`, where values are returned by storing them in
the variable that the semantic of the entry names.
-/

namespace GlslText

/-- Where a statement stands. -/
structure Scope where
  /-- Whether it is one of the shader's own list. -/
  isGlobal : Bool
  /-- Whether it stands inside `main`, also in a function there. -/
  inMain : Bool
  /-- The type of what is returned, inside a function. -/
  result : Option Ty

namespace Scope

/-- The scope of the shader's own list. -/
def global : Scope :=
  ⟨true, false, none⟩

/-- The scope of a body. -/
def inner (scope : Scope) : Scope :=
  { scope with isGlobal := false }

/-- The scope of the body of a function. -/
def ofFunction (scope : Scope) (signature : Signature) : Scope :=
  ⟨false, scope.inMain, some signature.result⟩

end Scope

/-- The effect of an expression whose value is not used. An assignment needs no brackets. -/
def Expr.lowerEffect (c : Context) (e : Expr) : Glsl.Effect :=
  match e with
  | .binary op left right ty =>
    if op.isAssignment then .store op (left.lower c none) (right.lower c (some ty))
    else .evaluate (e.lower c none)
  | _ => .evaluate (e.lower c none)

/-- The brackets of a type with its size. -/
def Ty.lowerBrackets (c : Context) (ty : Ty) : Glsl.Brackets :=
  ⟨ty.size.map (Expr.lower c none)⟩

/-- A name with its type, and the brackets of an array. -/
def Ty.declarator (c : Context) (ty : Ty) (name : String) : Glsl.Declarator where
  type := ty.glslName
  name := .source name
  brackets := if ty.isArray then some (ty.lowerBrackets c) else none
  initial := none

/-- The initial values of a declaration as an array. -/
def Declaration.arrayLiteral (c : Context) (declaration : Declaration) : Glsl.ArrayLiteral where
  element := declaration.ty.glslName
  brackets := declaration.ty.lowerBrackets c
  values := Expr.lowerAll c [] declaration.initializer

/-- What a declared variable starts with: all its values if it is an array, else the first. -/
def Declaration.initial? (c : Context) (declaration : Declaration) : Option Glsl.Initial :=
  match declaration.initializer with
  | [] => none
  | first :: _ =>
    if declaration.ty.isArray then some (.array (declaration.arrayLiteral c))
    else some (.value (first.lower c (some declaration.ty)))

/-- A declared variable with what it starts with. -/
def Declaration.declarator (c : Context) (declaration : Declaration) : Glsl.Declarator :=
  { declaration.ty.declarator c declaration.name with initial := declaration.initial? c }

/-- Whether a declaration leaves no trace: textures, and variables of stage structures. -/
def Declaration.isSuppressed (c : Context) (declaration : Declaration) : Bool :=
  declaration.ty.base == .texture || c.interface.roleOf declaration.ty != .generic

/-- A declaration among the shader's own statements. A property is a macro if it is an array and
else a local variable of `main`. -/
def Declaration.lowerGlobal (c : Context) (declaration : Declaration) : List Glsl.Stmt :=
  if declaration.ty.isProperty then
    if declaration.ty.isArray && !declaration.initializer.isEmpty then
      [.define (.source declaration.name) (.array (declaration.arrayLiteral c))]
    else
      []
  else if declaration.ty.base.isSampler then
    match declaration.textureUnit with
    | .ok unit =>
      [.sampler c.profile.isMobile declaration.ty.base (.texture c.profile.stage unit)]
    | .error fault => [.faulty fault]
  else
    [.declare (if declaration.ty.isConst then .const else .uniform) (declaration.declarator c)]

/-- A declaration at any place. -/
def Declaration.lower (c : Context) (scope : Scope) (declaration : Declaration) :
    List Glsl.Stmt :=
  if declaration.isSuppressed c then []
  else if scope.isGlobal then declaration.lowerGlobal c
  else [.declare .plain (declaration.declarator c)]

/-- A structure; stage structures are taken apart into the interface. -/
def Struct.lower (c : Context) (struct : Struct) : List Glsl.Stmt :=
  if c.interface.role struct.name = .generic then
    [.struct (.source struct.name)
      (struct.fields.map fun field => field.ty.declarator c field.name)]
  else
    []

/-- The register that a buffer is declared under, if it is annotated as a big array. -/
def Declaration.bigArrayRegister? (content : Declaration) : Option String :=
  if content.annotation.any fun note => occursIn "bigarray" note then content.register
  else none

/-- A buffer is a uniform array. A big array is declared under its register, and a macro leads
there from its name. -/
def Declaration.lowerBuffer (c : Context) (content : Declaration) : List Glsl.Stmt :=
  let uniform (name : Glsl.Name) : Glsl.Stmt :=
    .declare .uniform {
      type := content.ty.glslName
      name := name
      brackets := some (content.ty.lowerBrackets c)
      initial := none }
  match content.bigArrayRegister? with
  | none => [uniform (.source content.name)]
  | some register =>
    [uniform (.verbatim register), .define (.source content.name) (.name (.verbatim register))]

/-- The head of a function. -/
def Signature.prototype (c : Context) (signature : Signature) : Glsl.Prototype where
  result := signature.result.glslName
  name := .source signature.name
  parameters := signature.arguments.map fun argument =>
    ⟨argument.passing, argument.ty.declarator c argument.name⟩

/-- The variable that the semantic of the entry names, cut down to the type it returns. -/
def Context.returnVariable? (c : Context) : Option Glsl.Term := do
  let semantic ← c.entry.semantic
  match builtIn? semantic with
  | some variableName => return .named (.word variableName) ""
  | none =>
    let slot ← Slot.ofSemantic? semantic
    return .named (c.colorName slot) c.entry.result.base.narrowing

/-- A value that is returned. Inside `main` a stage structure has been stored field by field
already, and any other value is stored in the variable of the entry if there is one. -/
def Expr.lowerResult (c : Context) (scope : Scope) (value : Expr) : List Glsl.Stmt :=
  let plain : List Glsl.Stmt := [.result (some (value.lower c scope.result))]
  if scope.inMain then
    if c.interface.roleOf value.ty = .output then
      [.result none]
    else
      match c.returnVariable? with
      | some place =>
        [.effect (.store .assign place (value.lower c (some c.entry.result))), .result none]
      | none => plain
  else
    plain

namespace Statement

mutual

/-- The statements of the text that a statement becomes. -/
def lower (c : Context) (scope : Scope) : Statement → List Glsl.Stmt
  | declare declaration => declaration.lower c scope
  | struct definition => definition.lower c
  | buffer _ content => content.lowerBuffer c
  | function signature body =>
    if signature.name = c.entry.name then []
    else [.function (signature.prototype c) (lowerAll c (scope.ofFunction signature) body)]
  | branch condition whenTrue none =>
    [.branch (condition.lower c (some boolTy)) (lowerAll c scope.inner whenTrue) none]
  | branch condition whenTrue (some whenFalse) =>
    [.branch (condition.lower c (some boolTy)) (lowerAll c scope.inner whenTrue)
      (some (lowerAll c scope.inner whenFalse))]
  | loop start condition step body =>
    [.loop (start.map (Declaration.declarator c)) (condition.map (Expr.lower c (some boolTy)))
      (step.map (Expr.lowerEffect c)) (lowerAll c scope.inner body)]
  | block body => [.block (lowerAll c scope.inner body)]
  | result none => [.result none]
  | result (some value) => value.lowerResult c scope
  | discard => if c.profile.isFragment then [.discard] else []
  | leave => [.leave]
  | next => [.next]
  | evaluate expr => [.effect (expr.lowerEffect c)]

/-- The statements of the text that a list of statements becomes. -/
def lowerAll (c : Context) (scope : Scope) : List Statement → List Glsl.Stmt
  | [] => []
  | s :: rest => s.lower c scope ++ lowerAll c scope rest

end

/-- Statements are lowered one after the other. -/
theorem lowerAll_eq_flatMap (c : Context) (scope : Scope) (statements : List Statement) :
    lowerAll c scope statements = statements.flatMap (lower c scope) := by
  induction statements with
  | nil => rfl
  | cons s rest ih => rw [lowerAll, ih, List.flatMap_cons]

end Statement

end GlslText
