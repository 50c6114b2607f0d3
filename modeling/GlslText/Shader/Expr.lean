import GlslText.Shader.Base

/-!
# Types and expressions of a shader

Every expression carries its type, and a type may carry an expression, the size of an array: the
two are defined together. The operations that build an expression without being told its type
derive it from the operands.
-/

namespace GlslText

/-- A literal value. A floating-point literal is its binary32 word. -/
inductive Literal where
  | float (bits : UInt32)
  | int (value : Int)
  | uint (value : Nat)
  | bool (value : Bool)
deriving DecidableEq, Repr

/-- Operators on one operand. -/
inductive UnaryOp where
  | negative
  | positive
  | not
  | preIncrement
  | preDecrement
  | postIncrement
  | postDecrement
deriving DecidableEq, Repr

/-- The four operations on numbers. -/
inductive Arithmetic where
  | add
  | sub
  | mul
  | div
deriving DecidableEq, Repr

/-- The comparisons. -/
inductive Comparison where
  | less
  | greater
  | lessEqual
  | greaterEqual
  | equal
  | notEqual
deriving DecidableEq, Repr

/-- Operators on two operands. -/
inductive BinaryOp where
  | arithmetic (op : Arithmetic)
  | compare (op : Comparison)
  | and
  | or
  /-- Stores the right operand. -/
  | assign
  /-- Stores the result of an operation on both operands. -/
  | update (op : Arithmetic)
deriving DecidableEq, Repr

/-- The operators that store into their left operand. -/
def BinaryOp.isAssignment : BinaryOp → Bool
  | assign => true
  | update _ => true
  | _ => false

mutual

/-- A type. The name and the size are kept for every base type; an array may have no size, and a
size does not make an array. -/
structure Ty where
  /-- What the type is apart from name and array part. -/
  base : BaseType
  /-- The name of the structure, for types the shader defines. -/
  name : Option String
  /-- Whether it is an array. -/
  isArray : Bool
  /-- The size of the array. -/
  size : Option Expr
  /-- Whether the value is constant. -/
  isConst : Bool
  /-- Whether the value is a property of the material. -/
  isProperty : Bool

/-- An expression with its type. -/
inductive Expr where
  | identifier (name : String) (ty : Ty)
  | literal (value : Literal) (ty : Ty)
  | unary (op : UnaryOp) (operand : Expr) (ty : Ty)
  | binary (op : BinaryOp) (left right : Expr) (ty : Ty)
  | conditional (condition whenTrue whenFalse : Expr) (ty : Ty)
  | member (object : Expr) (field : String) (ty : Ty)
  | index (array position : Expr) (ty : Ty)
  /-- A call, with the types its parameters were declared with. -/
  | call (callee : String) (arguments : List Expr) (parameters : List Ty) (ty : Ty)
  | construct (arguments : List Expr) (ty : Ty)
  | cast (operand : Expr) (ty : Ty)

end

namespace Ty

/-- The plain type of a base type. -/
def ofBase (base : BaseType) : Ty :=
  ⟨base, none, false, none, false, false⟩

/-- The name of the structure a type stands for; only user-defined types stand for one. -/
def structName (ty : Ty) : Option String :=
  if ty.base = .userDefined then ty.name else none

end Ty

namespace Expr

/-- The type of an expression. -/
def ty : Expr → Ty
  | identifier _ ty => ty
  | literal _ ty => ty
  | unary _ _ ty => ty
  | binary _ _ _ ty => ty
  | conditional _ _ _ ty => ty
  | member _ _ ty => ty
  | index _ _ ty => ty
  | call _ _ _ ty => ty
  | construct _ ty => ty
  | cast _ ty => ty

/-- Whether an expression is an explicit cast. -/
def isCast : Expr → Bool
  | cast _ _ => true
  | _ => false

/-- A literal with the type of its value. -/
def ofLiteral (value : Literal) : Expr :=
  .literal value <| Ty.ofBase <|
    match value with
    | .float _ => .float
    | .int _ => .int
    | .uint _ => .uint
    | .bool _ => .bool

/-- A negation has a truth value, every other unary operation the type of its operand. -/
def ofUnary (op : UnaryOp) (operand : Expr) : Expr :=
  .unary op operand (if op = .not then Ty.ofBase .bool else operand.ty)

/-- An assignment has the type of what is assigned to. -/
def ofAssign (left right : Expr) : Expr :=
  .binary .assign left right left.ty

/-- A conditional has the type of its first branch. -/
def ofConditional (condition whenTrue whenFalse : Expr) : Expr :=
  .conditional condition whenTrue whenFalse whenTrue.ty

/-- A call whose parameters are declared with the types of the arguments. -/
def ofCall (callee : String) (arguments : List Expr) (ty : Ty) : Expr :=
  .call callee arguments (arguments.map Expr.ty) ty

end Expr

/-- A call by itself: its callee, arguments and parameter types. -/
structure Call where
  callee : String
  arguments : List Expr
  parameters : List Ty

/-- The call an expression is, if it is one. -/
def Expr.call? : Expr → Option Call
  | .call callee arguments parameters _ => some ⟨callee, arguments, parameters⟩
  | _ => none

end GlslText
