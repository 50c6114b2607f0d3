import GlslText.Shader.Statement

/-!
# The walk over all expressions

The walk lists every expression of a shader, each before its operands and all in the order of the
text: sizes of declared arrays first, then initial values, the heads of branches and loops before
their bodies. Types of expressions and of call parameters are not entered.
-/

namespace GlslText

namespace Expr

mutual

/-- An expression and all expressions inside it, parents first. -/
def walk : Expr → List Expr
  | e@(identifier _ _) => [e]
  | e@(literal _ _) => [e]
  | e@(unary _ operand _) => e :: operand.walk
  | e@(binary _ left right _) => e :: (left.walk ++ right.walk)
  | e@(conditional condition whenTrue whenFalse _) =>
    e :: (condition.walk ++ whenTrue.walk ++ whenFalse.walk)
  | e@(member object _ _) => e :: object.walk
  | e@(index array position _) => e :: (array.walk ++ position.walk)
  | e@(call _ arguments _ _) => e :: walkAll arguments
  | e@(construct arguments _) => e :: walkAll arguments
  | e@(cast operand _) => e :: operand.walk

/-- The walks of several expressions, one after the other. -/
def walkAll : List Expr → List Expr
  | [] => []
  | e :: rest => e.walk ++ walkAll rest

end

/-- Walking a list is walking its members in turn. -/
theorem walkAll_eq_flatMap (es : List Expr) : walkAll es = es.flatMap walk := by
  induction es with
  | nil => rfl
  | cons e rest ih => rw [walkAll, ih, List.flatMap_cons]

/-- An expression is the first one of its own walk. -/
theorem mem_walk_self (e : Expr) : e ∈ e.walk := by
  cases e <;> simp [walk]

end Expr

/-- The expressions of the size of a type. -/
def Ty.walk (ty : Ty) : List Expr :=
  ty.size.toList.flatMap Expr.walk

/-- The expressions of a declaration: those of its size, then its initial values. -/
def Declaration.walk (declaration : Declaration) : List Expr :=
  declaration.ty.walk ++ declaration.initializer.flatMap Expr.walk

/-- The expressions of a function head: the sizes of the result and of the arguments. -/
def Signature.walk (signature : Signature) : List Expr :=
  signature.result.walk ++ signature.arguments.flatMap fun argument => argument.ty.walk

namespace Statement

mutual

/-- All expressions of a statement. -/
def walk : Statement → List Expr
  | declare declaration => declaration.walk
  | struct definition => definition.fields.flatMap fun field => field.ty.walk
  | buffer _ content => content.walk
  | function signature body => signature.walk ++ walkAll body
  | branch condition whenTrue none => condition.walk ++ walkAll whenTrue
  | branch condition whenTrue (some whenFalse) =>
    condition.walk ++ walkAll whenTrue ++ walkAll whenFalse
  | loop start condition step body =>
    start.toList.flatMap Declaration.walk ++ condition.toList.flatMap Expr.walk
      ++ step.toList.flatMap Expr.walk ++ walkAll body
  | block body => walkAll body
  | result value => value.toList.flatMap Expr.walk
  | discard => []
  | leave => []
  | next => []
  | evaluate expr => expr.walk

/-- All expressions of a list of statements. -/
def walkAll : List Statement → List Expr
  | [] => []
  | s :: rest => s.walk ++ walkAll rest

end

/-- Walking a list is walking its members in turn. -/
theorem walkAll_eq_flatMap (statements : List Statement) :
    walkAll statements = statements.flatMap walk := by
  induction statements with
  | nil => rfl
  | cons s rest ih => rw [walkAll, ih, List.flatMap_cons]

end Statement

namespace Shader

/-- All expressions of a shader. -/
def walk (shader : Shader) : List Expr :=
  Statement.walkAll shader

/-- All calls of a shader to the given callee, in the order of the walk. -/
def calls (shader : Shader) (callee : String) : List Call :=
  shader.walk.filterMap fun e => e.call?.filter fun call => call.callee == callee

end Shader

end GlslText
