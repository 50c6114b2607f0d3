import GlslText.Shader.Walk
import GlslText.Text.Case

/-!
# The tokens of a shader

A token is a string of the shader that may end up as a name: names of all kinds, registers,
annotations, semantics and modifiers. Statements give the tokens they declare, expressions the
ones they use. The order and the number of times a token is listed have no meaning.
-/

namespace GlslText

/-- The name in a type, whatever its base type. -/
def Ty.tokens (ty : Ty) : List String :=
  ty.name.toList

/-- The tokens of a declaration. -/
def Declaration.tokens (declaration : Declaration) : List String :=
  declaration.name :: (declaration.ty.tokens ++ declaration.register.toList
    ++ declaration.annotation.toList)

/-- The tokens of a field. -/
def Field.tokens (field : Field) : List String :=
  field.name :: (field.ty.tokens ++ field.semantic.toList ++ field.modifier.toList)

/-- The tokens of a structure. -/
def Struct.tokens (struct : Struct) : List String :=
  struct.name :: struct.fields.flatMap Field.tokens

/-- The tokens of a function head. -/
def Signature.tokens (signature : Signature) : List String :=
  signature.name :: (signature.result.tokens ++ signature.semantic.toList
    ++ signature.arguments.flatMap fun argument => argument.name :: argument.ty.tokens)

/-- The tokens an expression adds to those of its operands. -/
def Expr.tokens : Expr → List String
  | .identifier name ty => name :: ty.tokens
  | .member _ field ty => field :: ty.tokens
  | .call callee _ parameters ty => callee :: (ty.tokens ++ parameters.flatMap Ty.tokens)
  | e => e.ty.tokens

namespace Statement

mutual

/-- The tokens a statement declares. -/
def tokens : Statement → List String
  | declare declaration => declaration.tokens
  | struct definition => definition.tokens
  | buffer name content => name :: content.tokens
  | function signature body => signature.tokens ++ tokensAll body
  | branch _ whenTrue none => tokensAll whenTrue
  | branch _ whenTrue (some whenFalse) => tokensAll whenTrue ++ tokensAll whenFalse
  | loop start _ _ body => start.toList.flatMap Declaration.tokens ++ tokensAll body
  | block body => tokensAll body
  | result _ => []
  | discard => []
  | leave => []
  | next => []
  | evaluate _ => []

/-- The tokens declared by a list of statements. -/
def tokensAll : List Statement → List String
  | [] => []
  | s :: rest => s.tokens ++ tokensAll rest

end

/-- A list declares what its members declare. -/
theorem tokensAll_eq_flatMap (statements : List Statement) :
    tokensAll statements = statements.flatMap tokens := by
  induction statements with
  | nil => rfl
  | cons s rest ih => rw [tokensAll, ih, List.flatMap_cons]

end Statement

namespace Shader

/-- The tokens of a shader: those declared and those used. -/
def tokens (shader : Shader) : List String :=
  Statement.tokensAll shader ++ shader.walk.flatMap Expr.tokens

/-- Whether a word is a token. -/
def hasToken (shader : Shader) (word : String) : Bool :=
  shader.tokens.contains word

/-- Whether a word is a token up to the case of its letters. -/
def hasTokenLike (shader : Shader) (word : String) : Bool :=
  shader.tokens.any (alike word)

end Shader

end GlslText
