import GlslText.Feature.Basic
import GlslText.Interface.Role
import GlslText.Shader.Token

/-!
# Scanning a shader for features

Most features show by a token of the shader, whatever its case and wherever it stands. The
selection of components of a scalar shows by the expressions, and several colour outputs by the
structure that a fragment entry returns.
-/

namespace GlslText

/-- The tokens that show a feature. -/
def Feature.words : Feature → List String
  | clip => ["clip"]
  | texLod => ["tex2Dlod", "texCUBElod"]
  | texBias => ["tex2Dbias"]
  | volumeLod => ["tex3Dlod"]
  | cubeBias => ["texCUBEbias"]
  | sinCos => ["sincos"]
  | texGrad => ["tex2Dgrad"]
  | scalarSwizzle => []
  | multipleTargets => []

/-- Whether an expression selects two to four components of a scalar. The length of a field is
that of its encoding in bytes. -/
def Expr.isScalarSwizzle : Expr → Bool
  | .member object field _ =>
    object.ty.base.isNumericScalar && decide (2 ≤ field.utf8ByteSize ∧ field.utf8ByteSize ≤ 4)
  | _ => false

/-- Whether a field is bound to a colour output other than the first. -/
def Field.isFurtherTarget (field : Field) : Bool :=
  field.slot?.any fun slot => decide (1 ≤ slot.index)

/-- Whether a structure has a field bound to a colour output other than the first. -/
def Struct.hasFurtherTarget (struct : Struct) : Bool :=
  struct.fields.any Field.isFurtherTarget

/-- Whether a feature shows in the given tokens and expressions, and in the structure a fragment
entry returns. -/
def Feature.shows (tokens : List String) (exprs : List Expr) (output : Option Struct)
    (feature : Feature) : Bool :=
  (feature.words.any fun word => tokens.any (alike word))
    || (feature == .scalarSwizzle && exprs.any Expr.isScalarSwizzle)
    || (feature == .multipleTargets && output.any Struct.hasFurtherTarget)

/-- The features of a shader in their order. -/
def Shader.features (shader : Shader) (output : Option Struct) : Features :=
  Feature.all.filter (Feature.shows shader.tokens shader.walk output)

/-- A feature is found exactly when it shows. -/
theorem Shader.mem_features (shader : Shader) (output : Option Struct) (feature : Feature) :
    feature ∈ shader.features output ↔
      Feature.shows shader.tokens shader.walk output feature = true := by
  simp [Shader.features, Feature.mem_all]

end GlslText
