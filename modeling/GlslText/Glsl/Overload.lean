import GlslText.Feature.Basic
import GlslText.Naming
import GlslText.Profile.Basic
import GlslText.Text.Line

/-!
# Helper functions

Built-in functions of a shader that the generated language lacks are defined in the text itself,
one group of overloads for each feature that calls for them. A helper function is written on one
line.
-/

namespace GlslText

/-- One definition of a helper function. -/
structure Overload where
  result : String
  helper : Helper
  parameters : List String
  /-- The statements of the body, each with its semicolon. -/
  body : List String
deriving DecidableEq, Repr

/-- The definition on one line. -/
def Overload.text (names : Renaming) (overload : Overload) : String :=
  overload.result ++ " " ++ names.helper overload.helper ++ "("
    ++ String.intercalate ", " overload.parameters ++ ") \x7b "
    ++ String.join (overload.body.map (· ++ " ")) ++ "\x7d"

/-- The floating-point types with one to four components. -/
def floatVectors : List String :=
  ["float", "vec2", "vec3", "vec4"]

namespace Overload

/-- Discards a fragment when a component is negative; a vertex cannot be discarded. -/
def clip (profile : Profile) (type : String) : Overload where
  result := "void"
  helper := .clip
  parameters := [type ++ " x"]
  body :=
    if !profile.isFragment then []
    else if type = "float" then ["if (x < 0.0) discard;"]
    else ["if (any(lessThan(x, " ++ type ++ "(0.0)))) discard;"]

/-- Samples by the given function at the coordinates in a vector of four. -/
def sample (profile : Profile) (helper : Helper) (samplerType function coordinates : String) :
    Overload where
  result := "vec4"
  helper := helper
  parameters := [(if profile.isMobile then "lowp " else "") ++ samplerType ++ " s", "vec4 t"]
  body := ["return " ++ function ++ "(s, " ++ coordinates ++ ");"]

/-- Only a fragment can add a bias to the level, which is the last component. -/
def withBias (profile : Profile) (coordinates : String) : String :=
  if profile.isFragment then coordinates ++ ", t.w" else coordinates

/-- Sine and cosine at once. -/
def sinCos (type : String) : Overload where
  result := "void"
  helper := .sinCos
  parameters := [type ++ " x", "out " ++ type ++ " s", "out " ++ type ++ " c"]
  body := ["s = sin(x);", "c = cos(x);"]

/-- Repeats a scalar in a vector. -/
def swizzle (helper : Helper) (scalar vector : String) : Overload where
  result := vector
  helper := helper
  parameters := [scalar ++ " x"]
  body := ["return " ++ vector ++ "(x);"]

/-- The scalar types and the start of the name of their vectors. -/
def scalars (profile : Profile) : List (String × String) :=
  [("float", "vec"), ("int", "ivec")]
    ++ if profile.dialect.hasUnsigned then [("uint", "uvec")] else []

/-- All helper functions that repeat a scalar, by length and then by type. -/
def swizzles (profile : Profile) : List Overload :=
  [(Helper.swizzle2, "2"), (Helper.swizzle3, "3"), (Helper.swizzle4, "4")].flatMap
    fun (helper, count) =>
      (scalars profile).map fun (scalar, vector) => swizzle helper scalar (vector ++ count)

end Overload

/-- The helper functions that a feature calls for. -/
def Feature.overloads (profile : Profile) : Feature → List Overload
  | clip => floatVectors.map (Overload.clip profile)
  | texBias =>
    [Overload.sample profile .texBias "sampler2D"
      (if profile.isLegacy then "texture2D" else "texture") (Overload.withBias profile "t.xy")]
  | volumeLod =>
    [Overload.sample profile .volumeLod "sampler3D"
      (if profile.isLegacy then "texture3DLod" else "textureLod") "t.xyz, t.w"]
  | cubeBias =>
    [Overload.sample profile .cubeBias "samplerCube"
      (if profile.isLegacy then "textureCube" else "texture") (Overload.withBias profile "t.xyz")]
  | sinCos => floatVectors.map Overload.sinCos
  | scalarSwizzle => Overload.swizzles profile
  | texLod => []
  | texGrad => []
  | multipleTargets => []

/-- The groups of helper functions that the features call for. -/
def Features.helpers (profile : Profile) (features : Features) : List (List Overload) :=
  ([.clip, .texBias, .volumeLod, .cubeBias, .sinCos, .scalarSwizzle] : List Feature).filter
    features.contains |>.map (Feature.overloads profile)

/-- The lines of a group, with an empty line at the end. -/
def Overload.groupLines (names : Renaming) (group : List Overload) : List Line :=
  group.map (fun overload => ⟨0, overload.text names⟩) ++ [Line.blank]

end GlslText
