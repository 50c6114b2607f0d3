import GlslText.Glsl.Name

/-!
# Built-in functions under another name

Some built-in functions of a shader have another name in the generated language, which may hang on
the generation or the platform, or are helper functions of the text. They are recognised whatever
the case of their letters.
-/

namespace GlslText

/-- How a built-in function is named in the generated text. -/
inductive Intrinsic where
  /-- By one name everywhere. -/
  | fixed (name : String)
  /-- By a name for each generation. -/
  | byGeneration (legacy modern : String)
  /-- By the name of a helper function. -/
  | helper (which : Helper)
  /-- As the interpolation, which is a macro of the preamble on one platform. -/
  | interpolation
deriving DecidableEq, Repr

/-- The built-in functions that change their name. -/
def intrinsics : List (String × Intrinsic) :=
  [("tex2D", .byGeneration "texture2D" "texture"),
    ("tex2Dcmp", .byGeneration "shadow2D" "texture"),
    ("tex2Dproj", .byGeneration "texture2DProj" "textureProj"),
    ("tex2Dlod", .byGeneration "texture2DLod" "textureLod"),
    ("tex3D", .byGeneration "texture3D" "texture"),
    ("texCUBE", .byGeneration "textureCube" "texture"),
    ("texCUBElod", .byGeneration "textureCubeLod" "textureLod"),
    ("tex2Dgrad", .fixed "textureGrad"),
    ("tex2Dsize", .fixed "textureSize"),
    ("atan2", .fixed "atan"),
    ("fmod", .fixed "mod"),
    ("frac", .fixed "fract"),
    ("ddx", .fixed "dFdx"),
    ("ddy", .fixed "dFdy"),
    ("lerp", .interpolation),
    ("clip", .helper .clip),
    ("sincos", .helper .sinCos),
    ("tex2Dbias", .helper .texBias),
    ("tex3Dlod", .helper .volumeLod),
    ("texCUBEbias", .helper .cubeBias)]

/-- The built-in function that a callee is, if it changes its name. -/
def intrinsic? (callee : String) : Option Intrinsic :=
  (intrinsics.find? fun entry => alike entry.1 callee).map Prod.snd

/-- The name of a built-in function in a text of the profile. -/
def Intrinsic.name (profile : Profile) : Intrinsic → Glsl.Name
  | fixed name => .word name
  | byGeneration legacy modern => .word (if profile.isLegacy then legacy else modern)
  | helper which => .helper which
  | interpolation => .word (if profile.platform = .desktopMac then "lerp" else "mix")

/-- The name under which a callee is called. -/
def calleeName (profile : Profile) (callee : String) : Glsl.Name :=
  match intrinsic? callee with
  | some found => found.name profile
  | none => .source callee

end GlslText
