import GlslText.Feature.Basic
import GlslText.Profile.Basic

/-!
# Preambles

Every text starts with a preamble: the version directive, the extensions the features call for,
and macros that make the dialects look alike. It ends with an empty line.
-/

namespace GlslText.Profile

/-- Keeps lines that stand only under a condition. -/
def linesIf (condition : Bool) (lines : List String) : List String :=
  if condition then lines else []

/-- Lets a fragment read colour outputs. -/
def fetchExtension : String :=
  "#extension GL_EXT_shader_framebuffer_fetch : enable"

/-- Lets legacy desktop dialects sample at a given level or by gradient. -/
def lodExtension : String :=
  "#extension GL_ARB_shader_texture_lod : enable"

/-- Desktop dialects read precision qualifiers as nothing. -/
def blankPrecisions : List String :=
  ["#define highp", "#define mediump", "#define lowp"]

/-- Mobile platforms need a default precision. -/
def mobileLines : List String :=
  ["#define FP_SHADOW(t) (t)", "precision highp float;"]

/-- What every preamble ends with. -/
def closingLines : List String :=
  ["#define FP_A8(t) (t).a",
    "",
    "// per api bindings",
    "#define ndcToUvMapping vec4(0.5, 0.5, 0.5, 0.5)",
    "#define centerPixelMapping vec2(0.0, 0.0)",
    ""]

/-- What the dialect adds between the directive and the common lines. -/
def dialectLines (profile : Profile) (features : Features) : List String :=
  let fragment := profile.isFragment
  let lod := fragment && features.contains .texLod
  let lodOrGrad := fragment && (features.contains .texLod || features.contains .texGrad)
  match profile.dialect with
  | .es100 =>
    linesIf fragment [fetchExtension]
      ++ ["#extension GL_OES_standard_derivatives : enable",
        "#extension GL_EXT_shadow_samplers : enable"]
      ++ linesIf lod ["#extension GL_EXT_shader_texture_lod : enable"]
      ++ linesIf (fragment && features.contains .multipleTargets)
        ["#extension GL_EXT_draw_buffers : enable"]
      ++ linesIf (features.contains .volumeLod) ["#extension GL_OES_texture_3D : enable"]
      ++ ["#define shadow2D shadow2DEXT"]
      ++ linesIf lod
        ["#define texture2DLod texture2DLodEXT", "#define textureCubeLod textureCubeLodEXT"]
      ++ linesIf (profile.platform == .mobileA)
        ["#define textureGrad(s, uv, dx, dy) texture2D(s, uv)"]
      ++ linesIf fragment ["#define FramebufferFetch(i) gl_LastFragData[i]"]
  | .es300 => linesIf fragment [fetchExtension]
  | .glsl120 =>
    linesIf lodOrGrad [lodExtension]
      ++ ["#extension GL_EXT_gpu_shader4 : enable", "#define textureGrad texture2DGrad"]
      ++ blankPrecisions
      ++ ["#define FP_SHADOW(t) (t).x", "#define lerp(a,b,t) ( ( (b) - (a) ) * (t) + (a) )"]
  | .glsl130 =>
    linesIf lodOrGrad [lodExtension] ++ blankPrecisions ++ ["#define FP_SHADOW(t) (t).x"]
  | .glsl330 => blankPrecisions ++ ["#define FP_SHADOW(t) (t)"]

/-- The lines in front of every text of the profile. -/
def preamble (profile : Profile) (features : Features) : List String :=
  profile.dialect.directive :: (profile.dialectLines features
    ++ linesIf profile.isMobile mobileLines ++ closingLines)

end GlslText.Profile
