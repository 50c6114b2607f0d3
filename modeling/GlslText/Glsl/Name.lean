import GlslText.Glsl.Color
import GlslText.Naming

/-!
# Names in the generated text

A name in the text is kept apart by where it comes from until the text is written. Names of the
shader give way to an alias where they are reserved, names of helper functions are aliases, and
all others are fixed by the language, the stage or the interface.
-/

namespace GlslText

/-- The spelling of a base type. Half precision has no types of its own. -/
def BaseType.spelling : BaseType → String
  | void => "void"
  | bool => "bool"
  | vector .int .one => "int"
  | vector .int .two => "ivec2"
  | vector .int .three => "ivec3"
  | vector .int .four => "ivec4"
  | vector .uint .one => "uint"
  | vector .uint .two => "uvec2"
  | vector .uint .three => "uvec3"
  | vector .uint .four => "uvec4"
  | vector (.float _) .one => "float"
  | vector (.float _) .two => "vec2"
  | vector (.float _) .three => "vec3"
  | vector (.float _) .four => "vec4"
  | matrix _ .three => "mat3"
  | matrix _ .four => "mat4"
  | texture => "sampler2D"
  | sampler .plane => "sampler2D"
  | sampler .cube => "samplerCube"
  | sampler .shadow => "sampler2DShadow"
  | sampler .volume => "sampler3D"
  | userDefined => "void"

namespace Glsl

/-- A name by its origin. -/
inductive Name where
  /-- A word of the language. -/
  | word (text : String)
  /-- A name of the shader. -/
  | source (name : String)
  /-- A string of the shader that stands as it is, even when reserved. -/
  | verbatim (text : String)
  /-- A helper function. -/
  | helper (which : Helper)
  /-- The vertex input of a field. -/
  | vertexInput (field : String)
  /-- The variable that carries a field between the stages. -/
  | varying (field : String)
  /-- The sampler of a texture unit. -/
  | texture (stage : Stage) (unit : Nat)
  /-- The variable of a colour output. -/
  | color (generation : Generation) (several : Bool) (slot : Nat)
deriving DecidableEq, Repr

/-- The name as it is written. -/
def Name.text (names : Renaming) : Name → String
  | word text => text
  | source name => names.source name
  | verbatim text => text
  | helper which => names.helper which
  | vertexInput field => "attr_" ++ field
  | varying field => "var_" ++ field
  | texture stage unit => stage.word ++ "Texture" ++ toString unit
  | color generation several slot => colorVariable generation several slot

end Glsl

/-- The name of a type; a type of the shader that has no name is written as nothing. -/
def Ty.glslName (ty : Ty) : Glsl.Name :=
  if ty.base = .userDefined then
    match ty.name with
    | some name => .source name
    | none => .word ""
  else
    .word ty.base.spelling

end GlslText
