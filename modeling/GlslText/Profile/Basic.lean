/-!
# Profiles

A profile says for which driver family, generation of the language and stage of the pipeline a
text is meant. The driver family has the last word on the generation, and the two decide the
dialect.
-/

namespace GlslText

/-- A family of drivers. -/
inductive Platform where
  /-- Mobile drivers whose legacy language cannot sample by gradient. -/
  | mobileA
  | mobileB
  /-- Desktop drivers that offer the legacy generation only. -/
  | desktopMac
  | desktopOther
deriving DecidableEq, Repr

/-- The family taken when none is named. -/
instance : Inhabited Platform := ⟨.desktopOther⟩

/-- A generation of the language. -/
inductive Generation where
  | legacy
  | modern
deriving DecidableEq, Repr

/-- A stage of the pipeline. -/
inductive Stage where
  | vertex
  | fragment
deriving DecidableEq, Repr

/-- A dialect of the language. -/
inductive Dialect where
  | es100
  | es300
  | glsl120
  | glsl130
  | glsl330
deriving DecidableEq, Repr

/-- Whether a platform is a mobile one. -/
def Platform.isMobile : Platform → Bool
  | mobileA => true
  | mobileB => true
  | desktopMac => false
  | desktopOther => false

/-- The word that names the stage in the names of samplers. -/
def Stage.word : Stage → String
  | vertex => "Vertex"
  | fragment => "Fragment"

namespace Dialect

/-- The directive that every text of the dialect starts with. -/
def directive : Dialect → String
  | es100 => "#version 100"
  | es300 => "#version 300 es"
  | glsl120 => "#version 120"
  | glsl130 => "#version 130"
  | glsl330 => "#version 330"

/-- Whether the dialect has unsigned integers. -/
def hasUnsigned : Dialect → Bool
  | es100 => false
  | glsl120 => false
  | es300 => true
  | glsl130 => true
  | glsl330 => true

end Dialect

/-- What a text is meant for. -/
structure Profile where
  platform : Platform
  /-- The generation asked for. -/
  requested : Generation
  stage : Stage
deriving DecidableEq, Repr

namespace Profile

/-- The generation that is written. -/
def generation (profile : Profile) : Generation :=
  match profile.platform with
  | .desktopMac => .legacy
  | _ => profile.requested

/-- The dialect that is written. -/
def dialect (profile : Profile) : Dialect :=
  match profile.platform, profile.generation with
  | .mobileA, .legacy => .es100
  | .mobileB, .legacy => .es100
  | .mobileA, .modern => .es300
  | .mobileB, .modern => .es300
  | .desktopMac, _ => .glsl120
  | .desktopOther, .legacy => .glsl130
  | .desktopOther, .modern => .glsl330

/-- Whether the text is for a mobile platform. -/
def isMobile (profile : Profile) : Bool :=
  profile.platform.isMobile

/-- Whether the legacy generation is written. -/
def isLegacy (profile : Profile) : Bool :=
  profile.generation == .legacy

/-- Whether the text is for the fragment stage. -/
def isFragment (profile : Profile) : Bool :=
  profile.stage == .fragment

end Profile

end GlslText
