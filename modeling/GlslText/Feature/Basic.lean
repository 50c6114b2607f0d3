/-!
# Features

A feature is something in a shader that its text needs an extension or a helper function for.
A set of features is a list; only membership has a meaning.
-/

namespace GlslText

/-- What a shader may make use of. -/
inductive Feature where
  /-- Discarding by sign. -/
  | clip
  /-- Sampling a plane or a cube at a given level. -/
  | texLod
  /-- Sampling a plane with a bias. -/
  | texBias
  /-- Sampling a volume at a given level. -/
  | volumeLod
  /-- Sampling a cube with a bias. -/
  | cubeBias
  /-- Sine and cosine at once. -/
  | sinCos
  /-- Sampling by gradient. -/
  | texGrad
  /-- Selecting components of a scalar. -/
  | scalarSwizzle
  /-- Writing a colour output other than the first. -/
  | multipleTargets
deriving DecidableEq, Repr

/-- All features in their order. -/
def Feature.all : List Feature :=
  [.clip, .texLod, .texBias, .volumeLod, .cubeBias, .sinCos, .texGrad, .scalarSwizzle,
    .multipleTargets]

/-- Every feature is listed. -/
theorem Feature.mem_all (feature : Feature) : feature ∈ Feature.all := by
  cases feature <;> decide

/-- The features of a shader. -/
abbrev Features := List Feature

end GlslText
