/-!
# Base types of a shader

A base type is what a type is apart from its name and its array part: a number, a vector of
numbers, a square matrix, a texture, a sampler, or a structure that the shader itself defines.
A half precision element is a number of its own kind in the shader.
-/

namespace GlslText

/-- How precise a floating-point element is. -/
inductive Precision where
  | full
  | half
deriving DecidableEq, Repr

/-- The elements that vectors are made of. -/
inductive Element where
  | int
  | uint
  | float (precision : Precision)
deriving DecidableEq, Repr

/-- The number of elements of a vector; a vector of one element is a scalar. -/
inductive Width where
  | one
  | two
  | three
  | four
deriving DecidableEq, Repr

/-- The width as a number. -/
def Width.count : Width → Nat
  | one => 1
  | two => 2
  | three => 3
  | four => 4

/-- The number of rows of a square matrix. -/
inductive Order where
  | three
  | four
deriving DecidableEq, Repr

/-- What a sampler reads from. -/
inductive SamplerShape where
  | plane
  | cube
  | shadow
  | volume
deriving DecidableEq, Repr

/-- A base type. -/
inductive BaseType where
  | void
  | bool
  | vector (element : Element) (width : Width)
  | matrix (precision : Precision) (order : Order)
  | texture
  | sampler (shape : SamplerShape)
  /-- A structure of the shader, told by its name. -/
  | userDefined
deriving DecidableEq, Repr

namespace BaseType

/-- One signed integer. -/
abbrev int : BaseType := .vector .int .one

/-- One unsigned integer. -/
abbrev uint : BaseType := .vector .uint .one

/-- One number of full precision. -/
abbrev float : BaseType := .vector (.float .full) .one

/-- A single number, on which a component selection is not a selection. -/
def isNumericScalar : BaseType → Bool
  | vector _ .one => true
  | _ => false

/-- Vectors and matrices whose elements have half precision. -/
def isHalf : BaseType → Bool
  | vector (.float .half) _ => true
  | matrix .half _ => true
  | _ => false

/-- Samplers; a texture is none. -/
def isSampler : BaseType → Bool
  | sampler _ => true
  | _ => false

/-- The number of components of a scalar or a vector. -/
def components : BaseType → Option Nat
  | bool => some 1
  | vector _ width => some width.count
  | _ => none

/-- The selection that cuts a vector of four down to the components of the type. -/
def narrowing : BaseType → String
  | bool => ".x"
  | vector _ .one => ".x"
  | vector _ .two => ".xy"
  | vector _ .three => ".xyz"
  | _ => ""

end BaseType

end GlslText
