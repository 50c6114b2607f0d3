/-!
# Faults

What makes generation fail, and the sentence it is reported with.
-/

namespace GlslText

/-- What is wrong with the argument of a read from a colour output. -/
inductive FetchFault where
  /-- Not one argument, but the given number. -/
  | count (found : Nat)
  /-- The argument is no integer literal. -/
  | notLiteral
  /-- There is no colour output with that number. -/
  | outOfRange
deriving DecidableEq, Repr

/-- Why no text can be generated. -/
inductive Fault where
  /-- No global function has the name of the entry. -/
  | missingEntry (name : String)
  /-- A built-in function is called with the wrong number of arguments. -/
  | arity (callee : String) (expected found : Nat)
  /-- A read from a colour output does not say which. -/
  | fetch (cause : FetchFault)
  /-- A sampler is bound to no register. -/
  | missingRegister (sampler : String)
  /-- A sampler is bound to a register that is not one of a sampler. -/
  | invalidRegister (sampler register : String)
  /-- Every name tried for the base is a token. -/
  | exhausted (base : String)
deriving DecidableEq, Repr

/-- The cause in words. -/
def FetchFault.message : FetchFault → String
  | count found => "found " ++ toString found ++ " arguments"
  | notLiteral => "argument is not an integer literal"
  | outOfRange => "slot out of range 0..8"

/-- The sentence a fault is reported with. -/
def Fault.message : Fault → String
  | missingEntry name => "entry point '" ++ name ++ "' doesn't exist"
  | arity callee expected found =>
    callee ++ " expects " ++ toString expected ++ " argument(s), found " ++ toString found
  | fetch cause => "FramebufferFetch expects 1 integer literal argument: " ++ cause.message
  | missingRegister sampler => "sampler '" ++ sampler ++ "' has no register annotation"
  | invalidRegister sampler register =>
    "sampler '" ++ sampler ++ "' has unparseable register '" ++ register ++ "' (expected s<N>)"
  | exhausted base => "no collision-free name found for '" ++ base ++ "'"

end GlslText
