import GlslText.Fault
import GlslText.Shader.Token

/-!
# Names that clash with nothing

Some words of the shader are reserved in the generated text, and helper functions need names that
the shader does not use. Both get an alias: the base word with the least number behind it that
makes it no token of the shader. Numbers are tried below a fixed bound.
-/

namespace GlslText

/-- The helper functions a text may define. -/
inductive Helper where
  | matrixRow
  | clip
  | texLod
  | texBias
  | volumeLod
  | cubeBias
  | swizzle2
  | swizzle3
  | swizzle4
  | sinCos
deriving DecidableEq, Repr

namespace Helper

/-- All helper functions in the order in which they are named. -/
def all : List Helper :=
  [matrixRow, clip, texLod, texBias, volumeLod, cubeBias, swizzle2, swizzle3, swizzle4, sinCos]

/-- The word that the name of a helper function starts with. -/
def base : Helper → String
  | matrixRow => "matrix_row"
  | clip => "clip"
  | texLod => "tex2Dlod"
  | texBias => "tex2Dbias"
  | volumeLod => "tex3Dlod"
  | cubeBias => "texCUBEbias"
  | swizzle2 => "m_scalar_swizzle2"
  | swizzle3 => "m_scalar_swizzle3"
  | swizzle4 => "m_scalar_swizzle4"
  | sinCos => "sincos"

/-- The helper function that repeats a scalar the given number of times. -/
def ofSwizzle? : Nat → Option Helper
  | 2 => some swizzle2
  | 3 => some swizzle3
  | 4 => some swizzle4
  | _ => none

end Helper

/-- The words that a shader may use as names and that are taken in the generated text. -/
def reservedWords : List String :=
  ["output", "input", "mod", "mix", "fract"]

/-- The words that need an alias, in the order in which they get one. -/
def aliasBases : List String :=
  Helper.all.map Helper.base ++ reservedWords

/-- A base with a number behind it. -/
def numbered (base : String) (n : Nat) : String :=
  base ++ toString n

/-- How many numbers are tried. -/
def probeCount : Nat := 1024

/-- The first numbered form from the given number on that is no token, among as many as given. -/
def probe (tokens : List String) (base : String) (start : Nat) : Nat → Option String
  | 0 => none
  | count + 1 =>
    if tokens.contains (numbered base start) then probe tokens base (start + 1) count
    else some (numbered base start)

/-- The alias of a base: the first numbered form that is no token. -/
def freshName? (tokens : List String) (base : String) : Option String :=
  probe tokens base 0 probeCount

/-- The aliases chosen for one text, each with its base. -/
structure Renaming where
  entries : List (String × String)
deriving DecidableEq, Repr

namespace Renaming

/-- Chooses an alias for each of the bases, or names the first one that can have none. -/
def choose (tokens : List String) : List String → Except Fault (List (String × String))
  | [] => .ok []
  | base :: rest =>
    match freshName? tokens base with
    | none => .error (.exhausted base)
    | some chosen =>
      match choose tokens rest with
      | .error fault => .error fault
      | .ok entries => .ok ((base, chosen) :: entries)

/-- The names for a shader with the given tokens. -/
def ofTokens (tokens : List String) : Except Fault Renaming :=
  match choose tokens aliasBases with
  | .error fault => .error fault
  | .ok entries => .ok ⟨entries⟩

/-- All aliases in the order of their bases. -/
def aliases (names : Renaming) : List String :=
  names.entries.map Prod.snd

/-- The alias of a base; a word without one stands for itself. -/
def aliasOf (names : Renaming) (base : String) : String :=
  (names.entries.lookup base).getD base

/-- The name of a helper function. -/
def helper (names : Renaming) (helper : Helper) : String :=
  names.aliasOf helper.base

/-- A name of the shader as it may stand in the text: a reserved word gives way to its alias. -/
def source (names : Renaming) (name : String) : String :=
  if reservedWords.contains name then names.aliasOf name else name

/-- Names that are not reserved are kept. -/
theorem source_of_not_reserved (names : Renaming) (name : String) (free : name ∉ reservedWords) :
    names.source name = name := by
  simp [source, free]

end Renaming

end GlslText
