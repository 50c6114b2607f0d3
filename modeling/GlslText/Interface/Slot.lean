import GlslText.Text.Case
import GlslText.Text.Digits

/-!
# Semantics of stage outputs

The semantic of a stage output names a built-in variable or a slot of the colour outputs. A slot
is written `SV_TARGET`, alone or with a number below eight; case does not matter, and neither do
zeros in front of the number.
-/

namespace GlslText

/-- The number of colour outputs. -/
abbrev slotCount : Nat := 8

/-- A slot of the colour outputs. -/
inductive Slot where
  /-- The slot without a number. -/
  | canonical
  /-- The slot with the given number. -/
  | indexed (index : Fin slotCount)
deriving DecidableEq, Repr

namespace Slot

/-- The word every slot semantic starts with. -/
def word : String := "SV_TARGET"

/-- The slot a semantic names. -/
def ofSemantic? (semantic : String) : Option Slot :=
  let chars := semantic.toList
  let head := chars.take word.length
  let rest := chars.drop word.length
  if head.map Char.toLower = foldCase word then
    if rest = [] then
      some canonical
    else
      (readDigits rest).bind fun n => if h : n < slotCount then some (indexed ⟨n, h⟩) else none
  else
    none

/-- The number of the colour output behind a slot. -/
def index : Slot → Nat
  | canonical => 0
  | indexed index => index

/-- Every slot is one of the colour outputs. -/
theorem index_lt (slot : Slot) : slot.index < slotCount := by
  cases slot with
  | canonical => decide
  | indexed index => exact index.isLt

end Slot

/-- The semantics that name a built-in variable. -/
def builtInSemantics : List (String × String) :=
  [("SV_POSITION", "gl_Position"), ("DEPTH", "gl_FragDepth")]

/-- The built-in variable a semantic names. -/
def builtIn? (semantic : String) : Option String :=
  (builtInSemantics.find? fun entry => alike entry.1 semantic).map Prod.snd

/-- The semantics of vertex attributes that always come with four components. -/
def widenedSemantics : List String :=
  ["COLOR", "COLOR0", "COLOR1", "POSITION"]

/-- Whether an attribute of the given semantic comes with four components. -/
def isWidened (semantic : Option String) : Bool :=
  semantic.any fun word => widenedSemantics.any (alike word)

end GlslText
