/-!
# Words up to the case of ASCII letters

Intrinsics, semantics and precision attributes are recognised whatever the case of their
letters. Only the letters `A` to `Z` have a case here: every other character, also a letter
outside ASCII, stands for itself.
-/

namespace GlslText

/-- The characters of a word with its capital ASCII letters made small. -/
def foldCase (word : String) : List Char :=
  word.toList.map Char.toLower

/-- Two words are alike when they differ at most in the case of ASCII letters. -/
def alike (left right : String) : Bool :=
  foldCase left == foldCase right

/-- Likeness is equality of the folded words. -/
theorem alike_iff (left right : String) :
    alike left right = true ↔ foldCase left = foldCase right := by
  simp [alike]

/-- Every word is like itself. -/
@[simp]
theorem alike_self (word : String) : alike word word = true :=
  (alike_iff word word).2 rfl

end GlslText
