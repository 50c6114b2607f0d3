/-!
# Occurrences of a text in another

A text occurs in another when it stands somewhere inside it, whole and in one piece.
-/

namespace GlslText

/-- Whether the characters stand somewhere inside others. -/
def occursAt (part : List Char) : List Char → Bool
  | [] => part.isEmpty
  | c :: rest => part.isPrefixOf (c :: rest) || occursAt part rest

/-- Whether a text occurs in another. -/
def occursIn (part whole : String) : Bool :=
  occursAt part.toList whole.toList

/-- The characters stand inside others exactly when those split around them. -/
theorem occursAt_iff (part whole : List Char) :
    occursAt part whole = true ↔ ∃ before after, whole = before ++ part ++ after := by
  induction whole with
  | nil =>
    constructor
    · intro empty
      exact ⟨[], [], by simpa [occursAt] using empty⟩
    · rintro ⟨before, after, split⟩
      simp_all [occursAt]
  | cons c rest ih =>
    rw [occursAt, Bool.or_eq_true, ih, List.isPrefixOf_iff_prefix]
    constructor
    · rintro (⟨after, split⟩ | ⟨before, after, split⟩)
      · exact ⟨[], after, split.symm⟩
      · exact ⟨c :: before, after, by rw [split]; rfl⟩
    · rintro ⟨before, after, split⟩
      cases before with
      | nil => exact Or.inl ⟨after, split.symm⟩
      | cons head tail =>
        refine Or.inr ⟨tail, after, ?_⟩
        exact (List.cons.inj split).2

end GlslText
