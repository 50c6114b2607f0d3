import GlslText.Proofs.Collision
import GlslText.Proofs.ColorOutputs
import Mathlib.Data.Finset.Card

/-!
# The search for free names

The numbered forms of a base are tried in order, and the first that is no token is taken. The search
fails exactly when all of them are tokens, for which a shader needs as many different tokens as
there are forms. Bases get their names in order, so that the fault of a failing choice names the
first base whose forms are all taken.
-/

namespace GlslText

/-- Numbered forms of one base tell their numbers apart. -/
theorem numbered_injective (base : String) : Function.Injective (numbered base) := by
  intro m n same
  exact toString_injective ((String.append_right_inj base).1 same)

namespace Renaming

/-- The first base is refused an alias, or one of the others is. -/
theorem choose_cons_eq_error_iff {tokens rest : List String} {base : String} {fault : Fault} :
    choose tokens (base :: rest) = .error fault ↔
      freshName? tokens base = none ∧ fault = .exhausted base ∨
        freshName? tokens base ≠ none ∧ choose tokens rest = .error fault := by
  rw [choose]
  cases freshName? tokens base with
  | none => simp [eq_comm]
  | some name => cases choose tokens rest <;> simp

/-- Aliases are refused exactly for the first of the bases that has none. -/
theorem choose_eq_error_iff {tokens bases : List String} {fault : Fault} :
    choose tokens bases = .error fault ↔
      ∃ before base after, bases = before ++ base :: after ∧
        (∀ earlier ∈ before, freshName? tokens earlier ≠ none) ∧
        freshName? tokens base = none ∧ fault = .exhausted base := by
  induction bases with
  | nil => simp [choose]
  | cons first rest ih =>
    rw [choose_cons_eq_error_iff, ih]
    constructor
    · rintro (⟨saturated, rfl⟩ | ⟨free, before, base, after, rfl, earlier, saturated, rfl⟩)
      · exact ⟨[], first, rest, rfl, by simp, saturated, rfl⟩
      · exact ⟨first :: before, base, after, rfl, List.forall_mem_cons.2 ⟨free, earlier⟩, saturated,
          rfl⟩
    · rintro ⟨before, base, after, split, earlier, saturated, rfl⟩
      cases before with
      | nil =>
        obtain ⟨rfl, -⟩ := List.cons.inj split
        exact Or.inl ⟨saturated, rfl⟩
      | cons head tail =>
        obtain ⟨rfl, rfl⟩ := List.cons.inj split
        obtain ⟨free, earlier⟩ := List.forall_mem_cons.1 earlier
        exact Or.inr ⟨free, tail, base, after, rfl, earlier, saturated, rfl⟩

/-- Names are refused exactly when aliases are refused for the words that need one. -/
theorem ofTokens_eq_error_iff {tokens : List String} {fault : Fault} :
    ofTokens tokens = .error fault ↔ choose tokens aliasBases = .error fault := by
  rw [ofTokens]
  cases choose tokens aliasBases <;> simp

end Renaming

namespace Shader

/-- Every numbered form of a base that is tried is a token of the shader. -/
def Saturates (shader : Shader) (base : String) : Prop :=
  ∀ n < 1024, numbered base n ∈ shader.tokens

/-- No form of a base is free exactly when the shader takes all forms that are tried. -/
theorem freshName?_eq_none_iff {shader : Shader} {base : String} :
    freshName? shader.tokens base = none ↔ shader.Saturates base := by
  rw [freshName?, probe_eq_none_iff]
  simp [Saturates, probeCount]

/-- To take all numbered forms of a base, a shader needs that many different tokens. -/
theorem Saturates.le_card {shader : Shader} {base : String} (saturated : shader.Saturates base) :
    1024 ≤ shader.tokens.toFinset.card := by
  have inside : (Finset.range 1024).image (numbered base) ⊆ shader.tokens.toFinset := by
    intro word listed
    obtain ⟨n, below, rfl⟩ := Finset.mem_image.1 listed
    exact List.mem_toFinset.2 (saturated n (Finset.mem_range.1 below))
  calc
    1024 = ((Finset.range 1024).image (numbered base)).card := by
      rw [Finset.card_image_of_injective _ (numbered_injective base), Finset.card_range]
    _ ≤ shader.tokens.toFinset.card := Finset.card_le_card inside

end Shader

/-- The name for a base is the base with the least number below the bound that makes it no token,
and there is none exactly when all these forms are tokens, which takes as many different tokens. The
names of a shader are refused exactly when one of the bases is saturated, and the fault names the
first such base in the order of the helper functions and then the reserved words. -/
theorem name_probing_minimal (shader : Shader) :
    (∀ base name, freshName? shader.tokens base = some name ↔
      ∃ n < 1024, name = base ++ toString n ∧ base ++ toString n ∉ shader.tokens ∧
        ∀ m < n, base ++ toString m ∈ shader.tokens) ∧
    (∀ base, freshName? shader.tokens base = none ↔
      ∀ n < 1024, base ++ toString n ∈ shader.tokens) ∧
    (shader.tokens.toFinset.card < 1024 →
      ∀ base, ∃ name, freshName? shader.tokens base = some name) ∧
    ((∃ fault, Renaming.ofTokens shader.tokens = .error fault) ↔
      ∃ base ∈ Helper.all.map Helper.base ++ reservedWords, shader.Saturates base) ∧
    ∀ fault, Renaming.ofTokens shader.tokens = .error fault ↔
      ∃ before base after, Helper.all.map Helper.base ++ reservedWords = before ++ base :: after ∧
        (∀ earlier ∈ before, ¬shader.Saturates earlier) ∧ shader.Saturates base ∧
        fault = .exhausted base := by
  have refused (fault : Fault) : Renaming.ofTokens shader.tokens = .error fault ↔
      ∃ before base after, Helper.all.map Helper.base ++ reservedWords = before ++ base :: after ∧
        (∀ earlier ∈ before, ¬shader.Saturates earlier) ∧ shader.Saturates base ∧
        fault = .exhausted base := by
    rw [Renaming.ofTokens_eq_error_iff, Renaming.choose_eq_error_iff]
    simp only [ne_eq, Shader.freshName?_eq_none_iff, aliasBases]
  refine ⟨?_, fun base => Shader.freshName?_eq_none_iff, ?_, ?_, refused⟩
  · intro base name
    rw [freshName?, probe_eq_some_iff]
    simp only [Nat.zero_add, probeCount, numbered]
  · intro few base
    rw [← Option.ne_none_iff_exists']
    intro none
    have many := (Shader.freshName?_eq_none_iff.1 none).le_card
    omega
  · constructor
    · rintro ⟨fault, failed⟩
      obtain ⟨before, base, after, split, -, saturated, -⟩ := (refused fault).1 failed
      exact ⟨base, by simp [split], saturated⟩
    · rintro ⟨base, needed, saturated⟩
      cases chosen : Renaming.ofTokens shader.tokens with
      | error fault => exact ⟨fault, rfl⟩
      | ok names =>
        obtain ⟨n, below, free⟩ := Renaming.exists_ofTokens_iff.1 ⟨names, chosen⟩ base needed
        exact absurd (saturated n below) free

/-- A shader that declares the first numbered forms of a base, as many as given. -/
def crowded (base : String) (count : Nat) : Shader :=
  (List.range count).map fun n => .declare ⟨numbered base n, Ty.ofBase .float, none, none, []⟩

/-- The tokens of a crowded shader are the forms that it declares. -/
theorem mem_tokens_crowded {base word : String} {count : Nat} :
    word ∈ (crowded base count).tokens ↔ ∃ n < count, word = numbered base n := by
  have noExpressions : (crowded base count).walk = [] := by
    rw [Shader.walk, Statement.walkAll_eq_flatMap, List.flatMap_eq_nil_iff]
    intro s listed
    obtain ⟨n, -, rfl⟩ := List.mem_map.1 listed
    rfl
  rw [Shader.tokens, noExpressions, Statement.tokensAll_eq_flatMap]
  simp [crowded, List.flatMap_map, Statement.tokens, Declaration.tokens, Ty.tokens, Ty.ofBase]

/-- With one form left free it is taken, and with none left the fault names the base. -/
theorem crowded_sinCos :
    freshName? (crowded "sincos" 1023).tokens "sincos" = some "sincos1023" ∧
      Renaming.ofTokens (crowded "sincos" 1024).tokens = .error (.exhausted "sincos") := by
  constructor
  · refine ((name_probing_minimal _).1 _ _).2 ⟨1023, by decide, by decide, ?_, ?_⟩
    · intro listed
      obtain ⟨n, below, same⟩ := mem_tokens_crowded.1 listed
      have equal : 1023 = n := numbered_injective "sincos" same
      omega
    · exact fun m below => mem_tokens_crowded.2 ⟨m, below, rfl⟩
  · refine ((name_probing_minimal _).2.2.2.2 _).2
      ⟨(Helper.all.map Helper.base).take 9, "sincos", reservedWords, by decide, ?_, ?_, rfl⟩
    · intro earlier listed saturated
      obtain ⟨n, -, same⟩ := mem_tokens_crowded.1 (saturated 0 (by decide))
      have apart : ∀ earlier ∈ (Helper.all.map Helper.base).take 9,
          "sincos".toList.isPrefixOf (numbered earlier 0).toList = false ∧
            (numbered earlier 0).toList.isPrefixOf "sincos".toList = false := by
        decide +kernel
      exact numbered_ne (List.prefix_refl _) (apart earlier listed) n same.symm
    · exact fun n below => mem_tokens_crowded.2 ⟨n, below, rfl⟩

end GlslText
