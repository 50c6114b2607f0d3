import GlslText.Proofs.Collision
import Mathlib.Data.List.Nodup

/-!
# Names are told apart

Every alias is searched for by itself, with no look at the others. Two of them are still never the
same: an alias starts with its base, and none of the bases starts with another one, not even those
that end in a digit. Aliases are no tokens and all other names are kept, so what is written for the
tokens and the reserved words tells them apart.
-/

namespace GlslText

/-- A numbered form of a word that needs an alias tells which word it is. -/
theorem base_eq_of_numbered_eq {left right : String} (needsLeft : left ∈ aliasBases)
    (needsRight : right ∈ aliasBases) {m n : Nat} (same : numbered left m = numbered right n) :
    left = right := by
  have apart : ∀ left ∈ aliasBases, ∀ right ∈ aliasBases, left = right ∨
      left.toList.isPrefixOf right.toList = false ∧
        right.toList.isPrefixOf left.toList = false := by
    decide +kernel
  rcases apart left needsLeft right needsRight with equal | apart
  · exact equal
  · have opens : right.toList <+: (numbered right n).toList :=
      ⟨(toString n).toList, by simp [numbered]⟩
    exact absurd same (numbered_ne opens apart m)

namespace Renaming

section Chosen

variable {tokens : List String} {names : Renaming} (chosen : ofTokens tokens = .ok names)

include chosen

/-- The aliases are those of the words that need one, in their order. -/
theorem aliases_eq_map : names.aliases = aliasBases.map names.aliasOf := by
  rw [aliases, ← (entries_ofTokens chosen).1, List.map_map]
  exact List.map_congr_left fun entry listed => (aliasOf_of_mem_entries chosen listed).symm

/-- Different words have different aliases. -/
theorem eq_of_aliasOf_eq {left right : String} (needsLeft : left ∈ aliasBases)
    (needsRight : right ∈ aliasBases) (same : names.aliasOf left = names.aliasOf right) :
    left = right := by
  obtain ⟨-, m, isLeft⟩ := aliasOf_mem chosen needsLeft
  obtain ⟨-, n, isRight⟩ := aliasOf_mem chosen needsRight
  exact base_eq_of_numbered_eq needsLeft needsRight (isLeft.symm.trans (same.trans isRight))

/-- No two aliases are the same. -/
theorem nodup_aliases : names.aliases.Nodup := by
  have bases : aliasBases.Nodup := by decide
  rw [aliases_eq_map chosen]
  exact List.Nodup.map_on (fun left needsLeft right needsRight same =>
    eq_of_aliasOf_eq chosen needsLeft needsRight same) bases

/-- A reserved word is not written like a token that is kept. -/
theorem source_ne_of_reserved {word token : String} (reserved : word ∈ reservedWords)
    (listed : token ∈ tokens) (free : token ∉ reservedWords) :
    names.source word ≠ names.source token := by
  intro same
  have isAlias := source_mem_aliases chosen reserved
  rw [same, names.source_of_not_reserved token free] at isAlias
  exact notMem_tokens_of_mem_aliases chosen isAlias listed

end Chosen

end Renaming

/-- When names can be chosen for a shader, there are fifteen aliases, those of the helper functions
and those that the reserved words are written as, and no two are the same. Different tokens or
reserved words are written differently, and none of them like a helper function. -/
theorem renaming_injective {shader : Shader} {names : Renaming}
    (chosen : Renaming.ofTokens shader.tokens = .ok names) :
    names.aliases = Helper.all.map names.helper ++ reservedWords.map names.source ∧
    names.aliases.length = 15 ∧ names.aliases.Nodup ∧
    (∀ left ∈ shader.tokens ++ reservedWords, ∀ right ∈ shader.tokens ++ reservedWords,
      names.source left = names.source right → left = right) ∧
    ∀ word ∈ shader.tokens ++ reservedWords, ∀ which, names.source word ≠ names.helper which := by
  have isToken {word : String} (known : word ∈ shader.tokens ++ reservedWords)
      (free : word ∉ reservedWords) : word ∈ shader.tokens :=
    (List.mem_append.1 known).resolve_right free
  refine ⟨?_, Renaming.length_aliases chosen, Renaming.nodup_aliases chosen, ?_, ?_⟩
  · have words : reservedWords.map names.source = reservedWords.map names.aliasOf :=
      List.map_congr_left fun _ reserved => Renaming.source_of_reserved reserved
    rw [Renaming.aliases_eq_map chosen, words, aliasBases, List.map_append, List.map_map]
    rfl
  · intro left knownLeft right knownRight same
    by_cases reservedLeft : left ∈ reservedWords
    · by_cases reservedRight : right ∈ reservedWords
      · rw [Renaming.source_of_reserved reservedLeft, Renaming.source_of_reserved reservedRight]
          at same
        exact Renaming.eq_of_aliasOf_eq chosen (List.mem_append_right _ reservedLeft)
          (List.mem_append_right _ reservedRight) same
      · exact absurd same (Renaming.source_ne_of_reserved chosen reservedLeft
          (isToken knownRight reservedRight) reservedRight)
    · by_cases reservedRight : right ∈ reservedWords
      · exact absurd same.symm (Renaming.source_ne_of_reserved chosen reservedRight
          (isToken knownLeft reservedLeft) reservedLeft)
      · rwa [names.source_of_not_reserved left reservedLeft,
          names.source_of_not_reserved right reservedRight] at same
  · intro word known which same
    by_cases reserved : word ∈ reservedWords
    · obtain ⟨-, n, isAlias⟩ := Renaming.aliasOf_mem chosen (List.mem_append_right _ reserved)
      rw [Renaming.source_of_reserved reserved, isAlias] at same
      exact Renaming.numbered_ne_helper chosen reserved n which same
    · rw [names.source_of_not_reserved word reserved] at same
      exact Renaming.notMem_tokens_of_mem_aliases chosen
        (same ▸ Renaming.helper_mem_aliases chosen which) (isToken known reserved)

/-- A shader that declares forms of several bases, among them one whose number runs on. -/
def crossedNames : Shader :=
  ["mod", "mod0", "clip0", "m_scalar_swizzle20", "m_scalar_swizzle2"].map fun name =>
    .declare ⟨name, Ty.ofBase .float, none, none, []⟩

/-- Tokens that are forms of `mod` and of a helper function are passed over: both get the next form,
and nothing else is written like them. -/
theorem crossedNames_apart :
    ∃ names, Renaming.ofTokens crossedNames.tokens = .ok names ∧ names.aliases.Nodup ∧
      names.source "mod" = "mod1" ∧ names.helper .swizzle2 = "m_scalar_swizzle21" ∧
      (∀ token ∈ crossedNames.tokens, names.source token = names.source "mod" → token = "mod") ∧
      ∀ which, names.source "m_scalar_swizzle2" ≠ names.helper which := by
  have chosen : Renaming.ofTokens crossedNames.tokens = .ok _ := rfl
  obtain ⟨-, -, distinct, injective, apart⟩ := renaming_injective chosen
  refine ⟨_, chosen, distinct, by decide +kernel, by decide +kernel, fun token listed => ?_, ?_⟩
  · exact injective token (List.mem_append_left _ listed) "mod" (by decide)
  · exact apart "m_scalar_swizzle2" (by decide)

end GlslText
