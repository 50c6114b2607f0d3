import GlslText.Feature.Scan
import Mathlib.Data.List.Perm.Basic

/-!
# Tokens and features of composed shaders

The tokens, the calls and the features of a shader are found statement by statement. What is found
in two shaders one behind the other is what is found in each, and calls keep their order. A block
adds nothing of its own, so neither the order of the statements nor the blocks around them make a
difference to the tokens and the features.
-/

namespace GlslText

/-! ## Shaders one behind the other -/

namespace Shader

/-- The walk of two shaders one behind the other is the walk of the one and then of the other. -/
theorem walk_append (front back : Shader) :
    Shader.walk (front ++ back) = front.walk ++ back.walk := by
  simp only [walk, Statement.walkAll_eq_flatMap, List.flatMap_append]

/-- Calls are found in the order of the statements. -/
theorem calls_append (front back : Shader) (callee : String) :
    Shader.calls (front ++ back) callee = front.calls callee ++ back.calls callee := by
  simp only [calls, walk_append, List.filterMap_append]

/-- A token stands in a global statement or in a walked expression. -/
theorem mem_tokens {shader : Shader} {word : String} :
    word ∈ shader.tokens ↔
      (∃ s ∈ shader, word ∈ s.tokens) ∨ ∃ e ∈ shader.walk, word ∈ e.tokens := by
  rw [tokens, Statement.tokensAll_eq_flatMap, List.mem_append, List.mem_flatMap, List.mem_flatMap]

/-- The tokens of two shaders one behind the other are those of both. -/
theorem mem_tokens_append {front back : Shader} {word : String} :
    word ∈ Shader.tokens (front ++ back) ↔ word ∈ front.tokens ∨ word ∈ back.tokens := by
  simp only [mem_tokens, walk_append, List.mem_append, or_and_right, exists_or]
  exact or_or_or_comm

end Shader

/-- A feature shows by a token, by a walked expression or by the structure that is returned. -/
theorem Feature.shows_iff {tokens : List String} {exprs : List Expr} {output : Option Struct}
    {feature : Feature} :
    feature.shows tokens exprs output = true ↔
      (∃ token ∈ tokens, ∃ word ∈ feature.words, alike word token = true) ∨
      (feature = .scalarSwizzle ∧ ∃ e ∈ exprs, e.isScalarSwizzle = true) ∨
      feature = .multipleTargets ∧ output.any Struct.hasFurtherTarget = true := by
  simp only [shows, Bool.or_eq_true, Bool.and_eq_true, beq_iff_eq, List.any_eq_true, or_assoc]
  refine or_congr_left ⟨?_, ?_⟩
  · rintro ⟨word, listed, token, found, same⟩
    exact ⟨token, found, word, listed, same⟩
  · rintro ⟨token, found, word, listed, same⟩
    exact ⟨word, listed, token, found, same⟩

/-- The features of two shaders one behind the other are those of both, whatever structure is
returned. -/
theorem Shader.mem_features_append {front back : Shader} {output : Option Struct}
    {feature : Feature} :
    feature ∈ Shader.features (front ++ back) output ↔
      feature ∈ front.features output ∨ feature ∈ back.features output := by
  simp only [mem_features, Feature.shows_iff, mem_tokens_append, walk_append, List.mem_append,
    or_and_right, exists_or, and_or_left]
  grind

/-! ## Statements in another grouping -/

/-- Statements in another order, or with blocks around some of them. A block may hold any run of
the statements, and its own statements may be grouped again. -/
inductive Regrouped : List Statement → List Statement → Prop where
  | order {left right : List Statement} (same : left.Perm right) : Regrouped left right
  | wrap (before run after : List Statement) :
      Regrouped (before ++ run ++ after) (before ++ .block run :: after)
  | inside (before after : List Statement) {left right : List Statement}
      (regrouped : Regrouped left right) :
      Regrouped (before ++ .block left :: after) (before ++ .block right :: after)
  | trans {left middle right : List Statement} (first : Regrouped left middle)
      (second : Regrouped middle right) : Regrouped left right

namespace Regrouped

variable {left right : Shader}

/-- What a block only passes on from its statements is the same up to the order. -/
theorem flatMap_perm {α : Type} {found : Statement → List α}
    (passed : ∀ body, found (.block body) = body.flatMap found)
    (regrouped : Regrouped left right) :
    (left.flatMap found).Perm (right.flatMap found) := by
  induction regrouped with
  | order same => exact same.flatMap_right found
  | wrap before run after =>
    simp only [List.flatMap_append, List.flatMap_cons, passed, List.append_assoc]
    exact .refl _
  | inside before after _ ih =>
    simp only [List.flatMap_append, List.flatMap_cons, passed]
    exact (ih.append_right _).append_left _
  | trans _ _ first second => exact first.trans second

/-- Regrouping puts the walk in another order. -/
theorem walk_perm (regrouped : Regrouped left right) : left.walk.Perm right.walk := by
  rw [Shader.walk, Shader.walk, Statement.walkAll_eq_flatMap, Statement.walkAll_eq_flatMap]
  exact regrouped.flatMap_perm fun body => by rw [Statement.walk, Statement.walkAll_eq_flatMap]

/-- Regrouping puts the tokens in another order. -/
theorem tokens_perm (regrouped : Regrouped left right) : left.tokens.Perm right.tokens := by
  have declared : (Statement.tokensAll left).Perm (Statement.tokensAll right) := by
    rw [Statement.tokensAll_eq_flatMap, Statement.tokensAll_eq_flatMap]
    exact regrouped.flatMap_perm fun body => by
      rw [Statement.tokens, Statement.tokensAll_eq_flatMap]
  exact declared.append (regrouped.walk_perm.flatMap_right Expr.tokens)

/-- Regrouping keeps the features and their order. -/
theorem features_eq (regrouped : Regrouped left right) (output : Option Struct) :
    left.features output = right.features output := by
  have shown (feature : Feature) : feature.shows left.tokens left.walk output =
      feature.shows right.tokens right.walk output := by
    rw [Bool.eq_iff_iff, Feature.shows_iff, Feature.shows_iff]
    simp only [regrouped.tokens_perm.mem_iff, regrouped.walk_perm.mem_iff]
  rw [Shader.features, Shader.features, funext shown]

end Regrouped

/-- The tokens of one shader behind another are those of both, its calls are the calls of the one
and then of the other, and its features are those of both, whatever structure is returned. Tokens
and features do not change when the statements are put in another order or, at any depth, in
blocks. -/
theorem shader_index_composes (front back : Shader) :
    (∀ word, word ∈ Shader.tokens (front ++ back) ↔ word ∈ front.tokens ∨ word ∈ back.tokens) ∧
    (∀ callee, Shader.calls (front ++ back) callee = front.calls callee ++ back.calls callee) ∧
    (∀ output feature, feature ∈ Shader.features (front ++ back) output ↔
      feature ∈ front.features output ∨ feature ∈ back.features output) ∧
    ∀ regrouped : Shader, Regrouped front regrouped →
      (∀ word, word ∈ front.tokens ↔ word ∈ regrouped.tokens) ∧
      ∀ output, front.features output = regrouped.features output := by
  refine ⟨fun word => Shader.mem_tokens_append, fun callee => Shader.calls_append front back callee,
    fun output feature => Shader.mem_features_append, fun regrouped same => ?_⟩
  exact ⟨fun word => same.tokens_perm.mem_iff, same.features_eq⟩

/-- Two calls behind a declaration. -/
def sampledTwice : Shader :=
  let sample (callee : String) : Statement :=
    .evaluate (.ofCall callee [.identifier "ramp" (Ty.ofBase (.sampler .plane))]
      (Ty.ofBase (.vector (.float .full) .four)))
  [.declare ⟨"ramp", Ty.ofBase (.sampler .plane), some "s0", none, []⟩, sample "tex2Dlod",
    sample "tex2Dbias"]

/-- The same statements, with the calls in front and in two blocks. -/
def sampledInBlocks : Shader :=
  .block [.block (sampledTwice.drop 1)] :: sampledTwice.take 1

/-- Putting the calls in front and in two blocks keeps the features and the register. -/
theorem sampledTwice_regrouped :
    Regrouped sampledTwice sampledInBlocks ∧
      .texLod ∈ Shader.features (sampledTwice ++ sampledInBlocks) none ∧
      sampledInBlocks.features none = [.texLod, .texBias] ∧ "s0" ∈ sampledInBlocks.tokens := by
  have blocks : Regrouped sampledTwice sampledInBlocks :=
    .trans (.order (List.perm_append_comm : (sampledTwice.take 1 ++ sampledTwice.drop 1).Perm _))
      (.trans (.wrap [] (sampledTwice.drop 1) (sampledTwice.take 1))
        (.wrap [] [.block (sampledTwice.drop 1)] (sampledTwice.take 1)))
  obtain ⟨-, -, features, regrouped⟩ := shader_index_composes sampledTwice sampledInBlocks
  obtain ⟨sameTokens, sameFeatures⟩ := regrouped sampledInBlocks blocks
  have found : sampledTwice.features none = [.texLod, .texBias] := by decide +kernel
  refine ⟨blocks, (features none .texLod).2 (Or.inl ?_), (sameFeatures none).symm.trans found, ?_⟩
  · rw [found]
    exact List.mem_cons_self
  · exact (sameTokens "s0").1 (by decide +kernel)

end GlslText
