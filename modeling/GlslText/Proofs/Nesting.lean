import GlslText.Proofs.Placement
import GlslText.Proofs.Rendered

/-!
# Statements inside statements

A statement occurs in a list of statements if it stands there at any depth. What is placed occurs,
and what occurs is placed unless it stands inside a function of the entry's name, which is not
written. Whatever a list of statements contributes to the text, statement by statement and body by
body, is contributed by a statement that is placed in it.
-/

namespace GlslText.Statement

/-- The lists of statements directly inside a statement. -/
def blocks : Statement → List (List Statement)
  | function _ body => [body]
  | branch _ whenTrue whenFalse => whenTrue :: whenFalse.toList
  | loop _ _ _ body => [body]
  | block body => [body]
  | _ => []

/-- A statement stands in a list of statements, at any depth. -/
inductive Occurs (s : Statement) : List Statement → Prop where
  | here {statements : List Statement} (listed : s ∈ statements) : Occurs s statements
  | inside {statements body : List Statement} {around : Statement} (listed : around ∈ statements)
      (opened : body ∈ around.blocks) (occurs : Occurs s body) : Occurs s statements

/-- Nothing occurs in no statements. -/
@[simp]
theorem not_occurs_nil (s : Statement) : ¬s.Occurs [] := by
  intro occurs
  cases occurs with
  | here listed => cases listed
  | inside listed => cases listed

/-- A statement occurs as the first one, inside the first one, or among the others. -/
@[simp]
theorem occurs_cons {s first : Statement} {rest : List Statement} :
    s.Occurs (first :: rest) ↔ s = first ∨ (∃ body ∈ first.blocks, s.Occurs body) ∨
      s.Occurs rest := by
  constructor
  · intro occurs
    cases occurs with
    | here listed =>
      rcases List.mem_cons.1 listed with same | later
      · exact Or.inl same
      · exact Or.inr (Or.inr (.here later))
    | inside listed opened occurs =>
      rcases List.mem_cons.1 listed with rfl | later
      · exact Or.inr (Or.inl ⟨_, opened, occurs⟩)
      · exact Or.inr (Or.inr (.inside later opened occurs))
  · rintro (rfl | ⟨body, opened, occurs⟩ | later)
    · exact .here List.mem_cons_self
    · exact .inside List.mem_cons_self opened occurs
    · cases later with
      | here listed => exact .here (List.mem_cons_of_mem _ listed)
      | inside listed opened occurs => exact .inside (List.mem_cons_of_mem _ listed) opened occurs

/-- What passes from the statements of its blocks to a statement holds of every statement. -/
@[elab_as_elim]
theorem blocksInduction {motive : Statement → Prop}
    (step : ∀ s, (∀ body ∈ s.blocks, ∀ t ∈ body, motive t) → motive s) (s : Statement) :
    motive s := by
  have single {s : Statement} {body : List Statement} (only : s.blocks = [body])
      (inside : ∀ t ∈ body, motive t) : motive s := by
    refine step s fun other opened => ?_
    rw [only, List.mem_singleton] at opened
    exact opened ▸ inside
  have empty {s : Statement} (closed : s.blocks = []) : motive s := by
    refine step s fun body opened => ?_
    rw [closed] at opened
    cases opened
  induction s using bodyInduction with
  | function signature body ih => exact single rfl ih
  | branch condition whenTrue ih => exact single rfl ih
  | branchElse condition whenTrue whenFalse ihTrue ihFalse =>
    refine step _ fun body opened => ?_
    rcases List.mem_cons.1 opened with rfl | second
    · exact ihTrue
    · exact List.mem_singleton.1 second ▸ ihFalse
  | loop start condition step body ih => exact single rfl ih
  | block body ih => exact single rfl ih
  | _ => exact empty rfl

variable {c : Context}

/-- A body is one of the blocks of its statement. -/
theorem mem_blocks_of_mem_bodies {s : Statement} {scope inner : Scope} {body : List Statement}
    (opened : (inner, body) ∈ s.bodies c scope) : body ∈ s.blocks := by
  cases s with
  | function signature content =>
    simp only [bodies] at opened
    split at opened
    · cases opened
    · obtain ⟨-, rfl⟩ := Prod.mk.inj (List.mem_singleton.1 opened)
      exact List.mem_cons_self
  | branch condition whenTrue whenFalse =>
    simp only [bodies, List.mem_cons, List.mem_map, Prod.mk.injEq] at opened
    rcases opened with ⟨-, rfl⟩ | ⟨other, second, -, rfl⟩
    · exact List.mem_cons_self
    · exact List.mem_cons_of_mem _ second
  | loop start condition step content =>
    obtain ⟨-, rfl⟩ := Prod.mk.inj (List.mem_singleton.1 opened)
    exact List.mem_cons_self
  | block content =>
    obtain ⟨-, rfl⟩ := Prod.mk.inj (List.mem_singleton.1 opened)
    exact List.mem_cons_self
  | _ => cases opened

/-- A block is a body of its statement, unless that is a function of the entry's name. -/
theorem exists_mem_bodies {s : Statement} {body : List Statement} (opened : body ∈ s.blocks)
    (written : ∀ signature content, s = function signature content →
      signature.name ≠ c.entry.name) (scope : Scope) :
    ∃ inner, (inner, body) ∈ s.bodies c scope := by
  cases s with
  | function signature content =>
    obtain rfl := List.mem_singleton.1 opened
    refine ⟨scope.ofFunction signature, ?_⟩
    rw [bodies, if_neg (written signature body rfl)]
    exact List.mem_cons_self
  | branch condition whenTrue whenFalse =>
    refine ⟨scope.inner, ?_⟩
    rcases List.mem_cons.1 opened with rfl | second
    · exact List.mem_cons_self
    · exact List.mem_cons_of_mem _ (List.mem_map_of_mem second)
  | loop start condition step content =>
    obtain rfl := List.mem_singleton.1 opened
    exact ⟨scope.inner, List.mem_cons_self⟩
  | block content =>
    obtain rfl := List.mem_singleton.1 opened
    exact ⟨scope.inner, List.mem_cons_self⟩
  | _ => cases opened

section Places

variable {s : Statement} {scope outer : Scope} {depth level : Nat} {statements : List Statement}

/-- A placed statement occurs. -/
theorem Placed.occurs (placed : Placed c s scope depth outer level statements) :
    s.Occurs statements := by
  induction placed with
  | here listed => exact .here listed
  | inside listed opened placed ih => exact .inside listed (mem_blocks_of_mem_bodies opened) ih

/-- Where no function of the entry's name occurs, every statement that occurs is placed. -/
theorem Occurs.placed (occurs : s.Occurs statements)
    (written : ∀ signature content, (function signature content).Occurs statements →
      signature.name ≠ c.entry.name) (outer : Scope) (level : Nat) :
    ∃ scope depth, Placed c s scope depth outer level statements := by
  induction occurs generalizing outer level with
  | here listed => exact ⟨outer, level, .here listed⟩
  | @inside statements body around listed opened occurs ih =>
    obtain ⟨inner, bodied⟩ := exists_mem_bodies opened
      (fun signature content same => written signature content (.here (same ▸ listed))) outer
    obtain ⟨scope, depth, placed⟩ := ih
      (fun signature content nested => written signature content (.inside listed opened nested))
      inner (level + 1)
    exact ⟨scope, depth, .inside listed bodied placed⟩

/-- If every statement of a list contributes something of its own and what its bodies contribute,
then the list contributes just what the statements placed in it contribute of their own. -/
theorem mem_iff_placed {α : Type} {own : Scope → Statement → List α}
    {all : Scope → List Statement → List α}
    (step : ∀ scope statements, all scope statements = statements.flatMap fun s =>
      own scope s ++ (s.bodies c scope).flatMap fun opened => all opened.1 opened.2)
    {x : α} (level : Nat) :
    x ∈ all outer statements ↔
      ∃ s scope depth, Placed c s scope depth outer level statements ∧ x ∈ own scope s := by
  constructor
  · -- The induction is on the statement that the contribution is found in.
    have found (s : Statement) : ∀ outer level statements, s ∈ statements →
        x ∈ own outer s ++ (s.bodies c outer).flatMap (fun opened => all opened.1 opened.2) →
        ∃ t scope depth, Placed c t scope depth outer level statements ∧ x ∈ own scope t := by
      induction s using blocksInduction with
      | step s ih =>
        intro outer level statements listed contributed
        rcases List.mem_append.1 contributed with itself | below
        · exact ⟨s, outer, level, .here listed, itself⟩
        · obtain ⟨⟨inner, body⟩, opened, deeper⟩ := List.mem_flatMap.1 below
          rw [step] at deeper
          obtain ⟨t, member, contributed⟩ := List.mem_flatMap.1 deeper
          obtain ⟨u, scope, depth, placed, itself⟩ := ih body (mem_blocks_of_mem_bodies opened) t
            member inner (level + 1) body member contributed
          exact ⟨u, scope, depth, .inside listed opened placed, itself⟩
    intro contributed
    rw [step] at contributed
    obtain ⟨s, listed, contributed⟩ := List.mem_flatMap.1 contributed
    exact found s outer level statements listed contributed
  · rintro ⟨s, scope, depth, placed, itself⟩
    induction placed with
    | here listed =>
      rw [step]
      exact List.mem_flatMap.2 ⟨s, listed, List.mem_append_left _ itself⟩
    | @inside outer inner level statements body around listed opened placed ih =>
      rw [step]
      refine List.mem_flatMap.2 ⟨around, listed, List.mem_append_right _ ?_⟩
      exact List.mem_flatMap.2 ⟨(inner, body), opened, ih⟩

end Places

section Belonging

variable {shader : Shader} {s : Statement} {scope outer : Scope} {statements : List Statement}

/-- The statements of a block belong to the shader with the statement around them. -/
theorem BelongsTo.block_of_mem {body : List Statement} (belongs : s.BelongsTo shader)
    (opened : body ∈ s.blocks) : ∀ t ∈ body, t.BelongsTo shader := by
  cases s with
  | function signature content =>
    obtain rfl := List.mem_singleton.1 opened
    exact belongs.functionBody
  | branch condition whenTrue whenFalse =>
    cases whenFalse with
    | none =>
      obtain rfl := List.mem_singleton.1 opened
      exact belongs.branchParts.2
    | some whenFalse =>
      obtain ⟨-, chosen, other⟩ := belongs.branchElseParts
      rcases List.mem_cons.1 opened with rfl | second
      · exact chosen
      · exact List.mem_singleton.1 second ▸ other
  | loop start condition step content =>
    obtain rfl := List.mem_singleton.1 opened
    exact belongs.loopBody
  | block content =>
    obtain rfl := List.mem_singleton.1 opened
    exact belongs.blockBody
  | _ => cases opened

/-- A statement belongs to the shader with the statements that it occurs in. -/
theorem Occurs.belongs (occurs : s.Occurs statements)
    (around : ∀ t ∈ statements, t.BelongsTo shader) : s.BelongsTo shader := by
  induction occurs with
  | here listed => exact around s listed
  | inside listed opened _ ih => exact ih ((around _ listed).block_of_mem opened)

/-- The scope of a body belongs to the shader with its statement and the scope of that. -/
theorem BelongsTo.scope_of_mem_bodies {inner : Scope} {body : List Statement}
    (belongs : s.BelongsTo shader) (returned : scope.BelongsTo shader)
    (opened : (inner, body) ∈ s.bodies c scope) : inner.BelongsTo shader := by
  cases s with
  | function signature content =>
    simp only [bodies] at opened
    split at opened
    · cases opened
    · obtain ⟨rfl, -⟩ := Prod.mk.inj (List.mem_singleton.1 opened)
      rintro _ ⟨⟩
      exact belongs.functionResult
  | branch condition whenTrue whenFalse =>
    simp only [bodies, List.mem_cons, List.mem_map, Prod.mk.injEq] at opened
    rcases opened with ⟨rfl, -⟩ | ⟨-, -, rfl, -⟩
    · exact returned.inner
    · exact returned.inner
  | loop start condition step content =>
    obtain ⟨rfl, -⟩ := Prod.mk.inj (List.mem_singleton.1 opened)
    exact returned.inner
  | block content =>
    obtain ⟨rfl, -⟩ := Prod.mk.inj (List.mem_singleton.1 opened)
    exact returned.inner
  | _ => cases opened

/-- A placed statement stands in a scope that belongs to the shader. -/
theorem Placed.scope_belongs {depth level : Nat}
    (placed : Placed c s scope depth outer level statements)
    (around : ∀ t ∈ statements, t.BelongsTo shader) (returned : outer.BelongsTo shader) :
    scope.BelongsTo shader := by
  induction placed with
  | here => exact returned
  | inside listed opened _ ih =>
    have belongs := around _ listed
    exact ih (belongs.block_of_mem (mem_blocks_of_mem_bodies opened))
      (belongs.scope_of_mem_bodies returned opened)

end Belonging

end GlslText.Statement
