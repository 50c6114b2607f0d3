import GlslText.Proofs.Generation
import Mathlib.Data.List.Basic

/-!
# Places of statements in the text

Each body of a statement is lowered in a scope of its own and written one level deeper. A
statement is placed in a list of statements if it is one of them or stands, at any depth, in a
body of one of them. The lines of a placed statement stand together in the text of the list.
-/

namespace GlslText

namespace Statement

/-- The bodies of a statement, each with the scope it is lowered in. The function that has the
name of the entry is not written. -/
def bodies (c : Context) (scope : Scope) : Statement → List (Scope × List Statement)
  | function signature body =>
    if signature.name = c.entry.name then [] else [(scope.ofFunction signature, body)]
  | branch _ whenTrue whenFalse =>
    (scope.inner, whenTrue) :: whenFalse.toList.map fun body => (scope.inner, body)
  | loop _ _ _ body => [(scope.inner, body)]
  | block body => [(scope.inner, body)]
  | _ => []

/-- A statement is lowered in a scope and written at a depth, somewhere in the statements of an
outer scope that are written at an outer depth. -/
inductive Placed (c : Context) (s : Statement) (scope : Scope) (depth : Nat) :
    Scope → Nat → List Statement → Prop where
  | here {statements : List Statement} (listed : s ∈ statements) :
      Placed c s scope depth scope depth statements
  | inside {outer inner : Scope} {level : Nat} {statements body : List Statement}
      {around : Statement} (listed : around ∈ statements)
      (opened : (inner, body) ∈ around.bodies c outer)
      (placed : Placed c s scope depth inner (level + 1) body) :
      Placed c s scope depth outer level statements

variable {c : Context}

/-- A body is lowered in the scope inside that of its statement, and in a scope of its own if it is
that of a function. -/
theorem scope_of_mem_bodies {scope inner : Scope} {s : Statement} {body : List Statement}
    (opened : (inner, body) ∈ s.bodies c scope) :
    inner = scope.inner ∨ ∃ signature, inner = scope.ofFunction signature := by
  cases s with
  | function signature content =>
    simp only [bodies] at opened
    split at opened
    · cases opened
    · obtain ⟨rfl, -⟩ := Prod.mk.inj (List.mem_singleton.1 opened)
      exact Or.inr ⟨signature, rfl⟩
  | branch condition whenTrue whenFalse =>
    simp only [bodies, List.mem_cons, List.mem_map, Prod.mk.injEq] at opened
    rcases opened with ⟨rfl, -⟩ | ⟨-, -, rfl, -⟩
    · exact Or.inl rfl
    · exact Or.inl rfl
  | loop start condition step content =>
    obtain ⟨rfl, -⟩ := Prod.mk.inj (List.mem_singleton.1 opened)
    exact Or.inl rfl
  | block content =>
    obtain ⟨rfl, -⟩ := Prod.mk.inj (List.mem_singleton.1 opened)
    exact Or.inl rfl
  | _ => cases opened

/-- A body is in `main` exactly when its statement is. -/
theorem inMain_of_mem_bodies {scope inner : Scope} {s : Statement} {body : List Statement}
    (opened : (inner, body) ∈ s.bodies c scope) : inner.inMain = scope.inMain := by
  rcases scope_of_mem_bodies opened with rfl | ⟨signature, rfl⟩
  · rfl
  · rfl

/-- No body is the shader's own list. -/
theorem isGlobal_of_mem_bodies {scope inner : Scope} {s : Statement} {body : List Statement}
    (opened : (inner, body) ∈ s.bodies c scope) : inner.isGlobal = false := by
  rcases scope_of_mem_bodies opened with rfl | ⟨signature, rfl⟩
  · rfl
  · rfl

/-- The lines of a body stand together in those of its statement. -/
theorem lines_of_mem_bodies {scope inner : Scope} {s : Statement} {body : List Statement}
    (opened : (inner, body) ∈ s.bodies c scope) (names : Renaming) (depth : Nat) :
    Glsl.Stmt.linesAll names (depth + 1) (lowerAll c inner body) <:+:
      Glsl.Stmt.linesAll names depth (s.lower c scope) := by
  cases s with
  | function signature content =>
    by_cases isEntry : signature.name = c.entry.name
    · simp [bodies, isEntry] at opened
    · simp only [bodies, if_neg isEntry, List.mem_singleton, Prod.mk.injEq] at opened
      obtain ⟨rfl, rfl⟩ := opened
      simp only [lower, if_neg isEntry, Glsl.Stmt.linesAll, Glsl.Stmt.lines, List.append_nil]
      exact List.infix_cons (List.infix_append' [] _ _)
  | branch condition whenTrue whenFalse =>
    cases whenFalse with
    | none =>
      obtain ⟨rfl, rfl⟩ := Prod.mk.inj (List.mem_singleton.1 opened)
      simp only [lower, Glsl.Stmt.linesAll, Glsl.Stmt.lines, List.append_nil]
      exact List.infix_cons (List.infix_append' [] _ _)
    | some whenFalse =>
      simp only [lower, Glsl.Stmt.linesAll, Glsl.Stmt.lines, List.append_nil]
      rcases List.mem_cons.1 opened with first | second
      · obtain ⟨rfl, rfl⟩ := Prod.mk.inj first
        exact List.infix_cons (List.infix_append' [] _ _)
      · obtain ⟨rfl, rfl⟩ := Prod.mk.inj (List.mem_singleton.1 second)
        refine List.infix_cons (List.infix_append_of_infix_right ?_)
        exact List.infix_cons (List.infix_append' [] _ _)
  | loop start condition step content =>
    obtain ⟨rfl, rfl⟩ := Prod.mk.inj (List.mem_singleton.1 opened)
    simp only [lower, Glsl.Stmt.linesAll, Glsl.Stmt.lines, List.append_nil]
    exact List.infix_cons (List.infix_append' [] _ _)
  | block content =>
    obtain ⟨rfl, rfl⟩ := Prod.mk.inj (List.mem_singleton.1 opened)
    simp only [lower, Glsl.Stmt.linesAll, Glsl.Stmt.lines, List.append_nil]
    exact List.infix_cons (List.infix_append' [] _ _)
  | _ => cases opened

/-- The lines of a statement of a list stand together in those of the list. -/
theorem lines_of_mem {scope : Scope} {s : Statement} {statements : List Statement}
    (listed : s ∈ statements) (names : Renaming) (depth : Nat) :
    Glsl.Stmt.linesAll names depth (s.lower c scope) <:+:
      Glsl.Stmt.linesAll names depth (lowerAll c scope statements) := by
  obtain ⟨before, after, rfl⟩ := List.append_of_mem listed
  refine ⟨Glsl.Stmt.linesAll names depth (lowerAll c scope before),
    Glsl.Stmt.linesAll names depth (lowerAll c scope after), ?_⟩
  simp [lowerAll_eq_flatMap, Glsl.Stmt.linesAll_eq_flatMap]

namespace Placed

variable {s : Statement} {scope outer : Scope} {depth level : Nat} {statements : List Statement}

/-- A placed statement is in `main` exactly when the statements around it are. -/
theorem inMain (placed : Placed c s scope depth outer level statements) :
    scope.inMain = outer.inMain := by
  induction placed with
  | here => rfl
  | inside listed opened placed ih => rw [ih, inMain_of_mem_bodies opened]

/-- A statement placed in a body is none of the shader's own list. -/
theorem isGlobal (placed : Placed c s scope depth outer level statements)
    (inner : outer.isGlobal = false) : scope.isGlobal = false := by
  induction placed with
  | here => exact inner
  | inside listed opened placed ih => exact ih (isGlobal_of_mem_bodies opened)

/-- The lines of a placed statement stand together in those of the statements around it. -/
theorem lines (placed : Placed c s scope depth outer level statements) (names : Renaming) :
    Glsl.Stmt.linesAll names depth (s.lower c scope) <:+:
      Glsl.Stmt.linesAll names level (lowerAll c outer statements) := by
  induction placed with
  | here listed => exact lines_of_mem listed names depth
  | @inside outer inner level statements body around listed opened placed ih =>
    -- In the body, the body in the statement around it, and that in the list.
    exact (ih.trans (lines_of_mem_bodies opened names level)).trans
      (lines_of_mem listed names level)

end Placed

end Statement

namespace Context

variable {c : Context} {s : Statement} {scope : Scope} {depth : Nat}

/-- The lines of a statement of the entry stand together in the text. -/
theorem lines_of_entry (placed : s.Placed c scope depth c.mainScope 1 c.entry.body)
    (names : Renaming) :
    Glsl.Stmt.linesAll names depth (s.lower c scope) <:+: c.program.lines names := by
  refine (placed.lines names).trans ?_
  rw [Glsl.Program.lines, Glsl.Program.mainLines]
  exact List.infix_append_of_infix_right (List.infix_append _ _ _)

/-- The lines of a statement of the shader stand together in the text. -/
theorem lines_of_shader (placed : s.Placed c scope depth Scope.global 0 c.shader)
    (names : Renaming) :
    Glsl.Stmt.linesAll names depth (s.lower c scope) <:+: c.program.lines names :=
  (placed.lines names).trans (List.infix_append _ _ _)

end Context

end GlslText
