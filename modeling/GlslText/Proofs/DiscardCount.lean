import GlslText.Proofs.Generation

/-!
# Counting discards

A discard of the shader is a discard of the text in a fragment and nothing in a vertex stage. So the
lowering of a list of statements has as many discards as the list, at any depth, or none at all.
Functions that have the name of the entry are not written, and what stands in them is not counted.
-/

namespace GlslText

namespace Glsl.Stmt

mutual

/-- How many discards a statement has, at any depth. -/
def discards : Stmt → Nat
  | function _ body => discardsAll body
  | branch _ whenTrue none => discardsAll whenTrue
  | branch _ whenTrue (some whenFalse) => discardsAll whenTrue + discardsAll whenFalse
  | loop _ _ _ body => discardsAll body
  | block body => discardsAll body
  | discard => 1
  | _ => 0

/-- How many discards several statements have. -/
def discardsAll : List Stmt → Nat
  | [] => 0
  | stmt :: rest => stmt.discards + discardsAll rest

end

/-- Two lists of statements joined have the discards of both. -/
theorem discardsAll_append (first second : List Stmt) :
    discardsAll (first ++ second) = discardsAll first + discardsAll second := by
  induction first with
  | nil => simp [discardsAll]
  | cons stmt rest ih => simp [discardsAll, ih, Nat.add_assoc]

/-- A list of one statement has the discards of that statement. -/
theorem discardsAll_singleton (stmt : Stmt) : discardsAll [stmt] = stmt.discards := by
  simp [discardsAll]

end Glsl.Stmt

namespace Statement

mutual

/-- How many discards a statement has, at any depth, outside functions of the given name. -/
def discards (unwritten : String) : Statement → Nat
  | function signature body =>
    if signature.name = unwritten then 0 else discardsAll unwritten body
  | branch _ whenTrue none => discardsAll unwritten whenTrue
  | branch _ whenTrue (some whenFalse) =>
    discardsAll unwritten whenTrue + discardsAll unwritten whenFalse
  | loop _ _ _ body => discardsAll unwritten body
  | block body => discardsAll unwritten body
  | discard => 1
  | _ => 0

/-- How many discards several statements have outside functions of the given name. -/
def discardsAll (unwritten : String) : List Statement → Nat
  | [] => 0
  | s :: rest => s.discards unwritten + discardsAll unwritten rest

end

end Statement

/-! ## Discards of lowered statements -/

variable {c : Context}

/-- A declaration is lowered without discards. -/
theorem Declaration.discardsAll_lower (scope : Scope) (declaration : Declaration) :
    Glsl.Stmt.discardsAll (declaration.lower c scope) = 0 := by
  unfold lower lowerGlobal
  split
  · rfl
  split
  · split
    · split <;> rfl
    · split
      · cases declaration.textureUnit <;> rfl
      · rfl
  · rfl

/-- A structure is lowered without discards. -/
theorem Struct.discardsAll_lower (definition : Struct) :
    Glsl.Stmt.discardsAll (definition.lower c) = 0 := by
  unfold lower
  split <;> rfl

/-- The content of a buffer is lowered without discards. -/
theorem Declaration.discardsAll_lowerBuffer (content : Declaration) :
    Glsl.Stmt.discardsAll (content.lowerBuffer c) = 0 := by
  unfold lowerBuffer
  dsimp only
  split <;> rfl

/-- A returned value is lowered without discards. -/
theorem Expr.discardsAll_lowerResult (scope : Scope) (value : Expr) :
    Glsl.Stmt.discardsAll (value.lowerResult c scope) = 0 := by
  unfold lowerResult
  dsimp only
  split
  · split
    · rfl
    · split <;> rfl
  · rfl

namespace Statement

open Glsl.Stmt (discardsAll_append discardsAll_singleton)

mutual

/-- A lowered statement has the discards of the statement that are written. -/
theorem discardsAll_lower (c : Context) (scope : Scope) : (s : Statement) →
    Glsl.Stmt.discardsAll (s.lower c scope) =
      if c.profile.isFragment then s.discards c.entry.name else 0
  | declare declaration => (declaration.discardsAll_lower scope).trans (ite_self 0).symm
  | struct definition => definition.discardsAll_lower.trans (ite_self 0).symm
  | buffer _ content => content.discardsAll_lowerBuffer.trans (ite_self 0).symm
  | function signature body => by
    rw [lower, discards]
    split
    · exact (ite_self 0).symm
    · rw [discardsAll_singleton, Glsl.Stmt.discards, discardsAll_lowerAll]
  | branch condition whenTrue none => by
    rw [lower, discardsAll_singleton, Glsl.Stmt.discards, discardsAll_lowerAll, discards]
  | branch condition whenTrue (some whenFalse) => by
    rw [lower, discardsAll_singleton, Glsl.Stmt.discards, discardsAll_lowerAll,
      discardsAll_lowerAll, discards]
    split <;> rfl
  | loop start condition step body => by
    rw [lower, discardsAll_singleton, Glsl.Stmt.discards, discardsAll_lowerAll, discards]
  | block body => by
    rw [lower, discardsAll_singleton, Glsl.Stmt.discards, discardsAll_lowerAll, discards]
  | result none => (ite_self 0).symm
  | result (some value) => (value.discardsAll_lowerResult scope).trans (ite_self 0).symm
  | discard => by
    rw [lower, discards]
    split <;> rfl
  | leave => (ite_self 0).symm
  | next => (ite_self 0).symm
  | evaluate expr => (ite_self 0).symm

/-- Lowered statements have the discards of the statements that are written. -/
theorem discardsAll_lowerAll (c : Context) (scope : Scope) : (statements : List Statement) →
    Glsl.Stmt.discardsAll (lowerAll c scope statements) =
      if c.profile.isFragment then discardsAll c.entry.name statements else 0
  | [] => (ite_self 0).symm
  | s :: rest => by
    rw [lowerAll, discardsAll_append, discardsAll_lower, discardsAll_lowerAll, discardsAll]
    split <;> rfl

end

end Statement

end GlslText
