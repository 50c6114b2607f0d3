import GlslText.Lowering.Stmt

/-!
# How lines are written

A text grows at its end by steps. A line is written whole by one step, or by several that start it,
fill it and end it. A statement is written line after line in these two ways, so a text that stands
at the start of a line stands there again behind every statement, whatever the statement and its
faults.
-/

namespace GlslText

/-- A text that stands at the start of a line: it is empty or has just ended one. -/
def AtLineStart (text : String) : Prop :=
  text = "" ∨ ∃ front, text = front ++ "\n"

/-! ## Steps that write lines -/

namespace Append

/-- The steps of a line that is started, filled with texts and ended. -/
def assemble (depth : Nat) (texts : List String) (closing : String) : List Append :=
  beginLine depth :: (texts.map write ++ [endLine closing])

/-- Steps that add just the given lines, whatever is written already. -/
def Writes (steps : List Append) (lines : List Line) : Prop :=
  ∀ start, run start steps = start ++ Line.renderAll lines

/-- Steps in two groups are taken one group after the other. -/
theorem run_append (start : String) (first second : List Append) :
    run start (first ++ second) = run (run start first) second :=
  List.foldl_append

/-- Plain texts are added one behind the other. -/
theorem run_map_write (start : String) (texts : List String) :
    run start (texts.map write) = start ++ String.join texts := by
  induction texts generalizing start with
  | nil => simp [run]
  | cons first rest ih =>
    have later := ih (start ++ first)
    simpa [run, text, String.append_assoc] using later

namespace Writes

/-- Without steps no line is written. -/
theorem nil : Writes [] [] := by
  intro start
  simp [run, Line.renderAll]

/-- Steps that follow each other write their lines behind each other. -/
theorem append {first second : List Append} {front back : List Line} (head : Writes first front)
    (tail : Writes second back) : Writes (first ++ second) (front ++ back) := by
  intro start
  rw [run_append, head, tail, Line.renderAll_append, String.append_assoc]

/-- A whole line is written in one step. -/
theorem whole (line : Line) : Writes [.whole line] [line] := by
  intro start
  simp [run, text, Line.renderAll]

/-- An ended line is the line of all its texts, since what ends it is not empty. -/
theorem assemble {depth : Nat} {texts : List String} {closing content : String}
    (same : content = String.join texts ++ closing) (ends : closing ≠ "") :
    Writes (Append.assemble depth texts closing) [⟨depth, content⟩] := by
  intro start
  have filled : String.join texts ++ closing ≠ "" := by simp [ends]
  rw [same]
  calc run start (Append.assemble depth texts closing)
      = run (run (start ++ indentation depth) (texts.map .write)) [.endLine closing] := by
        rw [← run_append]
        rfl
    _ = start ++ indentation depth ++ String.join texts ++ (closing ++ "\n") := by
        rw [run_map_write]
        rfl
    _ = start ++ Line.renderAll [⟨depth, String.join texts ++ closing⟩] := by
        simp [Line.renderAll, Line.render, filled, String.append_assoc]

/-- A step that writes a line stands in front of others. -/
theorem cons {step : Append} {steps : List Append} {line : Line} {lines : List Line}
    (head : Writes [step] [line]) (tail : Writes steps lines) :
    Writes (step :: steps) (line :: lines) :=
  head.append tail

/-- Items that write a line each write these lines in their order. -/
theorem flatMap {α : Type} {items : List α} {steps : α → List Append} {line : α → Line}
    (each : ∀ item, Writes (steps item) [line item]) :
    Writes (items.flatMap steps) (items.map line) := by
  induction items with
  | nil => exact nil
  | cons item rest ih => exact (each item).append ih

end Writes

end Append

/-! ## Statements -/

namespace Glsl

open GlslText.Append (assemble Writes)

/-- The steps of a structure; behind a global one an empty line is written. -/
def structSteps (names : Renaming) (depth : Nat) (name : Name) (fields : List Declarator) :
    List Append :=
  .whole ⟨depth, "struct " ++ name.text names ++ " \x7b"⟩
    :: (fields.flatMap (fun field => assemble (depth + 1) [field.text names] ";")
      ++ [.whole ⟨depth, "\x7d;"⟩] ++ if depth = 0 then [.whole Line.blank] else [])

/-- The steps of a structure write its lines. -/
theorem writes_struct (names : Renaming) (depth : Nat) (name : Name) (fields : List Declarator) :
    Writes (structSteps names depth name fields) (structLines names depth name fields) := by
  have inner : Writes (fields.flatMap fun field => assemble (depth + 1) [field.text names] ";")
      (fields.map fun field => ⟨depth + 1, field.text names ++ ";"⟩) :=
    .flatMap fun field => .assemble (by simp) (by decide)
  have behind : Writes (if depth = 0 then [.whole Line.blank] else [])
      (if depth = 0 then [Line.blank] else []) := by
    split
    · exact .whole Line.blank
    · exact .nil
  exact .cons (.whole _) ((inner.append (.whole _)).append behind)

namespace Stmt

mutual

/-- The steps by which a statement is written at a depth. -/
def steps (names : Renaming) (depth : Nat) : Stmt → List Append
  | declare storage declarator => assemble depth [storage.text, declarator.text names] ";"
  | sampler isLow base name =>
    [.whole ⟨depth, "uniform " ++ (if isLow then "lowp " else "") ++ base.spelling ++ " "
      ++ name.text names ++ ";"⟩]
  | define name (.array literal) =>
    assemble depth ["#define ", name.text names, " ", "(", literal.text names "(" ")"] ")"
  | define name (.name target) =>
    [.whole ⟨depth, "#define " ++ name.text names ++ " " ++ target.text names⟩]
  | struct name fields => structSteps names depth name fields
  | function prototype body =>
    assemble depth [prototype.text names] " \x7b"
      ++ (stepsAll names (depth + 1) body ++ [.whole ⟨depth, "\x7d"⟩, .whole Line.blank])
  | branch condition whenTrue none =>
    assemble depth ["if (", condition.text names] ") \x7b"
      ++ (stepsAll names (depth + 1) whenTrue ++ [.whole ⟨depth, "\x7d"⟩])
  | branch condition whenTrue (some whenFalse) =>
    assemble depth ["if (", condition.text names] ") \x7b"
      ++ (stepsAll names (depth + 1) whenTrue ++ .whole ⟨depth, "\x7d else \x7b"⟩
        :: (stepsAll names (depth + 1) whenFalse ++ [.whole ⟨depth, "\x7d"⟩]))
  | loop start condition step body =>
    assemble depth [loopHead names start condition step] " \x7b"
      ++ (stepsAll names (depth + 1) body ++ [.whole ⟨depth, "\x7d"⟩])
  | block body =>
    .whole ⟨depth, "\x7b"⟩ :: (stepsAll names (depth + 1) body ++ [.whole ⟨depth, "\x7d"⟩])
  | result none => [.whole ⟨depth, "return;"⟩]
  | result (some value) => assemble depth ["return ", value.text names] ";"
  | discard => [.whole ⟨depth, "discard;"⟩]
  | leave => [.whole ⟨depth, "break;"⟩]
  | next => [.whole ⟨depth, "continue;"⟩]
  | effect done => assemble depth [done.text names] ";"
  | faulty _ => []

/-- The steps of several statements. -/
def stepsAll (names : Renaming) (depth : Nat) : List Stmt → List Append
  | [] => []
  | stmt :: rest => stmt.steps names depth ++ stepsAll names depth rest

end

mutual

/-- The steps of a statement write its lines. -/
theorem writes_steps (names : Renaming) (depth : Nat) :
    (stmt : Stmt) → Writes (stmt.steps names depth) (stmt.lines names depth)
  | declare storage declarator => .assemble (by simp) (by decide)
  | sampler isLow base name => .whole _
  | define name (.array literal) =>
    .assemble (by simp [Replacement.text, String.append_assoc]) (by decide)
  | define name (.name target) => .whole _
  | struct name fields => writes_struct names depth name fields
  | function prototype body => by
    have head : Writes (assemble depth [prototype.text names] " \x7b")
        [⟨depth, prototype.text names ++ " \x7b"⟩] := .assemble (by simp) (by decide)
    have inner := writes_stepsAll names (depth + 1) body
    exact head.append (inner.append (.cons (.whole _) (.whole _)))
  | branch condition whenTrue none => by
    have head : Writes (assemble depth ["if (", condition.text names] ") \x7b")
        [⟨depth, "if (" ++ condition.text names ++ ") \x7b"⟩] := .assemble (by simp) (by decide)
    have chosen := writes_stepsAll names (depth + 1) whenTrue
    exact head.append (chosen.append (.whole _))
  | branch condition whenTrue (some whenFalse) => by
    have head : Writes (assemble depth ["if (", condition.text names] ") \x7b")
        [⟨depth, "if (" ++ condition.text names ++ ") \x7b"⟩] := .assemble (by simp) (by decide)
    have chosen := writes_stepsAll names (depth + 1) whenTrue
    have other := writes_stepsAll names (depth + 1) whenFalse
    exact head.append (chosen.append (.cons (.whole _) (other.append (.whole _))))
  | loop start condition step body => by
    have head : Writes (assemble depth [loopHead names start condition step] " \x7b")
        [⟨depth, loopHead names start condition step ++ " \x7b"⟩] :=
      .assemble (by simp) (by decide)
    have inner := writes_stepsAll names (depth + 1) body
    exact head.append (inner.append (.whole _))
  | block body => by
    have inner := writes_stepsAll names (depth + 1) body
    exact .cons (.whole _) (inner.append (.whole _))
  | result none => .whole _
  | result (some value) => .assemble (by simp) (by decide)
  | discard => .whole _
  | leave => .whole _
  | next => .whole _
  | effect done => .assemble (by simp) (by decide)
  | faulty _ => .nil

/-- The steps of several statements write their lines. -/
theorem writes_stepsAll (names : Renaming) (depth : Nat) :
    (stmts : List Stmt) → Writes (stepsAll names depth stmts) (linesAll names depth stmts)
  | [] => .nil
  | stmt :: rest => (writes_steps names depth stmt).append (writes_stepsAll names depth rest)

end

end Stmt

end Glsl

namespace Statement

variable (c : Context) (names : Renaming) (scope : Scope) (depth : Nat) (s : Statement)

/-- The text that a statement of a shader becomes in a scope and at a depth. -/
def textAt : String :=
  Line.renderAll (Glsl.Stmt.linesAll names depth (s.lower c scope))

/-- The steps by which a statement of a shader is written in a scope and at a depth. -/
def steps : List Append :=
  Glsl.Stmt.stepsAll names depth (s.lower c scope)

/-- The steps of a statement add its text, whatever is written already. -/
theorem run_steps (start : String) :
    Append.run start (s.steps c names scope depth) = start ++ s.textAt c names scope depth :=
  Glsl.Stmt.writes_stepsAll names depth (s.lower c scope) start

end Statement

/-- Behind whole lines another line starts. -/
theorem AtLineStart.append {start : String} (stands : AtLineStart start) (lines : List Line) :
    AtLineStart (start ++ Line.renderAll lines) := by
  induction lines generalizing start with
  | nil => simpa [Line.renderAll] using stands
  | cons line rest ih =>
    have ended : AtLineStart (start ++ line.render) :=
      Or.inr ⟨start ++ ((if line.text = "" then "" else indentation line.depth) ++ line.text),
        by simp [Line.render, String.append_assoc]⟩
    simpa [Line.renderAll, String.append_assoc] using ih ended

end GlslText
