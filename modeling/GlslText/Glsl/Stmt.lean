import GlslText.Glsl.Term
import GlslText.Shader.Statement
import GlslText.Text.Line

/-!
# Statements of the generated text

A statement of the generated text is data like a term. Written at a depth it gives whole lines:
the lines of a body are one level deeper than its head and its closing bracket.
-/

namespace GlslText.Glsl

/-- The square brackets behind the name or the type of an array. -/
structure Brackets where
  /-- The size; brackets may be empty. -/
  size : Option Term

/-- An array written out: its element type, its brackets and its elements. -/
structure ArrayLiteral where
  element : Name
  brackets : Brackets
  values : List Term

/-- What a variable starts with. -/
inductive Initial where
  | value (term : Term)
  | array (literal : ArrayLiteral)

/-- A variable with its type. -/
structure Declarator where
  type : Name
  name : Name
  brackets : Option Brackets
  initial : Option Initial

/-- How a variable is stored. -/
inductive Storage where
  | plain
  | const
  | uniform
deriving DecidableEq, Repr

/-- A parameter of a function. -/
structure Parameter where
  passing : Passing
  declarator : Declarator

/-- The head of a function. -/
structure Prototype where
  result : Name
  name : Name
  parameters : List Parameter

/-- What a macro stands for. -/
inductive Replacement where
  | array (literal : ArrayLiteral)
  | name (target : Name)

/-- What is done for its effect. -/
inductive Effect where
  | store (op : BinaryOp) (left right : Term)
  | evaluate (term : Term)

/-- A statement of the generated text. -/
inductive Stmt where
  | declare (storage : Storage) (declarator : Declarator)
  /-- A global sampler, of low precision where precision matters. -/
  | sampler (isLow : Bool) (base : BaseType) (name : Name)
  | define (name : Name) (replacement : Replacement)
  | struct (name : Name) (fields : List Declarator)
  | function (prototype : Prototype) (body : List Stmt)
  | branch (condition : Term) (whenTrue : List Stmt) (whenFalse : Option (List Stmt))
  | loop (start : Option Declarator) (condition : Option Term) (step : Option Effect)
      (body : List Stmt)
  | block (body : List Stmt)
  | result (value : Option Term)
  | discard
  | leave
  | next
  | effect (done : Effect)
  /-- Nothing, in place of a faulty statement. -/
  | faulty (fault : Fault)

/-! ## Text -/

/-- The text of something that may be absent. -/
def textOf {α : Type} (text : α → String) (value : Option α) : String :=
  (value.map text).getD ""

/-- The brackets with the size between them. -/
def Brackets.text (names : Renaming) (brackets : Brackets) : String :=
  "[" ++ textOf (Term.text names) brackets.size ++ "]"

/-- An array written out, its elements between the given brackets. -/
def ArrayLiteral.text (names : Renaming) (opening closing : String) (literal : ArrayLiteral) :
    String :=
  literal.element.text names ++ literal.brackets.text names ++ opening
    ++ Term.textList names literal.values ++ closing

/-- What stands behind the equals sign. -/
def Initial.text (names : Renaming) : Initial → String
  | value term => term.text names
  | array literal => literal.text names "( " " )"

/-- Type, name, brackets and initial value. -/
def Declarator.text (names : Renaming) (declarator : Declarator) : String :=
  declarator.type.text names ++ " " ++ declarator.name.text names
    ++ textOf (Brackets.text names) declarator.brackets
    ++ textOf (fun initial => " = " ++ initial.text names) declarator.initial

/-- The word in front of a variable. -/
def Storage.text : Storage → String
  | plain => ""
  | const => "const "
  | uniform => "uniform "

/-- A parameter with the way it is passed. -/
def Parameter.text (names : Renaming) (parameter : Parameter) : String :=
  (match parameter.passing with
    | .plain => ""
    | .input => "in "
    | .inOut => "inout ") ++ parameter.declarator.text names

/-- The head of a function without its opening bracket. -/
def Prototype.text (names : Renaming) (prototype : Prototype) : String :=
  prototype.result.text names ++ " " ++ prototype.name.text names ++ "("
    ++ String.intercalate ", " (prototype.parameters.map (Parameter.text names)) ++ ")"

/-- What a macro stands for; an array is enclosed in brackets. -/
def Replacement.text (names : Renaming) : Replacement → String
  | array literal => "(" ++ literal.text names "(" ")" ++ ")"
  | name target => target.text names

/-- An effect as it stands in a statement, not enclosed in brackets. -/
def Effect.text (names : Renaming) : Effect → String
  | store op left right => left.text names ++ " " ++ op.sign ++ " " ++ right.text names
  | evaluate term => term.text names

/-! ## Lines -/

/-- The head of a loop without its opening bracket. -/
def loopHead (names : Renaming) (start : Option Declarator) (condition : Option Term)
    (step : Option Effect) : String :=
  "for (" ++ textOf (Declarator.text names) start ++ "; " ++ textOf (Term.text names) condition
    ++ "; " ++ textOf (Effect.text names) step ++ ")"

/-- The lines of a structure; a global one is followed by an empty line. -/
def structLines (names : Renaming) (depth : Nat) (name : Name) (fields : List Declarator) :
    List Line :=
  ⟨depth, "struct " ++ name.text names ++ " \x7b"⟩
    :: (fields.map (fun field => ⟨depth + 1, field.text names ++ ";"⟩)
      ++ [⟨depth, "\x7d;"⟩] ++ if depth = 0 then [Line.blank] else [])

namespace Stmt

mutual

/-- The lines of a statement at a depth. -/
def lines (names : Renaming) (depth : Nat) : Stmt → List Line
  | declare storage declarator => [⟨depth, storage.text ++ declarator.text names ++ ";"⟩]
  | sampler isLow base name =>
    [⟨depth, "uniform " ++ (if isLow then "lowp " else "") ++ base.spelling ++ " "
      ++ name.text names ++ ";"⟩]
  | define name replacement =>
    [⟨depth, "#define " ++ name.text names ++ " " ++ replacement.text names⟩]
  | struct name fields => structLines names depth name fields
  | function prototype body =>
    ⟨depth, prototype.text names ++ " \x7b"⟩
      :: (linesAll names (depth + 1) body ++ [⟨depth, "\x7d"⟩, Line.blank])
  | branch condition whenTrue none =>
    ⟨depth, "if (" ++ condition.text names ++ ") \x7b"⟩
      :: (linesAll names (depth + 1) whenTrue ++ [⟨depth, "\x7d"⟩])
  | branch condition whenTrue (some whenFalse) =>
    ⟨depth, "if (" ++ condition.text names ++ ") \x7b"⟩
      :: (linesAll names (depth + 1) whenTrue ++ ⟨depth, "\x7d else \x7b"⟩
        :: (linesAll names (depth + 1) whenFalse ++ [⟨depth, "\x7d"⟩]))
  | loop start condition step body =>
    ⟨depth, loopHead names start condition step ++ " \x7b"⟩
      :: (linesAll names (depth + 1) body ++ [⟨depth, "\x7d"⟩])
  | block body => ⟨depth, "\x7b"⟩ :: (linesAll names (depth + 1) body ++ [⟨depth, "\x7d"⟩])
  | result none => [⟨depth, "return;"⟩]
  | result (some value) => [⟨depth, "return " ++ value.text names ++ ";"⟩]
  | discard => [⟨depth, "discard;"⟩]
  | leave => [⟨depth, "break;"⟩]
  | next => [⟨depth, "continue;"⟩]
  | effect done => [⟨depth, done.text names ++ ";"⟩]
  | faulty _ => []

/-- The lines of several statements at a depth. -/
def linesAll (names : Renaming) (depth : Nat) : List Stmt → List Line
  | [] => []
  | stmt :: rest => stmt.lines names depth ++ linesAll names depth rest

end

/-- The lines of several statements are those of each in turn. -/
theorem linesAll_eq_flatMap (names : Renaming) (depth : Nat) (stmts : List Stmt) :
    linesAll names depth stmts = stmts.flatMap (lines names depth) := by
  induction stmts with
  | nil => rfl
  | cons stmt rest ih => rw [linesAll, ih, List.flatMap_cons]

end Stmt

/-! ## Faults -/

/-- The faults in the size. -/
def Brackets.faults (brackets : Brackets) : List Fault :=
  brackets.size.toList.flatMap Term.faults

/-- The faults in the size and the elements. -/
def ArrayLiteral.faults (literal : ArrayLiteral) : List Fault :=
  literal.brackets.faults ++ Term.faultsAll literal.values

/-- The faults of an initial value. -/
def Initial.faults : Initial → List Fault
  | value term => term.faults
  | array literal => literal.faults

/-- The faults of a variable. -/
def Declarator.faults (declarator : Declarator) : List Fault :=
  declarator.brackets.toList.flatMap Brackets.faults
    ++ declarator.initial.toList.flatMap Initial.faults

/-- The faults of what a macro stands for. -/
def Replacement.faults : Replacement → List Fault
  | array literal => literal.faults
  | name _ => []

/-- The faults of an effect. -/
def Effect.faults : Effect → List Fault
  | store _ left right => left.faults ++ right.faults
  | evaluate term => term.faults

/-- The faults in the head of a function. -/
def Prototype.faults (prototype : Prototype) : List Fault :=
  prototype.parameters.flatMap fun parameter => parameter.declarator.faults

namespace Stmt

mutual

/-- The faults of a statement in the order of its text. -/
def faults : Stmt → List Fault
  | declare _ declarator => declarator.faults
  | sampler _ _ _ => []
  | define _ replacement => replacement.faults
  | struct _ fields => fields.flatMap Declarator.faults
  | function prototype body => prototype.faults ++ faultsAll body
  | branch condition whenTrue none => condition.faults ++ faultsAll whenTrue
  | branch condition whenTrue (some whenFalse) =>
    condition.faults ++ faultsAll whenTrue ++ faultsAll whenFalse
  | loop start condition step body =>
    start.toList.flatMap Declarator.faults ++ condition.toList.flatMap Term.faults
      ++ step.toList.flatMap Effect.faults ++ faultsAll body
  | block body => faultsAll body
  | result value => value.toList.flatMap Term.faults
  | discard => []
  | leave => []
  | next => []
  | effect done => done.faults
  | faulty fault => [fault]

/-- The faults of several statements. -/
def faultsAll : List Stmt → List Fault
  | [] => []
  | stmt :: rest => stmt.faults ++ faultsAll rest

end

/-- The faults of several statements are those of each in turn. -/
theorem faultsAll_eq_flatMap (stmts : List Stmt) : faultsAll stmts = stmts.flatMap faults := by
  induction stmts with
  | nil => rfl
  | cons stmt rest ih => rw [faultsAll, ih, List.flatMap_cons]

end Stmt

end GlslText.Glsl
