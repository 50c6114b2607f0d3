import GlslText.Glsl.Literal
import GlslText.Glsl.Name

/-!
# Expressions of the generated text

A term is an expression of the generated text as data: every operator, application and selection
is a node, and the brackets follow from the nodes. A term that came out of a faulty expression
carries the fault where it was found, so that the faults of a term stand in the order of its
text.
-/

namespace GlslText

/-- What is written in front of the operand. -/
def UnaryOp.before : UnaryOp → String
  | negative => "-"
  | positive => "+"
  | not => "!"
  | preIncrement => "++"
  | preDecrement => "--"
  | postIncrement => ""
  | postDecrement => ""

/-- What is written behind the operand. -/
def UnaryOp.after : UnaryOp → String
  | postIncrement => "++"
  | postDecrement => "--"
  | _ => ""

/-- The sign of an operation. -/
def Arithmetic.sign : Arithmetic → String
  | add => "+"
  | sub => "-"
  | mul => "*"
  | div => "/"

/-- The sign of a comparison. -/
def Comparison.sign : Comparison → String
  | less => "<"
  | greater => ">"
  | lessEqual => "<="
  | greaterEqual => ">="
  | equal => "=="
  | notEqual => "!="

/-- The sign of an operator. -/
def BinaryOp.sign : BinaryOp → String
  | arithmetic op => op.sign
  | compare op => op.sign
  | and => "&&"
  | or => "||"
  | assign => "="
  | update op => op.sign ++ "="

namespace Glsl

/-- An expression of the generated text. -/
inductive Term where
  | literal (value : Literal)
  /-- A variable, with the components selected from it. -/
  | named (name : Name) (selection : String)
  | apply (callee : Name) (arguments : List Term)
  | unary (op : UnaryOp) (operand : Term)
  | binary (op : BinaryOp) (left right : Term)
  | conditional (condition whenTrue whenFalse : Term)
  | select (object : Term) (field : Name)
  | index (array position : Term)
  /-- A term in brackets. -/
  | group (inner : Term)
  /-- A product with each factor in brackets. -/
  | product (left right : Term)
  /-- Nothing at all. -/
  | missing
  /-- A term that stands for a faulty expression. -/
  | faulty (fault : Fault) (inner : Term)

namespace Term

mutual

/-- The text of a term. Every operator is enclosed in brackets. -/
def text (names : Renaming) : Term → String
  | literal value => value.text
  | named name selection => name.text names ++ selection
  | apply callee arguments => callee.text names ++ "(" ++ textList names arguments ++ ")"
  | unary op operand => "(" ++ op.before ++ operand.text names ++ op.after ++ ")"
  | binary op left right =>
    "(" ++ left.text names ++ " " ++ op.sign ++ " " ++ right.text names ++ ")"
  | conditional condition whenTrue whenFalse =>
    "((" ++ condition.text names ++ ")?(" ++ whenTrue.text names ++ "):("
      ++ whenFalse.text names ++ "))"
  | select object field => "(" ++ object.text names ++ ")." ++ field.text names
  | index array position => array.text names ++ "[" ++ position.text names ++ "]"
  | group inner => "(" ++ inner.text names ++ ")"
  | product left right => "((" ++ left.text names ++ ") * (" ++ right.text names ++ "))"
  | missing => ""
  | faulty _ inner => inner.text names

/-- Terms with a comma between them. -/
def textList (names : Renaming) : List Term → String
  | [] => ""
  | term :: rest => term.text names ++ textRest names rest

/-- Further terms, each behind a comma. -/
def textRest (names : Renaming) : List Term → String
  | [] => ""
  | term :: rest => ", " ++ term.text names ++ textRest names rest

end

mutual

/-- The faults of a term in the order of its text. -/
def faults : Term → List Fault
  | literal _ => []
  | named _ _ => []
  | apply _ arguments => faultsAll arguments
  | unary _ operand => operand.faults
  | binary _ left right => left.faults ++ right.faults
  | conditional condition whenTrue whenFalse =>
    condition.faults ++ whenTrue.faults ++ whenFalse.faults
  | select object _ => object.faults
  | index array position => array.faults ++ position.faults
  | group inner => inner.faults
  | product left right => left.faults ++ right.faults
  | missing => []
  | faulty fault inner => fault :: inner.faults

/-- The faults of several terms. -/
def faultsAll : List Term → List Fault
  | [] => []
  | term :: rest => term.faults ++ faultsAll rest

end

/-- The faults of several terms are those of each in turn. -/
theorem faultsAll_eq_flatMap (terms : List Term) : faultsAll terms = terms.flatMap faults := by
  induction terms with
  | nil => rfl
  | cons term rest ih => rw [faultsAll, ih, List.flatMap_cons]

/-- A word of the language as a term. -/
def ofWord (word : String) : Term :=
  .named (.word word) ""

end Term

end Glsl

end GlslText
