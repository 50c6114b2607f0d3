/-!
# Lines and indentation

Generated text is a list of lines, each with a depth of nesting. A level of nesting is four
blanks wide, and a line with no text has no blanks either. `Append` names the single steps by
which a text grows when it is not built from whole lines.
-/

namespace GlslText

/-- The blanks in front of a line: four for each level. -/
def indentation (depth : Nat) : String :=
  String.ofList (List.replicate (4 * depth) ' ')

/-- One line of text and the depth it is nested at. -/
structure Line where
  /-- The level of nesting. -/
  depth : Nat
  /-- What stands on the line, without indentation and line end. -/
  text : String
deriving DecidableEq, Repr

namespace Line

/-- The line that holds nothing. -/
def blank : Line :=
  ⟨0, ""⟩

/-- The line as it is written: indented unless it is empty, and closed by a line end. -/
def render (line : Line) : String :=
  (if line.text = "" then "" else indentation line.depth) ++ line.text ++ "\n"

/-- A text is its lines, one after the other. -/
def renderAll (lines : List Line) : String :=
  String.join (lines.map render)

/-- The empty line is written as a line end alone. -/
@[simp]
theorem render_blank : blank.render = "\n" := rfl

/-- Lines after lines are text after text. -/
@[simp]
theorem renderAll_append (first second : List Line) :
    renderAll (first ++ second) = renderAll first ++ renderAll second := by
  simp [renderAll]

end Line

/-- A step by which a text grows at its end. -/
inductive Append where
  /-- Adds a text as it stands. -/
  | write (text : String)
  /-- Starts a line with its indentation, also when nothing follows. -/
  | beginLine (depth : Nat)
  /-- Adds a text and the end of the line. -/
  | endLine (text : String)
  /-- Adds a whole line. -/
  | whole (line : Line)
deriving Repr

namespace Append

/-- What a step adds. -/
def text : Append → String
  | write text => text
  | beginLine depth => indentation depth
  | endLine text => text ++ "\n"
  | whole line => line.render

/-- The text after each of the steps, from the given start. -/
def states (start : String) : List Append → List String
  | [] => []
  | step :: rest => (start ++ step.text) :: states (start ++ step.text) rest

/-- The text after all steps. -/
def run (start : String) (steps : List Append) : String :=
  steps.foldl (fun written step => written ++ step.text) start

end Append

end GlslText
