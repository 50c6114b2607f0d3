import GlslText.Glsl.Overload
import GlslText.Glsl.Stmt
import GlslText.Interface.ColorOutput
import GlslText.Interface.Variable

/-!
# Programs

A program is a whole text as data, section by section: the preamble, the interface, the helper
functions, the global statements, and `main` with its properties and its body. The faults of a
program stand in the order of its text.
-/

namespace GlslText.Glsl

/-- A program by its sections. -/
structure Program where
  preamble : List String
  /-- The declared variables of the stage structures. -/
  declared : List InterfaceVariable
  /-- The declared colour outputs. -/
  outputs : List ColorOutput
  /-- What went wrong in finding the colour outputs. -/
  outputFaults : List Fault
  /-- The groups of helper functions. -/
  helpers : List (List Overload)
  /-- The global statements. -/
  globals : List Stmt
  /-- The properties, as local variables of `main`. -/
  properties : List Declarator
  /-- The body of `main`. -/
  body : List Stmt

namespace Program

/-- The faults of a program in the order of its text. -/
def faults (program : Program) : List Fault :=
  program.outputFaults ++ Stmt.faultsAll program.globals
    ++ program.properties.flatMap Declarator.faults ++ Stmt.faultsAll program.body

/-- Lines with an empty line behind them, if there are any. -/
def spaced (lines : List Line) : List Line :=
  if lines.isEmpty then [] else lines ++ [Line.blank]

/-- The lines of the interface: variables, then colour outputs. -/
def interfaceLines (names : Renaming) (program : Program) : List Line :=
  spaced (program.declared.map (fun var => ⟨0, var.text names⟩)
    ++ program.outputs.map fun output => ⟨0, output.text⟩)

/-- The lines of the properties under their heading. -/
def propertyLines (names : Renaming) (program : Program) : List Line :=
  if program.properties.isEmpty then []
  else
    ⟨1, "// properties"⟩
      :: (program.properties.map (fun declarator => ⟨1, declarator.text names ++ ";"⟩)
        ++ [Line.blank])

/-- The lines of `main`. -/
def mainLines (names : Renaming) (program : Program) : List Line :=
  [⟨0, "void main()"⟩, ⟨0, "\x7b"⟩] ++ program.propertyLines names
    ++ Stmt.linesAll names 1 program.body ++ [⟨0, "\x7d"⟩]

/-- All lines of a program. -/
def lines (names : Renaming) (program : Program) : List Line :=
  program.preamble.map (fun text => ⟨0, text⟩) ++ program.interfaceLines names
    ++ program.helpers.flatMap (Overload.groupLines names)
    ++ Stmt.linesAll names 0 program.globals ++ program.mainLines names

/-- The text of a program. -/
def text (names : Renaming) (program : Program) : String :=
  Line.renderAll (program.lines names)

end Program

end GlslText.Glsl
