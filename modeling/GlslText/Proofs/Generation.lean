import GlslText.Generate

/-!
# Successful generation

Generation succeeds exactly when the entry is found, names are chosen and the program has no
faults. The text is then the program's own, and it comes in two halves: the lines in front, which
end with the helper functions, and the code, which is the global statements and `main`.
-/

namespace GlslText

/-- A successful generation, with the entry it found and the names it chose. -/
structure Generated (shader : Shader) (profile : Profile) (entryName : String) (output : Output)
    (entry : Function) (names : Renaming) : Prop where
  found : shader.function? entryName = some entry
  chosen : Renaming.ofTokens shader.tokens = .ok names
  faultless : (Context.ofEntry shader profile entry).program.faults = []
  text : output.text = (Context.ofEntry shader profile entry).program.text names
  dialect : output.dialect = profile.dialect
  features : output.features = (Context.ofEntry shader profile entry).features

/-- Generation gives an output exactly when a successful generation with that output exists. -/
theorem generate_eq_ok_iff {shader : Shader} {profile : Profile} {entryName : String}
    {output : Output} :
    generate shader profile entryName = .ok output ↔
      ∃ entry names, Generated shader profile entryName output entry names := by
  constructor
  · intro generated
    unfold generate at generated
    split at generated
    · cases generated
    rename_i entry found
    split at generated
    · cases generated
    rename_i names chosen
    dsimp only at generated
    split at generated
    · cases generated
    rename_i faultless
    obtain rfl := Except.ok.inj generated
    exact ⟨entry, names, found, chosen, faultless, rfl, rfl, rfl⟩
  · rintro ⟨entry, names, found, chosen, faultless, text, dialect, features⟩
    obtain ⟨_, _, _⟩ := output
    simp only at text dialect features
    simp [generate, found, chosen, faultless, text, dialect, features]

/-- The declared variables are those of the fields that the stage takes and, in a vertex stage, of
those that it returns. -/
theorem Interface.mem_declared_iff {interface : Interface} {profile : Profile}
    {var : InterfaceVariable} :
    var ∈ interface.declared profile ↔
      (∃ struct, interface.input = some struct ∧
        ∃ field ∈ struct.fields, field.inputVariable? profile = some var) ∨
      profile.stage = .vertex ∧ ∃ struct, interface.output = some struct ∧
        ∃ field ∈ struct.fields, field.outputVariable? profile = some var := by
  unfold declared
  cases profile.stage <;> simp

namespace Glsl.Program

/-- The lines in front of the code: preamble, interface and helper functions. -/
def frontLines (names : Renaming) (program : Program) : List Line :=
  program.preamble.map (fun text => ⟨0, text⟩) ++ program.interfaceLines names
    ++ program.helpers.flatMap (Overload.groupLines names)

/-- The lines of the code: the global statements and `main`. -/
def codeLines (names : Renaming) (program : Program) : List Line :=
  Stmt.linesAll names 0 program.globals ++ program.mainLines names

/-- The lines of a program are those in front and those of its code. -/
theorem lines_eq (names : Renaming) (program : Program) :
    program.lines names = program.frontLines names ++ program.codeLines names := by
  simp [lines, frontLines, codeLines]

/-- The interface stands as a whole among the lines of a program. -/
theorem interface_lines (names : Renaming) (program : Program) :
    ∃ front back, program.lines names = front ++ program.interfaceLines names ++ back := by
  refine ⟨program.preamble.map (fun text => ⟨0, text⟩),
    program.helpers.flatMap (Overload.groupLines names) ++ program.codeLines names, ?_⟩
  simp only [lines, codeLines, List.append_assoc]

/-- Every declared variable stands on a line of its own in the interface. -/
theorem declared_line (names : Renaming) {program : Program} {var : InterfaceVariable}
    (listed : var ∈ program.declared) : ⟨0, var.text names⟩ ∈ program.interfaceLines names := by
  have declared : (⟨0, var.text names⟩ : Line) ∈
      program.declared.map (fun var => ⟨0, var.text names⟩) ++
        program.outputs.map fun output => ⟨0, output.text⟩ :=
    List.mem_append_left _ (List.mem_map.2 ⟨var, listed, rfl⟩)
  have filled := List.ne_nil_of_mem declared
  rw [interfaceLines, spaced, if_neg (by simpa using filled)]
  exact List.mem_append_left _ declared

/-- Every helper function of a program stands on a line of its own in front of the code. -/
theorem helper_line (names : Renaming) {program : Program} {group : List Overload}
    {overload : Overload} (grouped : group ∈ program.helpers) (defined : overload ∈ group) :
    ∃ earlier later, program.lines names =
      earlier ++ ⟨0, overload.text names⟩ :: (later ++ program.codeLines names) := by
  have inGroup : (⟨0, overload.text names⟩ : Line) ∈ Overload.groupLines names group :=
    List.mem_append_left _ (List.mem_map_of_mem defined)
  have inHelpers : (⟨0, overload.text names⟩ : Line) ∈
      program.helpers.flatMap (Overload.groupLines names) :=
    List.mem_flatMap.2 ⟨group, grouped, inGroup⟩
  have inFront : (⟨0, overload.text names⟩ : Line) ∈ program.frontLines names :=
    List.mem_append_right _ inHelpers
  obtain ⟨earlier, later, split⟩ := List.append_of_mem inFront
  refine ⟨earlier, later, ?_⟩
  rw [lines_eq, split, List.append_assoc, List.cons_append]

end Glsl.Program

/-- The interface of a successful generation stands as a whole in its text. -/
theorem Generated.interface_text {shader : Shader} {profile : Profile} {entryName : String}
    {output : Output} {entry : Function} {names : Renaming}
    (run : Generated shader profile entryName output entry names) :
    ∃ front back, output.text = Line.renderAll
      (front ++ (Context.ofEntry shader profile entry).program.interfaceLines names ++ back) := by
  obtain ⟨front, back, split⟩ :=
    Glsl.Program.interface_lines names (Context.ofEntry shader profile entry).program
  exact ⟨front, back, by rw [run.text, Glsl.Program.text, split]⟩

/-- The text of a successful generation ends with `main`. -/
theorem Generated.main_text {shader : Shader} {profile : Profile} {entryName : String}
    {output : Output} {entry : Function} {names : Renaming}
    (run : Generated shader profile entryName output entry names) :
    ∃ front, output.text = Line.renderAll
      (front ++ (Context.ofEntry shader profile entry).program.mainLines names) := by
  rw [run.text, Glsl.Program.text, Glsl.Program.lines]
  exact ⟨_, rfl⟩

end GlslText
