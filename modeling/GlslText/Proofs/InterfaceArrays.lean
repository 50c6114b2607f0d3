import GlslText.Proofs.Generation
import Mathlib.Data.List.Basic

/-!
# Arrays in the interface

A field of a generic structure is declared with its type, its name and, if it is an array, its size
in brackets. A field of a stage structure is declared in the interface, with a type and a name
alone. So the interface keeps the type of a field exactly when the field is no array.
-/

namespace GlslText

/-- What a structure writes behind the name of a field: the size of an array in brackets. -/
def Field.bracketText (c : Context) (names : Renaming) (field : Field) : String :=
  Glsl.textOf (Glsl.Brackets.text names) (field.ty.declarator c field.name).brackets

/-- The declaration of a variable with the given text behind its name. -/
def InterfaceVariable.textWith (names : Renaming) (behind : String) (var : InterfaceVariable) :
    String :=
  var.qualifier.text ++ " " ++ (var.precision.map (· ++ " ")).getD "" ++ var.type.text names ++ " "
    ++ var.name.text names ++ behind ++ ";"

/-- The fields of the stage structures that are declared with a type of their own, each with its
variable. A widened vertex input is none of them: it has the type of the wide vector. -/
inductive Context.DeclaresField (c : Context) (field : Field) : InterfaceVariable → Prop where
  /-- What a vertex stage takes is an input of its own. -/
  | vertexInput {struct : Struct} (vertex : c.profile.stage = .vertex)
      (taken : c.interface.input = some struct) (listed : field ∈ struct.fields)
      (unwidened : isWidened field.semantic = false) :
      c.DeclaresField field {
        qualifier := c.profile.inputQualifier
        precision := none
        type := field.ty.interfaceName
        name := .vertexInput field.name }
  /-- What a fragment stage takes is carried from the vertex stage. -/
  | taken {struct : Struct} (fragment : c.profile.stage = .fragment)
      (taken : c.interface.input = some struct) (listed : field ∈ struct.fields) :
      c.DeclaresField field (field.varying c.profile c.profile.inputQualifier)
  /-- What a vertex stage returns is carried to the fragment stage, but for built-in variables and
  colour outputs. -/
  | returned {struct : Struct} (vertex : c.profile.stage = .vertex)
      (returned : c.interface.output = some struct) (listed : field ∈ struct.fields)
      (carried : field.outputBinding = .varying) :
      c.DeclaresField field (field.varying c.profile c.profile.outputQualifier)

/-! ## The text behind the name -/

/-- A structure writes something behind the name of an array and of nothing else. -/
theorem Field.bracketText_eq_empty_iff {c : Context} {names : Renaming} {field : Field} :
    field.bracketText c names = "" ↔ field.ty.isArray = false := by
  unfold bracketText Ty.declarator
  cases field.ty.isArray with
  | false => simp [Glsl.textOf]
  | true => simp [Glsl.textOf, Glsl.Brackets.text]

/-- A generic structure declares each of its fields with its type, its name and its brackets. -/
theorem Struct.field_line {c : Context} {names : Renaming} {struct : Struct} {field : Field}
    (isGeneric : c.interface.role struct.name = .generic) (listed : field ∈ struct.fields)
    (depth : Nat) :
    ⟨depth + 1, field.ty.glslName.text names ++ " " ++ names.source field.name ++
      field.bracketText c names ++ ";"⟩ ∈ Glsl.Stmt.linesAll names depth (struct.lower c) := by
  have text : (field.ty.declarator c field.name).text names =
      field.ty.glslName.text names ++ " " ++ names.source field.name ++
        field.bracketText c names ++ "" := rfl
  have lines : Glsl.Stmt.linesAll names depth (struct.lower c) =
      Glsl.structLines names depth (.source struct.name)
        (struct.fields.map fun field => field.ty.declarator c field.name) := by
    rw [lower, if_pos isGeneric, Glsl.Stmt.linesAll, Glsl.Stmt.linesAll, List.append_nil,
      Glsl.Stmt.lines]
  rw [String.append_empty] at text
  rw [lines, ← text, Glsl.structLines, List.map_map]
  refine List.mem_cons_of_mem _ (List.mem_append_left _ (List.mem_append_left _ ?_))
  exact List.mem_map_of_mem listed

namespace InterfaceVariable

variable {names : Renaming} {var : InterfaceVariable}

/-- The interface writes nothing behind the name of a variable. -/
theorem textWith_empty : var.textWith names "" = var.text names := by
  rw [textWith, String.append_empty, text]

/-- Declarations of a variable differ if the texts behind its name do. -/
theorem textWith_inj {behind behind' : String} :
    var.textWith names behind = var.textWith names behind' ↔ behind = behind' := by
  rw [textWith, textWith, String.append_left_inj, String.append_right_inj]

end InterfaceVariable

/-! ## Declared fields -/

namespace Context.DeclaresField

variable {c : Context} {field : Field} {var : InterfaceVariable}

/-- The variable declared for a field is among those that the program declares. -/
theorem mem_declared (declares : c.DeclaresField field var) : var ∈ c.program.declared := by
  apply Interface.mem_declared_iff.2
  cases declares with
  | vertexInput vertex taken listed unwidened =>
    refine Or.inl ⟨_, taken, field, listed, ?_⟩
    simp [Field.inputVariable?, Field.binding?, vertex, unwidened]
  | taken fragment taken listed =>
    refine Or.inl ⟨_, taken, field, listed, ?_⟩
    simp [Field.inputVariable?, Field.binding?, fragment]
  | returned vertex returned listed carried =>
    refine Or.inr ⟨vertex, _, returned, field, listed, ?_⟩
    simp [Field.outputVariable?, Field.binding?, carried]

/-- The variable declared for a field has the name of the type of the field, without its size. -/
theorem type_eq (declares : c.DeclaresField field var) : var.type = field.ty.interfaceName := by
  cases declares <;> rfl

end Context.DeclaresField

/-- In every text the fields of the stage structures that are declared with a type of their own are
declared on a line each, with the name of that type and nothing behind the name of the variable. In
a generic structure the same field has the size of its type in brackets behind its name if it is an
array. So the interface declares what the structure would declare, behind the name, exactly when the
field is no array. -/
theorem interface_keeps_type_iff {shader : Shader} {profile : Profile} {entryName : String}
    {output : Output} (generated : generate shader profile entryName = .ok output) :
    ∃ entry names, Generated shader profile entryName output entry names ∧
      let c := Context.ofEntry shader profile entry
      (∃ front back,
        output.text = Line.renderAll (front ++ c.program.interfaceLines names ++ back)) ∧
      ∀ field var, c.DeclaresField field var →
        ⟨0, var.textWith names ""⟩ ∈ c.program.interfaceLines names ∧
        var.type = field.ty.interfaceName ∧
        (∀ struct, c.interface.role struct.name = .generic → field ∈ Struct.fields struct →
          ∀ depth, ⟨depth + 1, field.ty.glslName.text names ++ " " ++ names.source field.name ++
            field.bracketText c names ++ ";"⟩ ∈
              Glsl.Stmt.linesAll names depth (struct.lower c)) ∧
        (var.textWith names "" = var.textWith names (field.bracketText c names) ↔
          field.ty.isArray = false) := by
  obtain ⟨entry, names, run⟩ := generate_eq_ok_iff.1 generated
  refine ⟨entry, names, run, ?_⟩
  intro c
  refine ⟨run.interface_text, fun field var declares => ⟨?_, declares.type_eq, ?_, ?_⟩⟩
  · rw [InterfaceVariable.textWith_empty]
    exact Glsl.Program.declared_line names declares.mem_declared
  · intro struct isGeneric listed depth
    exact Struct.field_line isGeneric listed depth
  · rw [InterfaceVariable.textWith_inj, eq_comm, Field.bracketText_eq_empty_iff]

/-- An array of two vectors. -/
def weightsField : Field :=
  let two : Expr := .literal (.int 2) (Ty.ofBase .int)
  ⟨"weights", ⟨.vector (.float .full) .four, none, true, some two, false, false⟩,
    some "TEXCOORD0", none⟩

/-- A single vector. -/
def tintField : Field :=
  ⟨"tint", Ty.ofBase (.vector (.float .full) .four), some "TEXCOORD1", none⟩

/-- A vertex entry that takes an array and a vector, and returns an element of the array. -/
def elementEntry : Function where
  name := "main"
  result := tintField.ty
  semantic := some "SV_POSITION"
  arguments := [⟨"i", ⟨.userDefined, some "Taken", false, none, false, false⟩, .plain⟩]
  body :=
    let i : Expr := .identifier "i" ⟨.userDefined, some "Taken", false, none, false, false⟩
    [.result (some (.index (.member i "weights" weightsField.ty)
      (.literal (.int 1) (Ty.ofBase .int)) tintField.ty))]

/-- The shader of the entry. -/
def takenArray : Shader :=
  [.struct ⟨"Taken", [weightsField, tintField]⟩,
  .function elementEntry.toSignature elementEntry.body]

/-- The array is declared without its size and so not as the structure would declare it, and the
vector as it would. -/
theorem takenArray_declared :
    let c := Context.ofEntry takenArray ⟨.desktopOther, .modern, .vertex⟩ elementEntry
    ∃ output names, generate takenArray ⟨.desktopOther, .modern, .vertex⟩ "main" = .ok output ∧
      (∃ front back,
        output.text = Line.renderAll (front ++ c.program.interfaceLines names ++ back)) ∧
      (⟨0, "in vec4 attr_weights;"⟩ ∈ c.program.interfaceLines names ∧
        "in vec4 attr_weights;" ≠
          "in vec4 attr_weights" ++ weightsField.bracketText c names ++ ";") ∧
      ⟨0, "in vec4 attr_tint;"⟩ ∈ c.program.interfaceLines names ∧
        "in vec4 attr_tint;" = "in vec4 attr_tint" ++ tintField.bracketText c names ++ ";" := by
  intro c
  have generated :
      generate takenArray ⟨.desktopOther, .modern, .vertex⟩ "main" = .ok _ := rfl
  obtain ⟨entry, names, run, text, each⟩ := interface_keeps_type_iff generated
  obtain rfl : entry = elementEntry := Option.some.inj (run.found.symm.trans rfl)
  obtain ⟨weightsLine, -, -, weightsKept⟩ :=
    each weightsField _ (.vertexInput rfl rfl (.head _) (by decide))
  obtain ⟨tintLine, -, -, tintKept⟩ :=
    each tintField _ (.vertexInput rfl rfl (.tail _ (.head _)) (by decide))
  refine ⟨_, names, generated, text, ⟨weightsLine, fun same => ?_⟩, tintLine, tintKept.2 rfl⟩
  exact absurd (weightsKept.1 same) (by decide)

/-- The text declares the array as a single vector and takes the second element of it. -/
theorem takenArray_dropped :
    generate takenArray ⟨.desktopOther, .modern, .vertex⟩ "main" =
      .ok ⟨Line.renderAll
        ((Profile.preamble ⟨.desktopOther, .modern, .vertex⟩ []).map (Line.mk 0) ++
          [⟨0, "in vec4 attr_weights;"⟩, ⟨0, "in vec4 attr_tint;"⟩, .blank, ⟨0, "void main()"⟩,
            ⟨0, "\x7b"⟩, ⟨1, "gl_Position = attr_weights[1];"⟩, ⟨1, "return;"⟩, ⟨0, "\x7d"⟩]),
        .glsl330, []⟩ := by
  decide +kernel

end GlslText
