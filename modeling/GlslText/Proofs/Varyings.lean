import GlslText.Proofs.Generation
import Mathlib.Data.List.Basic

/-!
# Variables carried between the stages

The structure that a vertex entry returns may be the one that a fragment entry takes. The fragment
stage declares a varying for every field of it. The vertex stage leaves out the fields whose
semantic names a built-in variable or a colour output. So the two declare the same varyings exactly
when no field has such a semantic, and otherwise the fragment stage takes in varyings that the
vertex stage does not give out.
-/

namespace GlslText

/-- What is declared for a field carried between the stages, behind the qualifier: its precision,
its type and its name. -/
def Field.carriedText (profile : Profile) (names : Renaming) (field : Field) : String :=
  ((field.precision? profile).map (· ++ " ")).getD "" ++ field.ty.interfaceName.text names
    ++ " var_" ++ field.name ++ ";"

/-- A field whose semantic names neither a built-in variable nor a colour output. -/
def Field.isPlain (field : Field) : Bool :=
  (field.semantic.bind builtIn?).isNone && field.slot?.isNone

/-- The declaration of a varying is its qualifier and what is declared for the field. -/
theorem Field.text_varying (profile : Profile) (qualifier : Qualifier) (names : Renaming)
    (field : Field) :
    (field.varying profile qualifier).text names =
      qualifier.text ++ " " ++ field.carriedText profile names := by
  have name : " var_" = " " ++ "var_" := rfl
  simp only [InterfaceVariable.text, Field.varying, Field.carriedText, Glsl.Name.text, name,
    String.append_assoc]

/-- Exactly the plain fields of a returned structure are carried to the next stage. -/
theorem Field.outputVariable?_eq (profile : Profile) (field : Field) :
    field.outputVariable? profile =
      if field.isPlain then some (field.varying profile profile.outputQualifier) else none := by
  cases builtIn : field.semantic.bind builtIn? with
  | some variableName => simp [outputVariable?, binding?, outputBinding, isPlain, builtIn]
  | none =>
    cases slot : field.slot? with
    | some slot => simp [outputVariable?, binding?, outputBinding, isPlain, builtIn, slot]
    | none => simp [outputVariable?, binding?, outputBinding, isPlain, builtIn, slot]

/-- A fragment stage takes in every field of its structure. -/
theorem Field.inputVariable?_eq {profile : Profile} (fragment : profile.stage = .fragment)
    (field : Field) :
    field.inputVariable? profile = some (field.varying profile profile.inputQualifier) := by
  simp [inputVariable?, binding?, fragment]

/-- A vertex stage declares what it takes and the plain fields of what it returns. -/
theorem Interface.declared_vertex {interface : Interface} {profile : Profile} {struct : Struct}
    (vertex : profile.stage = .vertex) (returned : interface.output = some struct) :
    interface.declared profile =
      interface.input.toList.flatMap (fun taken =>
        taken.fields.filterMap (Field.inputVariable? profile)) ++
      (struct.fields.filter Field.isPlain).map
        (Field.varying profile profile.outputQualifier) := by
  have plain (fields : List Field) : fields.filterMap (Field.outputVariable? profile) =
      (fields.filter Field.isPlain).map (Field.varying profile profile.outputQualifier) := by
    rw [← List.filterMap_eq_map, List.filterMap_filter]
    simp only [Field.outputVariable?_eq, Function.comp_apply]
  simp only [declared, vertex, returned, Option.toList_some, List.flatMap_cons, List.flatMap_nil,
    List.append_nil, plain]

/-- A fragment stage declares every field of what it takes. -/
theorem Interface.declared_fragment {interface : Interface} {profile : Profile} {struct : Struct}
    (fragment : profile.stage = .fragment) (taken : interface.input = some struct) :
    interface.declared profile =
      struct.fields.map (Field.varying profile profile.inputQualifier) := by
  have all : Field.inputVariable? profile =
      fun field => some (field.varying profile profile.inputQualifier) :=
    funext (Field.inputVariable?_eq fragment)
  simp only [declared, fragment, taken, Option.toList_some, List.flatMap_cons, List.flatMap_nil,
    List.append_nil, all, List.filterMap_eq_map']

/-- Leaving out fields makes a difference exactly when there are some to leave out. -/
theorem map_filter_isPlain_eq_iff {fields : List Field} (text : Field → String) :
    (fields.filter Field.isPlain).map text = fields.map text ↔
      ∀ field ∈ fields, field.isPlain = true := by
  constructor
  · intro same
    have lengths := congrArg List.length same
    rw [List.length_map, List.length_map] at lengths
    exact List.length_filter_eq_length_iff.1 lengths
  · intro plain
    rw [List.filter_eq_self.2 plain]

/-- Where a vertex and a fragment text of one platform and one generation share a structure, which
the vertex entry returns and the fragment entry takes, the variables that the vertex text declares
are those it takes and then those of the plain fields of the structure, and those that the fragment
text declares are those of all fields of the structure. What is declared for a field is the same in
both but for the qualifier. So both declare the same varyings in the same order exactly when all
fields are plain. -/
theorem varyings_agree_iff {shader : Shader} {platform : Platform} {requested : Generation}
    {vertexName fragmentName : String} {vertexOutput fragmentOutput : Output}
    {vertexEntry fragmentEntry : Function} {struct : Struct}
    (vertexGenerated : generate shader ⟨platform, requested, .vertex⟩ vertexName =
      .ok vertexOutput)
    (fragmentGenerated : generate shader ⟨platform, requested, .fragment⟩ fragmentName =
      .ok fragmentOutput)
    (vertexFound : shader.function? vertexName = some vertexEntry)
    (fragmentFound : shader.function? fragmentName = some fragmentEntry)
    (returned : (Interface.ofEntry shader vertexEntry).output = some struct)
    (taken : (Interface.ofEntry shader fragmentEntry).input = some struct) :
    ∃ names, Renaming.ofTokens shader.tokens = .ok names ∧
      let vertex := Context.ofEntry shader ⟨platform, requested, .vertex⟩ vertexEntry
      let fragment := Context.ofEntry shader ⟨platform, requested, .fragment⟩ fragmentEntry
      let carried := Field.carriedText vertex.profile names
      let declares (qualifier : Qualifier) (field : Field) : Line :=
        ⟨0, qualifier.text ++ " " ++ carried field⟩
      (∃ front back,
        vertexOutput.text = Line.renderAll (front ++ vertex.program.interfaceLines names ++ back) ∧
        vertex.program.interfaceLines names = Glsl.Program.spaced
          (vertex.interface.input.toList.flatMap (fun struct =>
            (struct.fields.filterMap (Field.inputVariable? vertex.profile)).map fun var =>
              ⟨0, var.text names⟩) ++
          (struct.fields.filter Field.isPlain).map (declares vertex.profile.outputQualifier))) ∧
      (∃ front back,
        fragmentOutput.text =
          Line.renderAll (front ++ fragment.program.interfaceLines names ++ back) ∧
        fragment.program.interfaceLines names = Glsl.Program.spaced
          (struct.fields.map (declares fragment.profile.inputQualifier) ++
          fragment.program.outputs.map fun output => ⟨0, output.text⟩)) ∧
      ((struct.fields.filter Field.isPlain).map carried = struct.fields.map carried ↔
        ∀ field ∈ struct.fields, field.semantic.bind builtIn? = none ∧ field.slot? = none) := by
  obtain ⟨entry, names, run⟩ := generate_eq_ok_iff.1 vertexGenerated
  obtain rfl := Option.some.inj (run.found.symm.trans vertexFound)
  obtain ⟨entry', names', run'⟩ := generate_eq_ok_iff.1 fragmentGenerated
  obtain rfl := Option.some.inj (run'.found.symm.trans fragmentFound)
  -- Names are chosen by the tokens of the shader alone, so both texts use the same.
  obtain rfl := Except.ok.inj (run.chosen.symm.trans run'.chosen)
  refine ⟨names, run.chosen, ?_⟩
  intro vertex fragment carried declares
  have vertexStage : vertex.profile.stage = .vertex := rfl
  have fragmentStage : fragment.profile.stage = .fragment := rfl
  refine ⟨?_, ?_, ?_⟩
  · obtain ⟨front, back, text⟩ := run.interface_text
    refine ⟨front, back, text, ?_⟩
    have declared : vertex.program.declared = _ := Interface.declared_vertex vertexStage returned
    have outputs : vertex.program.outputs = [] := rfl
    rw [Glsl.Program.interfaceLines, declared, outputs]
    simp [List.map_flatMap, Function.comp_def, declares, carried, Field.text_varying]
  · obtain ⟨front, back, text⟩ := run'.interface_text
    refine ⟨front, back, text, ?_⟩
    have declared : fragment.program.declared = _ :=
      Interface.declared_fragment fragmentStage taken
    have same : Field.carriedText fragment.profile names = carried := rfl
    rw [Glsl.Program.interfaceLines, declared]
    simp [Function.comp_def, declares, Field.text_varying, same]
  · rw [map_filter_isPlain_eq_iff]
    simp [Field.isPlain]

/-- A vertex entry that returns a structure and a fragment entry that takes it. The first field of
the structure has the given semantic. -/
def sharedStruct (semantic : String) : Shader :=
  let vec2 := Ty.ofBase (.vector (.float .full) .two)
  let vec4 := Ty.ofBase (.vector (.float .full) .four)
  let carried : Ty := ⟨.userDefined, some "Carried", false, none, false, false⟩
  let uv (object : String) : Expr := .member (.identifier object carried) "uv" vec2
  [.struct ⟨"Carried",
    [⟨"position", vec4, some semantic, none⟩, ⟨"uv", vec2, some "TEXCOORD0", none⟩]⟩,
  .function ⟨"shadeVertex", carried, none, []⟩
    [.declare ⟨"o", carried, none, none, []⟩,
    .evaluate (.ofAssign (uv "o") (.construct [.literal (.int 1) (Ty.ofBase .int)] vec2)),
    .result (some (.identifier "o" carried))],
  .function ⟨"shadeFragment", vec4, some "SV_TARGET", [⟨"i", carried, .plain⟩]⟩
    [.result (some (.construct [uv "i", uv "i"] vec4))]]

/-- Without a position in the structure both texts declare the same two varyings. -/
theorem sharedStruct_agrees :
    ∃ vertexOutput fragmentOutput,
      generate (sharedStruct "TEXCOORD1") ⟨.mobileB, .legacy, .vertex⟩ "shadeVertex" =
        .ok vertexOutput ∧
      generate (sharedStruct "TEXCOORD1") ⟨.mobileB, .legacy, .fragment⟩ "shadeFragment" =
        .ok fragmentOutput ∧
      let varyings : List Line :=
        [⟨0, "varying vec4 var_position;"⟩, ⟨0, "varying vec2 var_uv;"⟩, .blank]
      (∃ front back, vertexOutput.text = Line.renderAll (front ++ varyings ++ back)) ∧
      ∃ front back, fragmentOutput.text = Line.renderAll (front ++ varyings ++ back) := by
  have vertexGenerated :
      generate (sharedStruct "TEXCOORD1") ⟨.mobileB, .legacy, .vertex⟩ "shadeVertex" = .ok _ := rfl
  have fragmentGenerated :
      generate (sharedStruct "TEXCOORD1") ⟨.mobileB, .legacy, .fragment⟩ "shadeFragment" = .ok _ :=
    rfl
  refine ⟨_, _, vertexGenerated, fragmentGenerated, ?_⟩
  obtain ⟨names, -, ⟨front, back, text, declared⟩, ⟨front', back', text', declared'⟩, -⟩ :=
    varyings_agree_iff vertexGenerated fragmentGenerated rfl rfl rfl rfl
  rw [declared] at text
  rw [declared'] at text'
  exact ⟨⟨front, back, text⟩, ⟨front', back', text'⟩⟩

/-- The fragment text takes in the position, which the vertex text does not give out. -/
theorem sharedStruct_disagrees :
    let preamble (stage : Stage) : List Line :=
      (Profile.preamble ⟨.desktopOther, .modern, stage⟩ []).map (Line.mk 0)
    generate (sharedStruct "SV_POSITION") ⟨.desktopOther, .modern, .vertex⟩ "shadeVertex" =
      .ok ⟨Line.renderAll (preamble .vertex ++
        [⟨0, "out vec2 var_uv;"⟩, .blank, ⟨0, "vec4 shadeFragment(Carried i) \x7b"⟩,
          ⟨1, "return vec4(var_uv, var_uv);"⟩, ⟨0, "\x7d"⟩, .blank, ⟨0, "void main()"⟩,
          ⟨0, "\x7b"⟩, ⟨1, "var_uv = vec2(1);"⟩, ⟨1, "return;"⟩, ⟨0, "\x7d"⟩]),
        .glsl330, []⟩ ∧
    generate (sharedStruct "SV_POSITION") ⟨.desktopOther, .modern, .fragment⟩ "shadeFragment" =
      .ok ⟨Line.renderAll (preamble .fragment ++
        [⟨0, "in vec4 var_position;"⟩, ⟨0, "in vec2 var_uv;"⟩,
          ⟨0, "layout (location = 0) out vec4 out_FragColor0;"⟩, .blank,
          ⟨0, "Carried shadeVertex() \x7b"⟩, ⟨1, "var_uv = vec2(1);"⟩, ⟨1, "return o;"⟩,
          ⟨0, "\x7d"⟩, .blank, ⟨0, "void main()"⟩, ⟨0, "\x7b"⟩,
          ⟨1, "out_FragColor0 = vec4(var_uv, var_uv);"⟩, ⟨1, "return;"⟩, ⟨0, "\x7d"⟩]),
        .glsl330, []⟩ := by
  decide +kernel

end GlslText
