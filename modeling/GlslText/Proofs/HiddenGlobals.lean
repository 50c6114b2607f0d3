import GlslText.Proofs.Faults

/-!
# Global declarations that are not plain variables

A global declaration is written at two places: among the global statements, and, if it is a property
that is no array, among the local variables of `main`. The first place leaves out textures and
variables of the stage structures and makes samplers uniforms of a fixed name. The second place
leaves out and renames nothing. So a declaration that the first place hides shows in `main` exactly
when it is a property that is no array, and a sampler is a uniform exactly when it is no property.
-/

namespace GlslText

namespace Shader

/-- The lines that statements of a shader become among the global statements. -/
def globalLines (c : Context) (names : Renaming) (shader : Shader) : List Line :=
  Glsl.Stmt.linesAll names 0 (Statement.lowerAll c .global shader)

/-- The lines that statements of a shader become among the properties in `main`. -/
def propertyLines (c : Context) (names : Renaming) (shader : Shader) : List Line :=
  shader.localProperties.map fun declaration =>
    ⟨1, (declaration.declarator c).text names ++ ";"⟩

variable {c : Context} {names : Renaming}

/-- The global lines of a shader in two parts are those of both parts. -/
theorem globalLines_append (first second : Shader) :
    globalLines c names (first ++ second) =
      globalLines c names first ++ globalLines c names second := by
  simp [globalLines, Statement.lowerAll_eq_flatMap, Glsl.Stmt.linesAll_eq_flatMap]

/-- The properties of a shader in two parts are those of both parts. -/
theorem propertyLines_append (first second : Shader) :
    propertyLines c names (first ++ second) =
      propertyLines c names first ++ propertyLines c names second := by
  simp [propertyLines, localProperties]

/-- A global declaration is a local variable of `main` if it is a property and no array. -/
theorem propertyLines_declare (declaration : Declaration) :
    propertyLines c names [.declare declaration] =
      if declaration.ty.isProperty = true ∧ declaration.ty.isArray = false then
        [⟨1, (declaration.declarator c).text names ++ ";"⟩]
      else [] := by
  have own : localProperties [.declare declaration] =
      if declaration.ty.isProperty && !declaration.ty.isArray then [declaration] else [] := by
    rw [localProperties, List.filterMap_cons, List.filterMap_nil]
    dsimp only
    cases declaration.ty.isProperty && !declaration.ty.isArray <;> rfl
  rw [propertyLines, own]
  cases declaration.ty.isProperty <;> cases declaration.ty.isArray <;> simp

/-- A single declaration has the lines of what it is lowered to at global level. -/
theorem globalLines_declare (declaration : Declaration) :
    globalLines c names [.declare declaration] =
      Glsl.Stmt.linesAll names 0 (declaration.lower c .global) := by
  simp [globalLines, Statement.lowerAll, Statement.lower]

end Shader

/-! ## The text around a declaration -/

/-- The properties stand together in `main`, perhaps under a heading and above an empty line. -/
theorem Context.propertyLines_program (c : Context) (names : Renaming) :
    ∃ heading blank, c.program.propertyLines names =
      heading ++ c.shader.propertyLines c names ++ blank := by
  have properties : c.program.properties.map (fun declarator : Glsl.Declarator =>
      Line.mk 1 (declarator.text names ++ ";")) = c.shader.propertyLines c names :=
    List.map_map
  unfold Glsl.Program.propertyLines
  rw [properties]
  split
  · rename_i empty
    rw [List.isEmpty_iff.1 empty] at properties
    exact ⟨[], [], by rw [← properties, List.map_nil, List.append_nil, List.append_nil]⟩
  · exact ⟨[⟨1, "// properties"⟩], [Line.blank], rfl⟩

/-- The text of a successful generation, split at the two places of a global declaration. -/
theorem Generated.declaration_text {shader : Shader} {profile : Profile} {entryName : String}
    {output : Output} {entry : Function} {names : Renaming}
    (run : Generated shader profile entryName output entry names) {before after : Shader}
    {declaration : Declaration} (stands : shader = before ++ .declare declaration :: after) :
    let c := Context.ofEntry shader profile entry
    let own : Shader := [.declare declaration]
    ∃ heading blank, output.text = Line.renderAll (c.program.frontLines names ++
      (before.globalLines c names ++ own.globalLines c names ++ after.globalLines c names) ++
      [⟨0, "void main()"⟩, ⟨0, "\x7b"⟩] ++ heading ++
      (before.propertyLines c names ++ own.propertyLines c names ++
        after.propertyLines c names) ++
      blank ++ Glsl.Stmt.linesAll names 1 c.program.body ++ [⟨0, "\x7d"⟩]) := by
  intro c own
  have listed : c.shader = before ++ own ++ after := by
    rw [List.append_assoc]
    exact stands
  obtain ⟨heading, blank, properties⟩ := c.propertyLines_program names
  have globals : Glsl.Stmt.linesAll names 0 c.program.globals = c.shader.globalLines c names := rfl
  have text : output.text = c.program.text names := run.text
  refine ⟨heading, blank, ?_⟩
  rw [text, Glsl.Program.text, Glsl.Program.lines_eq, Glsl.Program.codeLines,
    Glsl.Program.mainLines, globals, properties, listed, Shader.globalLines_append,
    Shader.globalLines_append, Shader.propertyLines_append, Shader.propertyLines_append]
  simp only [List.append_assoc]

/-! ## What a declaration becomes -/

section Declared

variable {c : Context} {names : Renaming} {declaration : Declaration}

/-- Textures and variables of the stage structures are left out of the global statements. -/
theorem Shader.globalLines_suppressed
    (hidden : declaration.ty.base = .texture ∨ c.interface.roleOf declaration.ty ≠ .generic) :
    globalLines c names [.declare declaration] = [] := by
  have suppressed : declaration.isSuppressed c = true := by
    simpa [Declaration.isSuppressed] using hidden
  rw [globalLines_declare, Declaration.lower, if_pos suppressed, Glsl.Stmt.linesAll]

/-- A property is a macro among the global statements if it is an array with initial values. -/
theorem Shader.globalLines_property (shown : declaration.isSuppressed c = false)
    (isProperty : declaration.ty.isProperty = true) :
    globalLines c names [.declare declaration] =
      if declaration.ty.isArray = true ∧ declaration.initializer ≠ [] then
        [⟨0, "#define " ++ (names.source declaration.name ++ " " ++
          (Glsl.Replacement.array (declaration.arrayLiteral c)).text names)⟩]
      else [] := by
  have lowered : declaration.lower c .global =
      if declaration.ty.isArray && !declaration.initializer.isEmpty then
        [.define (.source declaration.name) (.array (declaration.arrayLiteral c))]
      else [] := by
    simp [Declaration.lower, shown, Declaration.lowerGlobal, isProperty, Scope.global]
  rw [globalLines_declare, lowered]
  cases declaration.ty.isArray <;> cases declaration.initializer <;>
    simp [Glsl.Stmt.linesAll, Glsl.Stmt.lines, Glsl.Name.text, String.append_assoc]

/-- A sampler that is no property is a uniform of the name that its unit gives. -/
theorem Shader.globalLines_sampler {unit : Nat} (isSampler : declaration.ty.base.isSampler = true)
    (noProperty : declaration.ty.isProperty = false) (bound : declaration.textureUnit = .ok unit) :
    globalLines c names [.declare declaration] =
      [⟨0, "uniform " ++
        ((if c.profile.isMobile then "lowp " else "") ++ declaration.ty.base.spelling ++ " " ++
          c.profile.stage.word ++ "Texture" ++ toString unit ++ ";")⟩] := by
  have shown : declaration.isSuppressed c = false := Declaration.isSuppressed_sampler isSampler
  simp [globalLines_declare, Declaration.lower, shown, Declaration.lowerGlobal, noProperty,
    isSampler, bound, Scope.global, Glsl.Stmt.linesAll, Glsl.Stmt.lines, Glsl.Name.text,
    String.append_assoc]

end Declared

/-- In a program without faults every global sampler that is no property has a unit. -/
theorem Context.exists_textureUnit {c : Context} (faultless : c.program.faults = [])
    {declaration : Declaration} (listed : .declare declaration ∈ c.shader)
    (isSampler : declaration.ty.base.isSampler = true)
    (noProperty : declaration.ty.isProperty = false) :
    ∃ unit, declaration.textureUnit = .ok unit := by
  cases found : declaration.textureUnit with
  | ok unit => exact ⟨unit, rfl⟩
  | error fault =>
    have faulty : fault ∈ c.program.faults :=
      Context.mem_faults_program.2
        (Or.inr (Or.inr ⟨_, listed, .sampler noProperty isSampler found⟩))
    rw [faultless] at faulty
    cases faulty

/-- A macro is no uniform. -/
theorem define_ne_uniform (definition declared : String) :
    "#define " ++ definition ≠ "uniform " ++ declared := by
  intro same
  have first : ("#define " ++ definition).toList.head? = some '#' := head?_append rfl
  rw [same, head?_append (rfl : "uniform ".toList.head? = some 'u')] at first
  exact absurd first (by decide)

/-- Every text is split at the two places of a global declaration, and what the declaration itself
becomes is what stands there. In `main` it is a plain variable exactly when it is a property and no
array. A texture or a variable of a stage structure is nothing among the global statements, so it is
declared nowhere exactly when it is no such property. A sampler is declared as the uniform of its
unit, and nowhere else, exactly when it is no property. As a property it becomes a macro if it is an
array with initial values, nothing if it is another array, and else the plain variable in `main`. -/
theorem hidden_globals_declared_iff {shader : Shader} {profile : Profile} {entryName : String}
    {output : Output} {before after : Shader} {declaration : Declaration}
    (generated : generate shader profile entryName = .ok output)
    (stands : shader = before ++ .declare declaration :: after) :
    ∃ entry names, Generated shader profile entryName output entry names ∧
      let c := Context.ofEntry shader profile entry
      let own : Shader := [.declare declaration]
      let isLocal : Prop := declaration.ty.isProperty = true ∧ declaration.ty.isArray = false
      (∃ heading blank, output.text = Line.renderAll (c.program.frontLines names ++
        (before.globalLines c names ++ own.globalLines c names ++ after.globalLines c names) ++
        [⟨0, "void main()"⟩, ⟨0, "\x7b"⟩] ++ heading ++
        (before.propertyLines c names ++ own.propertyLines c names ++
          after.propertyLines c names) ++
        blank ++ Glsl.Stmt.linesAll names 1 c.program.body ++ [⟨0, "\x7d"⟩])) ∧
      (own.propertyLines c names =
        if isLocal then [⟨1, (declaration.declarator c).text names ++ ";"⟩] else []) ∧
      (declaration.ty.base = .texture ∨ c.interface.roleOf declaration.ty ≠ .generic →
        own.globalLines c names = [] ∧ (own.propertyLines c names = [] ↔ ¬isLocal)) ∧
      (declaration.ty.base.isSampler = true →
        ((∃ unit, declaration.textureUnit = .ok unit ∧
            own.globalLines c names = [⟨0, "uniform " ++
              ((if profile.isMobile then "lowp " else "") ++ declaration.ty.base.spelling ++ " " ++
                profile.stage.word ++ "Texture" ++ toString unit ++ ";")⟩] ∧
            own.propertyLines c names = []) ↔ declaration.ty.isProperty = false) ∧
        (declaration.ty.isProperty = true → own.globalLines c names =
          if declaration.ty.isArray = true ∧ declaration.initializer ≠ [] then
            [⟨0, "#define " ++ (names.source declaration.name ++ " " ++
              (Glsl.Replacement.array (declaration.arrayLiteral c)).text names)⟩]
          else [])) := by
  obtain ⟨entry, names, run⟩ := generate_eq_ok_iff.1 generated
  refine ⟨entry, names, run, ?_⟩
  intro c own isLocal
  have inMain : own.propertyLines c names =
      if isLocal then [⟨1, (declaration.declarator c).text names ++ ";"⟩] else [] :=
    Shader.propertyLines_declare declaration
  have absent : own.propertyLines c names = [] ↔ ¬isLocal := by
    rw [inMain]
    by_cases shown : isLocal
    · rw [if_pos shown]
      exact iff_of_false (List.cons_ne_nil _ _) (not_not_intro shown)
    · rw [if_neg shown]
      exact iff_of_true rfl shown
  refine ⟨run.declaration_text stands, inMain,
    fun hidden => ⟨Shader.globalLines_suppressed hidden, absent⟩, fun isSampler => ?_⟩
  have shown : declaration.isSuppressed c = false := Declaration.isSuppressed_sampler isSampler
  have isMacro (isProperty : declaration.ty.isProperty = true) : own.globalLines c names = _ :=
    Shader.globalLines_property shown isProperty
  refine ⟨⟨?_, fun noProperty => ?_⟩, fun isProperty => ?_⟩
  · rintro ⟨unit, -, uniform, -⟩
    by_contra isProperty
    rw [Bool.not_eq_false] at isProperty
    rw [isMacro isProperty] at uniform
    split at uniform
    · have text := congrArg Line.text (List.cons.inj uniform).1
      exact define_ne_uniform _ _ text
    · cases uniform
  · have listed : .declare declaration ∈ c.shader := by
      change .declare declaration ∈ shader
      rw [stands]
      exact List.mem_append_right _ List.mem_cons_self
    obtain ⟨unit, bound⟩ := Context.exists_textureUnit run.faultless listed isSampler noProperty
    refine ⟨unit, bound, Shader.globalLines_sampler isSampler noProperty bound, absent.2 ?_⟩
    rintro ⟨isProperty, -⟩
    rw [noProperty] at isProperty
    cases isProperty
  · exact isMacro isProperty

/-- A texture, which is a property or not. -/
def albedoTexture (isProperty : Bool) : Declaration :=
  ⟨"albedo", ⟨.texture, none, false, none, false, isProperty⟩, none, none, []⟩

/-- A sampler of the first unit, which is a property or not. -/
def rampSampler (isProperty : Bool) : Declaration :=
  ⟨"ramp", ⟨.sampler .plane, none, false, none, false, isProperty⟩, some "s0", none, []⟩

/-- A fragment entry that takes a structure, beside a property, a texture, a variable of that
structure and a sampler, which are properties or not. -/
def hiddenGlobals (areProperties : Bool) : Shader :=
  let vec2 := Ty.ofBase (.vector (.float .full) .two)
  let taken (isProperty : Bool) : Ty :=
    ⟨.userDefined, some "Taken", false, none, false, isProperty⟩
  let gain : Declaration :=
    ⟨"gain", ⟨.int, none, false, none, false, true⟩, none, none,
      [.literal (.int 1) (Ty.ofBase .int)]⟩
  [.struct ⟨"Taken", [⟨"uv", vec2, some "TEXCOORD0", none⟩]⟩, .declare gain,
  .declare (albedoTexture areProperties),
  .declare ⟨"seed", taken areProperties, none, none, []⟩,
  .declare (rampSampler areProperties),
  .function ⟨"main", Ty.ofBase .void, none, [⟨"i", taken false, .plain⟩]⟩ []]

/-- In the text without properties the sampler is its uniform and no local of `main`. In the text
with properties the texture is a local of `main` and nothing in front of it. -/
theorem hiddenGlobals_placed :
    let profile : Profile := ⟨.desktopOther, .modern, .fragment⟩
    (∃ output entry names, generate (hiddenGlobals false) profile "main" = .ok output ∧
      Generated (hiddenGlobals false) profile "main" output entry names ∧
      let c := Context.ofEntry (hiddenGlobals false) profile entry
      Shader.propertyLines c names [.declare (rampSampler false)] = [] ∧
        Shader.globalLines c names [.declare (rampSampler false)] =
          [⟨0, "uniform sampler2D FragmentTexture0;"⟩]) ∧
    ∃ output entry names, generate (hiddenGlobals true) profile "main" = .ok output ∧
      Generated (hiddenGlobals true) profile "main" output entry names ∧
      let c := Context.ofEntry (hiddenGlobals true) profile entry
      Shader.globalLines c names [.declare (albedoTexture true)] = [] ∧
        Shader.propertyLines c names [.declare (albedoTexture true)] ≠ [] := by
  constructor
  · have generated :
        generate (hiddenGlobals false) ⟨.desktopOther, .modern, .fragment⟩ "main" = .ok _ := rfl
    have stands : hiddenGlobals false = (hiddenGlobals false).take 4 ++
        .declare (rampSampler false) :: (hiddenGlobals false).drop 5 := rfl
    obtain ⟨entry, names, run, -, -, -, sampler⟩ := hidden_globals_declared_iff generated stands
    obtain ⟨unit, bound, uniform, noLocal⟩ := (sampler rfl).1.2 rfl
    obtain rfl : 0 = unit := Except.ok.inj bound
    exact ⟨_, entry, names, generated, run, noLocal, uniform⟩
  · have generated :
        generate (hiddenGlobals true) ⟨.desktopOther, .modern, .fragment⟩ "main" = .ok _ := rfl
    have stands : hiddenGlobals true = (hiddenGlobals true).take 2 ++
        .declare (albedoTexture true) :: (hiddenGlobals true).drop 3 := rfl
    obtain ⟨entry, names, run, -, -, texture, -⟩ := hidden_globals_declared_iff generated stands
    obtain ⟨noGlobal, absent⟩ := texture (Or.inl rfl)
    exact ⟨_, entry, names, generated, run, noGlobal, fun empty => absent.1 empty ⟨rfl, rfl⟩⟩

/-- As properties, a texture, a variable of a stage structure and a sampler are all plain locals of
`main`, and no uniform is declared for the sampler. -/
theorem hiddenGlobals_shown :
    generate (hiddenGlobals true) ⟨.desktopOther, .modern, .fragment⟩ "main" =
      .ok ⟨Line.renderAll
        ((Profile.preamble ⟨.desktopOther, .modern, .fragment⟩ []).map (Line.mk 0) ++
          [⟨0, "in vec2 var_uv;"⟩, .blank, ⟨0, "void main()"⟩, ⟨0, "\x7b"⟩,
            ⟨1, "// properties"⟩, ⟨1, "int gain = 1;"⟩, ⟨1, "sampler2D albedo;"⟩,
            ⟨1, "Taken seed;"⟩, ⟨1, "sampler2D ramp;"⟩, .blank, ⟨0, "\x7d"⟩]),
        .glsl330, []⟩ := by
  decide +kernel

end GlslText
