import GlslText.Proofs.HiddenGlobals
import GlslText.Proofs.SlotGrammar
import GlslText.Proofs.Subterm

/-!
# Texture units of samplers

The register of a sampler is a letter and a numeral of thirty-two bits. It is read when the sampler
is declared and again wherever an identifier of its name is written, and there the sampler is looked
up by its name among the global variables. For the first variable of a name both places read the
same register, so they write the same name, with the number of the unit in its shortest form.
-/

namespace GlslText

/-! ## The grammar of registers -/

/-- A register and the texture unit it names: the letter `s` in either case and a numeral whose
value has thirty-two bits. -/
inductive NamesUnit : List Char → Nat → Prop where
  | register {letter : Char} {digits : List Char} {unit : Nat}
      (isLetter : letter = 's' ∨ letter = 'S') (numeral : Numeral digits unit)
      (bounded : unit < UInt32.size) : NamesUnit (letter :: digits) unit

/-- A register names a unit by its letter and by the numeral behind it. -/
theorem namesUnit_cons_iff {letter : Char} {digits : List Char} {unit : Nat} :
    NamesUnit (letter :: digits) unit ↔
      (letter = 's' ∨ letter = 'S') ∧ Numeral digits unit ∧ unit < UInt32.size := by
  constructor
  · rintro ⟨isLetter, numeral, bounded⟩
    exact ⟨isLetter, numeral, bounded⟩
  · rintro ⟨isLetter, numeral, bounded⟩
    exact .register isLetter numeral bounded

/-- The reader of registers accepts what names a unit, and gives that unit. -/
theorem textureUnit?_eq_some_iff {register : String} {unit : Nat} :
    textureUnit? register = some unit ↔ NamesUnit register.toList unit := by
  unfold textureUnit?
  cases register.toList with
  | nil =>
    refine iff_of_false (fun found => ?_) (fun names => ?_)
    · cases found
    · cases names
  | cons letter digits =>
    rw [namesUnit_cons_iff, ← toLower_eq_s_iff, ← readDigits_eq_some_iff]
    by_cases isLetter : letter.toLower = 's'
    · simp [isLetter, Option.filter_eq_some_iff]
    · simp [isLetter]

section Register

variable {declaration : Declaration} {register : String}

/-- A sampler is bound to the unit that its register names. -/
theorem Declaration.textureUnit_eq_ok_iff (given : declaration.register = some register)
    {unit : Nat} : declaration.textureUnit = .ok unit ↔ NamesUnit register.toList unit := by
  rw [← textureUnit?_eq_some_iff, Declaration.textureUnit, given]
  dsimp only
  cases textureUnit? register <;> simp

/-- A register is refused exactly when it names no unit. -/
theorem Declaration.textureUnit_eq_error_iff (given : declaration.register = some register) :
    declaration.textureUnit = .error (.invalidRegister declaration.name register) ↔
      ∀ unit, ¬NamesUnit register.toList unit := by
  simp only [← textureUnit?_eq_some_iff]
  rw [Declaration.textureUnit, given]
  dsimp only
  cases textureUnit? register <;> simp

/-- A sampler that is bound to a unit has a register. -/
theorem Declaration.register_of_textureUnit {unit : Nat}
    (bound : declaration.textureUnit = .ok unit) :
    ∃ register, declaration.register = some register ∧ NamesUnit register.toList unit := by
  cases given : declaration.register with
  | none =>
    rw [Declaration.textureUnit, given] at bound
    cases bound
  | some register => exact ⟨register, rfl, (textureUnit_eq_ok_iff given).1 bound⟩

end Register

/-! ## Samplers that are looked up by name -/

/-- The variable that a global statement declares; a buffer declares the variable it holds. -/
def Statement.declared? : Statement → Option Declaration
  | declare declaration => some declaration
  | buffer _ content => some content
  | _ => none

/-- No variable of the name is declared by the statements. -/
def Shader.NoVariable (name : String) (shader : Shader) : Prop :=
  ∀ s ∈ shader, ∀ declared, s.declared? = some declared → declared.name ≠ name

/-- The first variable of a name is the one that is looked up. -/
theorem Shader.declaration?_of_first {before after : Shader} {declaration : Declaration}
    (first : before.NoVariable declaration.name) :
    declaration? (before ++ .declare declaration :: after) declaration.name =
      some declaration := by
  unfold declaration?
  rw [List.findSome?_append, List.findSome?_eq_none_iff.2, Option.none_or, List.findSome?_cons]
  · simp only [if_true]
  · intro s listed
    have other := first s listed
    cases s with
    | declare earlier => simpa [Statement.declared?] using other
    | buffer name content => simpa [Statement.declared?] using other
    | _ => rfl

/-- The first global variable of a name is a sampler that is bound to a texture unit. -/
def Shader.BindsSampler (shader : Shader) (name : String) (unit : Nat) : Prop :=
  ∃ found, shader.declaration? name = some found ∧ found.ty.base.isSampler = true ∧
    found.textureUnit = .ok unit

/-- Every term of a program is written on one of its lines. -/
theorem Glsl.Program.exists_line {program : Program} {term : Term} (listed : term ∈ program.terms)
    (names : Renaming) :
    ∃ line ∈ program.lines names, occursIn (term.text names) line.text = true := by
  rw [lines_eq, codeLines, mainLines]
  rcases List.mem_append.1 listed with inFront | inBody
  · rcases List.mem_append.1 inFront with inGlobals | inProperties
    · obtain ⟨line, member, inside⟩ := Stmt.exists_lineAll 0 _ inGlobals
      exact ⟨line, by simp [member], inside⟩
    · obtain ⟨declarator, member, inside⟩ := List.mem_flatMap.1 inProperties
      have shown : ¬program.properties.isEmpty = true := by
        simpa using List.ne_nil_of_mem member
      have onLine : (⟨1, declarator.text names ++ ";"⟩ : Line) ∈ program.propertyLines names := by
        rw [propertyLines, if_neg shown]
        exact List.mem_cons_of_mem _
          (List.mem_append_left _ (List.mem_map.2 ⟨declarator, member, rfl⟩))
      refine ⟨⟨1, declarator.text names ++ ";"⟩, by simp [onLine], ?_⟩
      exact occursIn_append (.inl (Declarator.occursIn_text inside))
  · obtain ⟨line, member, inside⟩ := Stmt.exists_lineAll 1 _ inBody
    exact ⟨line, by simp [member], inside⟩

/-- The lines of a global statement stand behind those of the statements before it. -/
theorem Generated.statement_text {shader : Shader} {profile : Profile} {entryName : String}
    {output : Output} {entry : Function} {names : Renaming}
    (run : Generated shader profile entryName output entry names) {before after : Shader}
    {s : Statement} (stands : shader = before ++ s :: after) :
    let c := Context.ofEntry shader profile entry
    ∃ behind, output.text = Line.renderAll (c.program.frontLines names ++
      before.globalLines c names ++ Shader.globalLines c names [s] ++ behind) := by
  intro c
  have listed : c.shader = before ++ ([s] ++ after) := stands
  have globals : Glsl.Stmt.linesAll names 0 c.program.globals = c.shader.globalLines c names := rfl
  have text : output.text = c.program.text names := run.text
  refine ⟨after.globalLines c names ++ c.program.mainLines names, ?_⟩
  rw [text, Glsl.Program.text, Glsl.Program.lines_eq, Glsl.Program.codeLines, globals, listed,
    Shader.globalLines_append, Shader.globalLines_append]
  simp only [List.append_assoc]

namespace Context

variable {c : Context}

/-- An identifier of a sampler stands for the unit of the global sampler of its name. -/
theorem identifier_of_binds {name : String} {ty : Ty} {unit : Nat}
    (sampled : ty.base.isSampler = true) (binds : c.shader.BindsSampler name unit) :
    c.identifier name ty = .named (.texture c.profile.stage unit) "" := by
  obtain ⟨found, declared, isSampler, bound⟩ := binds
  have looked : (c.shader.declaration? name).filter (fun found => found.ty.base.isSampler) =
      some found := by
    rw [declared, Option.filter_some, if_pos isSampler]
  rw [identifier, if_pos sampled, looked]
  dsimp only
  rw [bound]

/-- The term of everything that is rendered is written on a line of the program. -/
theorem line_of_rendered {site : Site} (rendered : site ∈ c.rendered) (names : Renaming) :
    ∃ line ∈ c.program.lines names, occursIn ((site.lower c).text names) line.text = true := by
  obtain ⟨root, started, below⟩ := List.mem_flatMap.1 rendered
  obtain ⟨line, member, inside⟩ :=
    Glsl.Program.exists_line (c.covers_program.lowered root started) names
  exact ⟨line, member, occursIn_trans (Site.subterm_part below).occursIn inside⟩

end Context

/-- A register names a texture unit exactly if it is the letter `s` in either case and a numeral,
zeros in front allowed, whose value has thirty-two bits; every other text is refused as a register.
In every generated text a global sampler that is no property, and the first variable of its name,
is declared as a uniform under a name of the stage and the shortest numeral of its unit, and every
rendered identifier of a sampler of that name is written as the same name. -/
theorem sampler_units_agree :
    (∀ (declaration : Declaration) (register : String), declaration.register = some register →
      (∀ unit, declaration.textureUnit = .ok unit ↔ NamesUnit register.toList unit) ∧
      (declaration.textureUnit = .error (.invalidRegister declaration.name register) ↔
        ∀ unit, ¬NamesUnit register.toList unit)) ∧
    ∀ (shader : Shader) (profile : Profile) (entryName : String) (output : Output)
      (before after : Shader) (sampler : Declaration),
      generate shader profile entryName = .ok output →
      shader = before ++ .declare sampler :: after → before.NoVariable sampler.name →
      sampler.ty.base.isSampler = true → sampler.ty.isProperty = false →
      ∃ entry names register unit,
        Generated shader profile entryName output entry names ∧
        sampler.register = some register ∧ NamesUnit register.toList unit ∧
        CanonicalNumeral (toString unit).toList unit ∧
        let c := Context.ofEntry shader profile entry
        let name := profile.stage.word ++ "Texture" ++ toString unit
        (∃ behind, output.text = Line.renderAll
          (c.program.frontLines names ++ before.globalLines c names ++
            [⟨0, "uniform " ++ (if profile.isMobile then "lowp " else "") ++
              sampler.ty.base.spelling ++ " " ++ name ++ ";"⟩] ++ behind)) ∧
        ∀ site ∈ c.rendered, ∀ ty, site.expr = .identifier sampler.name ty →
          ty.base.isSampler = true →
          ∃ written, site.lower c = castTo site.hint site.expr (.named written "") ∧
            written.text names = name ∧
            ∃ line ∈ c.program.lines names,
              occursIn ((site.lower c).text names) line.text = true := by
  refine ⟨fun declaration register given => ⟨fun unit =>
    Declaration.textureUnit_eq_ok_iff given, Declaration.textureUnit_eq_error_iff given⟩, ?_⟩
  intro shader profile entryName output before after sampler generated stands first isSampler
    noProperty
  obtain ⟨entry, names, run⟩ := generate_eq_ok_iff.1 generated
  have listed : .declare sampler ∈ shader := by
    rw [stands]
    exact List.mem_append_right _ List.mem_cons_self
  obtain ⟨unit, bound⟩ := Context.exists_textureUnit run.faultless listed isSampler noProperty
  obtain ⟨register, given, namesUnit⟩ := Declaration.register_of_textureUnit bound
  refine ⟨entry, names, register, unit, run, given, namesUnit, canonicalNumeral_toString unit, ?_⟩
  intro c name
  constructor
  · obtain ⟨behind, text⟩ := run.statement_text stands
    have uniform : Shader.globalLines c names [.declare sampler] = _ :=
      Shader.globalLines_sampler isSampler noProperty bound
    refine ⟨behind, ?_⟩
    rw [text, uniform]
    simp only [name, String.append_assoc]
    rfl
  · rintro ⟨hint, e⟩ rendered ty rfl sampled
    have binds : c.shader.BindsSampler sampler.name unit := by
      refine ⟨sampler, ?_, isSampler, bound⟩
      change shader.declaration? sampler.name = some sampler
      rw [stands]
      exact Shader.declaration?_of_first first
    refine ⟨.texture profile.stage unit, ?_, rfl, c.line_of_rendered rendered names⟩
    rw [Site.lower, Expr.lower, Context.identifier_of_binds sampled binds]
    rfl

/-- A cube sampler under a register with zeros in front. -/
def skySampler : Declaration :=
  ⟨"sky", Ty.ofBase (.sampler .cube), some "S0007", none, []⟩

/-- The place of that sampler as an argument. -/
def skyArgument : Site :=
  ⟨some (Ty.ofBase (.sampler .cube)), .identifier "sky" (Ty.ofBase (.sampler .cube))⟩

/-- The sampler between a buffer and another sampler of its name, and an entry that samples it. -/
def skyShader : Shader :=
  let vec3 := Ty.ofBase (.vector (.float .full) .three)
  let vec4 := Ty.ofBase (.vector (.float .full) .four)
  let scalar := Ty.ofBase (.vector (.float .full) .one)
  let up := Expr.construct [.literal (.float 0x3f800000) scalar] vec3
  [.buffer "Globals" ⟨"gain", vec4, some "c0", none, []⟩, .declare skySampler,
  .declare ⟨"sky", Ty.ofBase (.sampler .plane), some "s3", none, []⟩,
  .function ⟨"main", Ty.ofBase .void, none, []⟩
    [.evaluate (.ofCall "texCUBE" [skyArgument.expr, up] vec4)]]

/-- The uniform of the first sampler of the name and its use as an argument both name the seventh
unit, whatever the zeros in its register and the later sampler. -/
theorem skyShader_agrees :
    let profile : Profile := ⟨.mobileA, .modern, .fragment⟩
    ∃ output entry names front behind written,
      generate skyShader profile "main" = .ok output ∧
      Generated skyShader profile "main" output entry names ∧
      output.text = Line.renderAll
        (front ++ [⟨0, "uniform lowp samplerCube FragmentTexture7;"⟩] ++ behind) ∧
      skyArgument ∈ (Context.ofEntry skyShader profile entry).rendered ∧
      skyArgument.lower (Context.ofEntry skyShader profile entry) = .named written "" ∧
      written.text names = "FragmentTexture7" := by
  intro profile
  have generated : generate skyShader ⟨.mobileA, .modern, .fragment⟩ "main" = .ok _ := rfl
  have stands : skyShader = skyShader.take 1 ++ .declare skySampler :: skyShader.drop 2 := rfl
  have first : Shader.NoVariable skySampler.name (skyShader.take 1) := by
    intro s listed declared isDeclared
    obtain rfl := List.mem_singleton.1 listed
    obtain rfl := Option.some.inj isDeclared
    decide
  obtain ⟨entry, names, register, unit, run, given, namesUnit, -, ⟨behind, text⟩, sites⟩ :=
    sampler_units_agree.2 _ _ _ _ _ _ _ generated stands first rfl rfl
  have seven : unit = 7 := by
    have bound := ((sampler_units_agree.1 skySampler register given).1 unit).2 namesUnit
    exact (Except.ok.inj bound).symm
  subst seven
  have rendered : skyArgument ∈ (Context.ofEntry skyShader profile entry).rendered := by
    have found : skyShader.function? "main" = some _ := rfl
    obtain rfl := Option.some.inj (found.symm.trans run.found)
    exact List.mem_flatMap.2 ⟨_, List.mem_cons_self,
      Site.mem_parts.2 (Or.inr ⟨_, List.mem_cons_self, Site.mem_parts_self _ _⟩)⟩
  obtain ⟨written, lowered, named, -⟩ := sites skyArgument rendered _ rfl rfl
  exact ⟨_, entry, names, _, behind, written, generated, run, text, rendered, lowered, named⟩

end GlslText
