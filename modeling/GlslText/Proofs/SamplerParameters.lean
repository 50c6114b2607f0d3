import GlslText.Proofs.Collision
import GlslText.Proofs.EntryCalls
import GlslText.Proofs.SamplerUnits

/-!
# Parameters that are samplers

The head of a function declares its parameters under their own names. An identifier of a sampler in
the body is looked up by its name among the global variables, whatever the function declares. So it
is written as the parameter exactly when no global sampler of that name is bound to a texture unit,
or when the parameter happens to have the name of that unit.
-/

namespace GlslText

/-! ## Functions anywhere in a program -/

/-- What is placed in a body of a placed statement is placed in the same list as that statement. -/
theorem Statement.Placed.deeper {c : Context} {around s : Statement} {scope inner own outer : Scope}
    {depth ownDepth level : Nat} {statements body : List Statement}
    (placed : around.Placed c scope depth outer level statements)
    (opened : (inner, body) ∈ around.bodies c scope)
    (inBody : s.Placed c own ownDepth inner (depth + 1) body) :
    s.Placed c own ownDepth outer level statements := by
  induction placed with
  | here listed => exact .inside listed opened inBody
  | inside listed outerOpened placed ih => exact .inside listed outerOpened ih

namespace Context

variable {c : Context} {s : Statement} {scope : Scope} {depth : Nat}

/-- A statement is written somewhere in the program: among the global statements or in `main`. -/
def Places (c : Context) (s : Statement) (scope : Scope) (depth : Nat) : Prop :=
  s.Placed c scope depth Scope.global 0 c.shader ∨
    s.Placed c scope depth c.mainScope 1 c.entry.body

/-- The lines of a statement of the program stand together in the text. -/
theorem Places.lines (places : c.Places s scope depth) (names : Renaming) :
    Glsl.Stmt.linesAll names depth (s.lower c scope) <:+: c.program.lines names := by
  rcases places with inShader | inMain
  · exact lines_of_shader inShader names
  · exact lines_of_entry inMain names

/-- The lowering of the program starts from the sites in the bodies of its statements. -/
theorem Places.mem_roots (places : c.Places s scope depth) {inner : Scope} {body : List Statement}
    (opened : (inner, body) ∈ s.bodies c scope) {site : Site}
    (started : site ∈ Statement.sitesAll c inner body) : site ∈ c.roots := by
  obtain ⟨own, ownScope, ownDepth, inBody, listed⟩ :=
    (Statement.mem_sitesAll_iff_placed (depth + 1)).1 started
  rw [roots]
  rcases places with inShader | inMain
  · refine List.mem_append_left _ (List.mem_append_left _ ?_)
    exact (Statement.mem_sitesAll_iff_placed 0).2
      ⟨own, ownScope, ownDepth, inShader.deeper opened inBody, listed⟩
  · refine List.mem_append_right _ ?_
    exact (Statement.mem_sitesAll_iff_placed 1).2
      ⟨own, ownScope, ownDepth, inMain.deeper opened inBody, listed⟩

end Context

/-- The term of everything rendered in a body is written on a line of the body. -/
theorem Statement.line_of_part {c : Context} {scope : Scope} {body : List Statement}
    {root site : Site} (started : root ∈ sitesAll c scope body) (below : site ∈ root.parts c)
    (names : Renaming) (depth : Nat) :
    ∃ line ∈ Glsl.Stmt.linesAll names depth (lowerAll c scope body),
      occursIn ((site.lower c).text names) line.text = true := by
  have covered := covers_lowerAll fun s (_ : s ∈ body) => covers_lower c scope s
  obtain ⟨line, member, inside⟩ := Glsl.Stmt.exists_lineAll depth _ (covered.lowered root started)
  exact ⟨line, member, occursIn_trans (Site.subterm_part below).occursIn inside⟩

/-! ## Names of parameters and of texture units -/

/-- The start of the name of a texture unit and a reserved word are no prefixes of each other. -/
theorem Stage.word_apart (stage : Stage) {base : String} (reserved : base ∈ reservedWords) :
    base.toList.isPrefixOf stage.word.toList = false ∧
      stage.word.toList.isPrefixOf base.toList = false := by
  have apart : ∀ base ∈ reservedWords,
      (base.toList.isPrefixOf Stage.vertex.word.toList = false ∧
        Stage.vertex.word.toList.isPrefixOf base.toList = false) ∧
      base.toList.isPrefixOf Stage.fragment.word.toList = false ∧
        Stage.fragment.word.toList.isPrefixOf base.toList = false := by
    decide +kernel
  cases stage with
  | vertex => exact (apart base reserved).1
  | fragment => exact (apart base reserved).2

/-- A name of the shader is written as the name of a texture unit exactly when it is that name. -/
theorem Renaming.source_eq_texture_iff {tokens : List String} {names : Renaming}
    (chosen : ofTokens tokens = .ok names) {name : String} {stage : Stage} {unit : Nat} :
    names.source name = stage.word ++ "Texture" ++ toString unit ↔
      name = stage.word ++ "Texture" ++ toString unit := by
  by_cases reserved : name ∈ reservedWords
  · have apart := stage.word_apart reserved
    have opens : stage.word.toList <+: (stage.word ++ "Texture" ++ toString unit).toList := by
      simp [String.toList_append, List.append_assoc]
    refine iff_of_false ?_ ?_
    · obtain ⟨n, isAlias⟩ := (aliasOf_mem chosen (List.mem_append_right _ reserved)).2
      rw [source_of_reserved reserved, isAlias]
      exact numbered_ne opens apart n
    · rintro rfl
      rw [List.isPrefixOf_iff_prefix.2 opens] at apart
      cases apart.2
  · rw [names.source_of_not_reserved name reserved]

/-- A name is bound to one texture unit at most. -/
theorem Shader.BindsSampler.unique {shader : Shader} {name : String} {unit another : Nat}
    (binds : shader.BindsSampler name unit) (also : shader.BindsSampler name another) :
    another = unit := by
  obtain ⟨found, declared, -, bound⟩ := binds
  obtain ⟨again, redeclared, -, rebound⟩ := also
  obtain rfl := Option.some.inj (declared.symm.trans redeclared)
  exact Except.ok.inj (rebound.symm.trans bound)

/-- An identifier of a sampler without a fault keeps its name if no global sampler of that name is
bound to a unit. -/
theorem Context.identifier_of_not_binds {c : Context} {name : String} {ty : Ty}
    (sampled : ty.base.isSampler = true)
    (sound : ∀ fault, ¬(Expr.identifier name ty).Faulty c.shader fault)
    (free : ∀ unit, ¬c.shader.BindsSampler name unit) :
    c.identifier name ty = .named (.source name) "" := by
  have looked : (c.shader.declaration? name).filter (fun found => found.ty.base.isSampler) =
      none := by
    rw [Option.filter_eq_none_iff]
    intro found declared isSampler
    cases bound : found.textureUnit with
    | ok unit => exact free unit ⟨found, declared, isSampler, bound⟩
    | error fault => exact sound fault (.sampler sampled declared isSampler bound)
  rw [identifier, if_pos sampled, looked]

/-- An identifier of a sampler without a fault is written as its own name exactly when every unit
that the name is bound to has that name, and as the unit if it is bound to one. -/
theorem Context.exists_identifier {c : Context} {tokens : List String} {names : Renaming}
    (chosen : Renaming.ofTokens tokens = .ok names) {name : String} {ty : Ty}
    (sampled : ty.base.isSampler = true)
    (sound : ∀ fault, ¬(Expr.identifier name ty).Faulty c.shader fault) :
    ∃ written, c.identifier name ty = .named written "" ∧
      (written.text names = names.source name ↔ ∀ unit, c.shader.BindsSampler name unit →
        name = c.profile.stage.word ++ "Texture" ++ toString unit) ∧
      ∀ unit, c.shader.BindsSampler name unit →
        written.text names = c.profile.stage.word ++ "Texture" ++ toString unit := by
  by_cases bound : ∃ unit, c.shader.BindsSampler name unit
  · obtain ⟨unit, binds⟩ := bound
    refine ⟨.texture c.profile.stage unit, identifier_of_binds sampled binds, ?_, ?_⟩
    · rw [Glsl.Name.text, eq_comm, Renaming.source_eq_texture_iff chosen]
      constructor
      · intro same another also
        rw [binds.unique also]
        exact same
      · intro same
        exact same unit binds
    · intro another also
      rw [binds.unique also]
      rfl
  · have free (unit : Nat) : ¬c.shader.BindsSampler name unit := fun binds => bound ⟨unit, binds⟩
    refine ⟨.source name, identifier_of_not_binds sampled sound free, iff_of_true rfl ?_, ?_⟩
    · exact fun unit binds => absurd binds (free unit)
    · exact fun unit binds => absurd binds (free unit)

/-- In every generated text each written function other than the entry has its head in front of its
body, and the head declares its parameters that are samplers under their own names. A rendered
identifier of such a name in the body, also in a function inside it, is written as that parameter
exactly when every unit that a global sampler of the name is bound to has the name of the parameter;
and where a global sampler is bound to a unit, the identifier is written as that unit. -/
theorem sampler_parameters_kept_iff {shader : Shader} {profile : Profile} {entryName : String}
    {output : Output} (generated : generate shader profile entryName = .ok output) :
    ∃ entry names, Generated shader profile entryName output entry names ∧
      let c := Context.ofEntry shader profile entry
      ∀ (signature : Signature) (body : List Statement) (scope : Scope) (depth : Nat),
        c.Places (.function signature body) scope depth → signature.name ≠ entryName →
        ∀ argument ∈ signature.arguments, argument.ty.base.isSampler = true →
          let parameter := names.source argument.name
          let inner := scope.ofFunction signature
          let head := signature.prototype c
          let lines := Glsl.Stmt.linesAll names (depth + 1) (Statement.lowerAll c inner body)
          ⟨depth, head.text names ++ " \x7b"⟩ :: lines <:+: c.program.lines names ∧
          (∃ declared ∈ head.parameters, declared.declarator.type = argument.ty.glslName ∧
            declared.declarator.name.text names = parameter) ∧
          ∀ root ∈ Statement.sitesAll c inner body, ∀ site ∈ root.parts c, ∀ ty,
            site.expr = .identifier argument.name ty → ty.base.isSampler = true →
            ∃ written, site.lower c = castTo site.hint site.expr (.named written "") ∧
              (∃ line ∈ lines, occursIn ((site.lower c).text names) line.text = true) ∧
              (written.text names = parameter ↔
                ∀ unit, shader.BindsSampler argument.name unit →
                  argument.name = profile.stage.word ++ "Texture" ++ toString unit) ∧
              ∀ unit, shader.BindsSampler argument.name unit →
                written.text names = profile.stage.word ++ "Texture" ++ toString unit := by
  obtain ⟨entry, names, run⟩ := generate_eq_ok_iff.1 generated
  refine ⟨entry, names, run, ?_⟩
  intro c signature body scope depth places other argument listed isSampler parameter inner head
    lines
  have apart : signature.name ≠ c.entry.name :=
    fun same => other (same.trans (Shader.mem_of_function? run.found).2)
  have opened : (inner, body) ∈ (Statement.function signature body).bodies c scope := by
    rw [Statement.bodies, if_neg apart]
    exact List.mem_singleton_self _
  refine ⟨?_, ⟨_, List.mem_map_of_mem listed, rfl, rfl⟩, ?_⟩
  · have written := places.lines names
    rw [Statement.lower, if_neg apart, Glsl.Stmt.linesAll, Glsl.Stmt.linesAll, List.append_nil,
      Glsl.Stmt.lines, ← List.cons_append] at written
    exact (List.prefix_append _ _).isInfix.trans written
  · rintro root started ⟨hint, e⟩ below ty rfl sampled
    have rendered : ⟨hint, .identifier argument.name ty⟩ ∈ c.rendered :=
      List.mem_flatMap.2 ⟨root, places.mem_roots opened started, below⟩
    have sound := (Context.faults_program_eq_nil_iff.1 run.faultless).2.1 _ rendered
    obtain ⟨written, identified, kept, captured⟩ :=
      Context.exists_identifier run.chosen sampled sound
    refine ⟨written, ?_, Statement.line_of_part started below names (depth + 1), kept, captured⟩
    rw [Site.lower, Expr.lower, identified]

/-- The parameter of the given name at its place in a call. -/
def sampledParameter (name : String) : Site :=
  ⟨some (Ty.ofBase (.sampler .plane)), .identifier name (Ty.ofBase (.sampler .plane))⟩

/-- The head of a function that takes a sampler under the given name. -/
def samplingHead (name : String) : Signature :=
  ⟨"sampleAt", Ty.ofBase (.vector (.float .full) .four), none,
    [⟨name, Ty.ofBase (.sampler .plane), .plain⟩,
      ⟨"uv", Ty.ofBase (.vector (.float .full) .two), .plain⟩]⟩

/-- The sampling of the parameter. -/
def samplingCall (name : String) : Expr :=
  .ofCall "tex2D" [(sampledParameter name).expr,
    .identifier "uv" (Ty.ofBase (.vector (.float .full) .two))]
    (Ty.ofBase (.vector (.float .full) .four))

/-- Two global samplers, a function that samples its parameter of the given name, and an entry that
passes the second sampler to it. -/
def passedSampler (name : String) : Shader :=
  let sampler := Ty.ofBase (.sampler .plane)
  let vec4 := Ty.ofBase (.vector (.float .full) .four)
  let origin := Expr.construct [.literal (.float 0) (Ty.ofBase (.vector (.float .full) .one))]
    (Ty.ofBase (.vector (.float .full) .two))
  [.declare ⟨"albedo", sampler, some "s0", none, []⟩,
  .declare ⟨"ramp", sampler, some "s1", none, []⟩,
  .function (samplingHead name) [.result (some (samplingCall name))],
  .function ⟨"main", vec4, some "SV_TARGET", []⟩
    [.result (some (.ofCall "sampleAt" [.identifier "ramp" sampler, origin] vec4))]]

/-- No global variable has the name of the parameter, so the function samples the parameter. -/
theorem passedSampler_kept :
    ∃ output entry names written,
      generate (passedSampler "map") ⟨.desktopOther, .modern, .fragment⟩ "main" = .ok output ∧
      (passedSampler "map").function? "main" = some entry ∧
      let c := Context.ofEntry (passedSampler "map") ⟨.desktopOther, .modern, .fragment⟩ entry
      (∃ declared ∈ ((samplingHead "map").prototype c).parameters,
        declared.declarator.name.text names = "map") ∧
      (sampledParameter "map").lower c = .named written "" ∧ written.text names = "map" := by
  have generated :
      generate (passedSampler "map") ⟨.desktopOther, .modern, .fragment⟩ "main" = .ok _ := rfl
  obtain ⟨entry, names, run, functions⟩ := sampler_parameters_kept_iff generated
  have found : (passedSampler "map").function? "main" = some _ := rfl
  obtain rfl := Option.some.inj (found.symm.trans run.found)
  have listed : .function (samplingHead "map") [.result (some (samplingCall "map"))] ∈
      passedSampler "map" :=
    List.mem_cons_of_mem _ (List.mem_cons_of_mem _ List.mem_cons_self)
  obtain ⟨-, ⟨declared, member, -, name⟩, sites⟩ :=
    functions _ _ _ 0 (Or.inl (.here listed)) (by decide) _ List.mem_cons_self rfl
  obtain ⟨written, lowered, -, kept, -⟩ := sites _ List.mem_cons_self (sampledParameter "map")
    (Site.mem_parts.2 (Or.inr ⟨_, List.mem_cons_self, Site.mem_parts_self _ _⟩)) _ rfl rfl
  have own : names.source "map" = "map" := names.source_of_not_reserved "map" (by decide)
  have free (unit : Nat) : ¬(passedSampler "map").BindsSampler "map" unit := by
    rintro ⟨bound, looked, -⟩
    cases looked
  have text := kept.2 fun unit bound => absurd bound (free unit)
  exact ⟨_, _, names, written, generated, found, ⟨declared, member, name.trans own⟩, lowered,
    text.trans own⟩

/-- The parameter has the name of the first sampler, so the function samples that one whatever it
is given. -/
theorem passedSampler_captured :
    generate (passedSampler "albedo") ⟨.desktopOther, .modern, .fragment⟩ "main" =
      .ok ⟨Line.renderAll
        ((Profile.preamble ⟨.desktopOther, .modern, .fragment⟩ []).map (Line.mk 0) ++
          [⟨0, "layout (location = 0) out vec4 out_FragColor0;"⟩, .blank,
            ⟨0, "uniform sampler2D FragmentTexture0;"⟩, ⟨0, "uniform sampler2D FragmentTexture1;"⟩,
            ⟨0, "vec4 sampleAt(sampler2D albedo, vec2 uv) \x7b"⟩,
            ⟨1, "return texture(FragmentTexture0, uv);"⟩, ⟨0, "\x7d"⟩, .blank,
            ⟨0, "void main()"⟩, ⟨0, "\x7b"⟩,
            ⟨1, "out_FragColor0 = sampleAt(FragmentTexture1, vec2(0.0));"⟩, ⟨1, "return;"⟩,
            ⟨0, "\x7d"⟩]),
        .glsl330, []⟩ := by
  decide +kernel

end GlslText
