import GlslText.Proofs.HelperClosure
import GlslText.Proofs.Qualifiers
import GlslText.Proofs.Regrouping
import GlslText.Proofs.Target

/-!
# Sampling at a given level

The legacy desktop dialects sample at a given level in a fragment by functions of an extension. The
preamble enables it when the shader names a function that samples a plane or a cube at a level, or
by gradient. What the code calls under a name of the extension is covered by that. The helper
function that samples a volume at a level calls such a function too, and its own feature does not
enable the extension: the text is then without it unless another function of the shader asks for it.
-/

namespace GlslText

/-- The functions by which the legacy generation samples at a given level. -/
def levelFunctions : List String :=
  ["texture2DLod", "textureCubeLod", "texture3DLod"]

/-- A function of the language is called, in a term of the code or in the body of a helper
function. -/
def Glsl.Program.CallsFunction (program : Program) (function : String) : Prop :=
  (∃ term ∈ program.terms, .word function ∈ term.names) ∨
    ∃ group ∈ program.helpers, ∃ overload ∈ group, ∃ statement ∈ overload.body,
      HasToken statement function

/-- A string of the shader is one of the words, whatever the case of its letters. -/
def Shader.Mentions (shader : Shader) (words : List String) : Prop :=
  ∃ token ∈ shader.tokens, ∃ word ∈ words, alike word token = true

/-- One of the words of two lists is mentioned exactly when one of either list is. -/
theorem Shader.mentions_append {shader : Shader} {first second : List String} :
    shader.Mentions (first ++ second) ↔ shader.Mentions first ∨ shader.Mentions second := by
  simp only [Mentions, List.mem_append, or_and_right, exists_or, and_or_left]

/-! ## The preamble -/

/-- A feature that shows by its words alone is found exactly when one of them is mentioned. -/
theorem Shader.mem_features_iff_mentions {shader : Shader} {output : Option Struct}
    {feature : Feature} (byWords : feature ≠ .scalarSwizzle ∧ feature ≠ .multipleTargets) :
    feature ∈ shader.features output ↔ shader.Mentions feature.words := by
  rw [shader.mem_features, Feature.shows_iff]
  simp only [byWords.1, byWords.2, false_and, or_false]
  rfl

/-- A legacy desktop fragment enables the extension for levels exactly when sampling at a level or
by gradients is among its features. -/
theorem Profile.lodExtension_mem_preamble_iff {profile : Profile} {features : Features}
    (isFragment : profile.isFragment = true)
    (legacy : profile.dialect = .glsl120 ∨ profile.dialect = .glsl130) :
    lodExtension ∈ profile.preamble features ↔ .texLod ∈ features ∨ .texGrad ∈ features := by
  have desktop : profile.isMobile = false := by
    rw [← profile.isMobile_dialect]
    rcases legacy with written | written <;> rw [written] <;> rfl
  rcases legacy with written | written <;>
    simp [preamble, dialectLines, linesIf, written, isFragment, desktop, blankPrecisions,
      closingLines, Dialect.directive, lodExtension]

/-! ## Calls in the code -/

/-- No type is named like a function that samples at a level. -/
theorem Ty.glslName_ne_levelFunction {function : String} (sampling : function ∈ levelFunctions)
    (ty : Ty) : .word function ≠ ty.glslName := by
  have spelled (base : BaseType) : base.spelling ∉ levelFunctions := by
    unfold BaseType.spelling
    split <;> decide
  unfold glslName
  split
  · split
    · exact Glsl.Name.noConfusion
    · rintro ⟨⟩
      exact absurd sampling (by decide)
  · rintro ⟨⟩
    exact spelled ty.base sampling

/-- No semantic stands for a function that samples at a level. -/
theorem builtIn?_ne_levelFunction {semantic function : String}
    (sampling : function ∈ levelFunctions) : builtIn? semantic ≠ some function := by
  have table : ∀ entry ∈ builtInSemantics, entry.2 ∉ levelFunctions := by decide
  intro named
  obtain ⟨entry, found, rfl⟩ := Option.map_eq_some_iff.1 named
  exact table entry (List.mem_of_find?_eq_some found) sampling

/-- A callee is renamed to a function that samples at a level only if it samples a plane or a cube
at one. None is renamed to the function for volumes. -/
theorem alike_of_calleeName {profile : Profile} {callee function : String}
    (sampling : function ∈ levelFunctions) (named : .word function = calleeName profile callee) :
    function ≠ "texture3DLod" ∧ ∃ word ∈ Feature.texLod.words, alike word callee = true := by
  have table : ∀ entry ∈ intrinsics, ∀ function ∈ entry.2.words, function ∈ levelFunctions →
      function ≠ "texture3DLod" ∧ entry.1 ∈ Feature.texLod.words := by
    decide +kernel
  unfold calleeName at named
  cases recognised : intrinsic? callee with
  | none => simp [recognised] at named
  | some intrinsic =>
    obtain ⟨entry, found, rfl⟩ := Option.map_eq_some_iff.1 recognised
    have matched := List.find?_some found
    rw [recognised] at named
    rcases entry.2.name_eq profile with ⟨word, written, same⟩ | ⟨which, same⟩
    · obtain rfl := Glsl.Name.word.inj (named.trans same)
      obtain ⟨noVolume, sampled⟩ :=
        table entry (List.mem_of_find?_eq_some found) function written sampling
      exact ⟨noVolume, entry.1, sampled, matched⟩
    · cases named.trans same

/-- An expression writes the name of a function that samples at a level only as a call that is
renamed to it. -/
theorem Expr.Writes.levelCall {c : Context} {e : Expr} {function : String}
    (sampling : function ∈ levelFunctions) (written : e.Writes c (.word function)) :
    function ≠ "texture3DLod" ∧
      ∃ callee ∈ e.tokens, ∃ word ∈ Feature.texLod.words, alike word callee = true := by
  generalize named : Glsl.Name.word function = name at written
  cases written with
  | @bound _ _ _ _ declared binding _ _ _ binds own =>
    subst named
    cases binding with
    | builtIn variableName =>
      obtain ⟨semantic, bound⟩ := Field.builtIn?_of_binding? binds
      obtain rfl := Glsl.Name.word.inj (List.mem_singleton.1 own)
      exact absurd bound (builtIn?_ne_levelFunction sampling)
    | _ => simp [Context.boundField, Glsl.Term.names, Context.colorName] at own
  | callee callee arguments parameters ty =>
    obtain ⟨noVolume, sampled⟩ := alike_of_calleeName sampling named
    exact ⟨noVolume, callee, List.mem_cons_self, sampled⟩
  | @saturation _ word _ _ _ bound =>
    obtain rfl := Glsl.Name.word.inj named
    have table : ∀ word ∈ ["clamp", "0.0", "1.0"], word ∉ levelFunctions := by decide
    exact absurd sampling (table function bound)
  | construct arguments ty => exact absurd named (ty.glslName_ne_levelFunction sampling)
  | cast operand ty => exact absurd named (ty.glslName_ne_levelFunction sampling)
  | identifier | texture | repeated | selected | read => cases named

/-- The code calls a function that samples at a level only where the shader mentions a built-in
function that is renamed to one. -/
theorem Context.mentions_of_levelCall {c : Context} (listed : c.EntryListed) {function : String}
    (sampling : function ∈ levelFunctions) {term : Glsl.Term} (inCode : term ∈ c.program.terms)
    (called : .word function ∈ term.names) :
    function ≠ "texture3DLod" ∧ c.shader.Mentions Feature.texLod.words := by
  rcases mem_names_terms (List.mem_flatMap.2 ⟨term, inCode, called⟩) with
    ⟨site, rendered, own⟩ | ⟨place, stored, own⟩
  · rcases Site.writes_of_mem_head own with ⟨target, -, same⟩ | written
    · exact absurd same (target.glslName_ne_levelFunction sampling)
    · obtain ⟨noVolume, callee, used, named⟩ := written.levelCall sampling
      have walked := rendered_walked listed site rendered
      exact ⟨noVolume, callee, Shader.tokens_of_mem_walk walked used, named⟩
  · rcases returnVariable?_eq_some stored with ⟨semantic, variableName, named, rfl⟩ | ⟨slot, rfl⟩
    · obtain rfl := Glsl.Name.word.inj (List.mem_singleton.1 own)
      exact absurd named (builtIn?_ne_levelFunction sampling)
    · simp [Glsl.Term.names, colorName] at own

/-! ## Calls in helper functions -/

/-- The characters of a token are among those of the text. -/
theorem HasToken.subset {text word : String} (token : HasToken text word) :
    word.toList ⊆ text.toList := by
  obtain ⟨front, back, split, -, -⟩ := token
  rw [split]
  exact List.subset_append_of_subset_right _ (List.subset_append_left _ _)

/-- The body of the helper function that samples a volume at a level. -/
theorem hasToken_volumeBody_iff {function : String} (sampling : function ∈ levelFunctions) :
    HasToken "return texture3DLod(s, t.xyz, t.w);" function ↔ function = "texture3DLod" := by
  constructor
  · intro token
    have table : ∀ function ∈ levelFunctions,
        function.toList ⊆ "return texture3DLod(s, t.xyz, t.w);".toList →
          function = "texture3DLod" := by
      decide
    exact table function sampling token.subset
  · rintro rfl
    refine ⟨"return ".toList, "(s, t.xyz, t.w);".toList, rfl, fun ch last => ?_,
      fun ch first => ?_⟩
    · obtain rfl := Option.some.inj last
      rfl
    · obtain rfl := Option.some.inj first
      rfl

/-- Of the helper functions in a fragment of the legacy desktop dialects, the one that samples a
volume at a level calls a function for that, and no other calls any. -/
theorem Feature.levelCall_iff {profile : Profile} (fragment : profile.stage = .fragment)
    (legacy : profile.dialect = .glsl120 ∨ profile.dialect = .glsl130) {feature : Feature}
    {function : String} (sampling : function ∈ levelFunctions) :
    (∃ overload ∈ feature.overloads profile, ∃ statement ∈ overload.body,
        HasToken statement function) ↔
      feature = .volumeLod ∧ function = "texture3DLod" := by
  -- The capital letter of the level stands in no other body.
  have capital : ∀ function ∈ levelFunctions, 'L' ∈ function.toList := by decide
  have bodies : ∀ target ∈ [Dialect.glsl120.fullest, Dialect.glsl130.fullest],
      (∀ feature ∈ Feature.all, feature ≠ .volumeLod →
        ∀ overload ∈ feature.overloads target, ∀ statement ∈ overload.body,
          'L' ∉ statement.toList) ∧
      (Feature.volumeLod.overloads target).map Overload.body =
        [["return texture3DLod(s, t.xyz, t.w);"]] := by
    decide +kernel
  obtain ⟨target, listed, same⟩ :
      ∃ target ∈ [Dialect.glsl120.fullest, Dialect.glsl130.fullest],
        profile.SameDialect target := by
    rcases legacy with written | written
    · exact ⟨Dialect.glsl120.fullest, by simp, fragment, written⟩
    · exact ⟨Dialect.glsl130.fullest, by simp, fragment, written⟩
  obtain ⟨others, volume⟩ := bodies target listed
  rw [Feature.overloads_congr same]
  constructor
  · rintro ⟨overload, defined, statement, inBody, token⟩
    have isVolume : feature = .volumeLod := by
      by_contra other
      exact others feature feature.mem_all other overload defined statement inBody
        (token.subset (capital function sampling))
    subst isVolume
    have body := List.mem_map_of_mem (f := Overload.body) defined
    rw [volume, List.mem_singleton] at body
    rw [body, List.mem_singleton] at inBody
    subst inBody
    exact ⟨rfl, (hasToken_volumeBody_iff sampling).1 token⟩
  · rintro ⟨rfl, isVolume⟩
    have written := List.mem_singleton_self ["return texture3DLod(s, t.xyz, t.w);"]
    rw [← volume] at written
    obtain ⟨overload, defined, body⟩ := List.mem_map.1 written
    exact ⟨overload, defined, _, by rw [body]; exact List.mem_singleton_self _,
      (hasToken_volumeBody_iff sampling).2 isVolume⟩

/-- A helper function calls one that samples at a level exactly when a volume is sampled so. -/
theorem Features.levelCall_iff {profile : Profile} (fragment : profile.stage = .fragment)
    (legacy : profile.dialect = .glsl120 ∨ profile.dialect = .glsl130) {features : Features}
    {function : String} (sampling : function ∈ levelFunctions) :
    (∃ group ∈ features.helpers profile, ∃ overload ∈ group, ∃ statement ∈ overload.body,
        HasToken statement function) ↔
      .volumeLod ∈ features ∧ function = "texture3DLod" := by
  constructor
  · rintro ⟨group, grouped, called⟩
    obtain ⟨feature, shown, rfl⟩ := List.mem_map.1 grouped
    obtain ⟨rfl, same⟩ := (Feature.levelCall_iff fragment legacy sampling).1 called
    exact ⟨by simpa using shown, same⟩
  · rintro ⟨shown, same⟩
    have defined : Helper.volumeLod.feature? = some .volumeLod := rfl
    exact ⟨_, overloads_mem_helpers defined shown,
      (Feature.levelCall_iff fragment legacy sampling).2 ⟨rfl, same⟩⟩

/-- A call of a function that samples at a level comes from a mention of a built-in function that is
renamed to it, or is the one for volumes in a helper function. -/
theorem Context.callsFunction_levelFunction {shader : Shader} {profile : Profile}
    {entry : Function} {entryName function : String}
    (found : shader.function? entryName = some entry) (fragment : profile.stage = .fragment)
    (legacy : profile.dialect = .glsl120 ∨ profile.dialect = .glsl130)
    (sampling : function ∈ levelFunctions)
    (called : (ofEntry shader profile entry).program.CallsFunction function) :
    function ≠ "texture3DLod" ∧ shader.Mentions Feature.texLod.words ∨
      function = "texture3DLod" ∧ shader.Mentions Feature.volumeLod.words := by
  rcases called with ⟨term, inCode, called⟩ | called
  · exact Or.inl (mentions_of_levelCall (entryListed_ofEntry found) sampling inCode called)
  · obtain ⟨shown, isVolume⟩ := (Features.levelCall_iff fragment legacy sampling).1 called
    exact Or.inr ⟨isVolume, (Shader.mem_features_iff_mentions (by decide)).1 shown⟩

/-! ## Generated texts -/

/-- In the fragment texts of the legacy desktop dialects, the preamble enables the extension exactly
when the shader mentions a built-in function that samples a plane or a cube at a level or a plane by
gradient. It does so wherever a function for planes or cubes is called. The one for volumes is
called exactly when the shader mentions the built-in function that samples them at a level, and that
alone does not enable the extension: so every function that samples at a level is enabled where it
is called exactly when a shader that mentions this one mentions one of the others as well. -/
theorem level_sampling_enabled_iff {shader : Shader} {profile : Profile} {entryName : String}
    {output : Output} (generated : generate shader profile entryName = .ok output)
    (fragment : profile.stage = .fragment)
    (legacy : profile.dialect = .glsl120 ∨ profile.dialect = .glsl130) :
    ∃ entry names, Generated shader profile entryName output entry names ∧
      let program := (Context.ofEntry shader profile entry).program
      let Enabled : Prop := Profile.lodExtension ∈ program.preamble
      (∃ rest, output.text = Line.renderAll (program.preamble.map (Line.mk 0) ++ rest)) ∧
      (Enabled ↔ shader.Mentions ["tex2Dlod", "texCUBElod", "tex2Dgrad"]) ∧
      (∀ function ∈ ["texture2DLod", "textureCubeLod"],
        program.CallsFunction function → Enabled) ∧
      (program.CallsFunction "texture3DLod" ↔ shader.Mentions ["tex3Dlod"]) ∧
      ((∀ function ∈ levelFunctions, program.CallsFunction function → Enabled) ↔
        (shader.Mentions ["tex3Dlod"] →
          shader.Mentions ["tex2Dlod", "texCUBElod", "tex2Dgrad"])) := by
  obtain ⟨entry, names, run⟩ := generate_eq_ok_iff.1 generated
  refine ⟨entry, names, run, ?_⟩
  intro program Enabled
  have isFragment : profile.isFragment = true := by simp [Profile.isFragment, fragment]
  have words : ["tex2Dlod", "texCUBElod", "tex2Dgrad"] =
      Feature.texLod.words ++ Feature.texGrad.words := rfl
  have enabled : Enabled ↔ shader.Mentions ["tex2Dlod", "texCUBElod", "tex2Dgrad"] := by
    rw [words, Shader.mentions_append]
    refine (Profile.lodExtension_mem_preamble_iff isFragment legacy).trans (or_congr ?_ ?_)
    · exact Shader.mem_features_iff_mentions (by decide)
    · exact Shader.mem_features_iff_mentions (by decide)
  have source {function : String} (sampling : function ∈ levelFunctions)
      (called : program.CallsFunction function) :=
    Context.callsFunction_levelFunction run.found fragment legacy sampling called
  have planes {function : String} (sampling : function ∈ levelFunctions)
      (noVolume : function ≠ "texture3DLod") (called : program.CallsFunction function) :
      Enabled := by
    rcases source sampling called with ⟨-, mentioned⟩ | ⟨isVolume, -⟩
    · rw [enabled, words]
      exact Shader.mentions_append.2 (Or.inl mentioned)
    · exact absurd isVolume noVolume
  have volumes : program.CallsFunction "texture3DLod" ↔ shader.Mentions ["tex3Dlod"] := by
    constructor
    · intro called
      rcases source (by decide) called with ⟨noVolume, -⟩ | ⟨-, mentioned⟩
      · exact absurd rfl noVolume
      · exact mentioned
    · intro mentioned
      have shown : .volumeLod ∈ (Context.ofEntry shader profile entry).features :=
        (Shader.mem_features_iff_mentions (by decide)).2 mentioned
      exact Or.inr ((Features.levelCall_iff fragment legacy (by decide)).2 ⟨shown, rfl⟩)
  refine ⟨?_, enabled, fun function listed => ?_, volumes, fun covered mentioned => ?_,
    fun paired function sampling called => ?_⟩
  · refine ⟨program.interfaceLines names ++
      program.helpers.flatMap (Overload.groupLines names) ++ program.codeLines names, ?_⟩
    rw [run.text, Glsl.Program.text, Glsl.Program.lines_eq, Glsl.Program.frontLines]
    simp only [List.append_assoc, program]
  · have apart : ∀ function ∈ ["texture2DLod", "textureCubeLod"],
        function ∈ levelFunctions ∧ function ≠ "texture3DLod" := by
      decide
    exact planes (apart function listed).1 (apart function listed).2
  · exact enabled.1 (covered _ (by decide) (volumes.2 mentioned))
  · by_cases isVolume : function = "texture3DLod"
    · subst isVolume
      exact enabled.2 (paired (volumes.1 called))
    · exact planes sampling isVolume called

/-- A fragment entry that returns what it samples from a volume at a level, behind other
statements. -/
def sampledFog (before : List Statement) : Shader :=
  let vec4 := Ty.ofBase (.vector (.float .full) .four)
  let fog : Expr := .identifier "fog" (Ty.ofBase (.sampler .volume))
  [.declare ⟨"fog", Ty.ofBase (.sampler .volume), some "s0", none, []⟩,
  .declare ⟨"sky", Ty.ofBase (.sampler .cube), some "s1", none, []⟩,
  .declare ⟨"spot", vec4, none, none, []⟩,
  .function ⟨"main", vec4, some "SV_TARGET", []⟩
    (before ++ [.result (some (.ofCall "tex3Dlod" [fog, .identifier "spot" vec4] vec4))])]

/-- The same behind a sample of a cube at a level, which enables the extension for both. -/
theorem sampledFog_enabled :
    let vec4 := Ty.ofBase (.vector (.float .full) .four)
    let sky : Expr := .identifier "sky" (Ty.ofBase (.sampler .cube))
    let shader := sampledFog
      [.evaluate (.ofCall "TEXCUBELOD" [sky, .identifier "spot" vec4] vec4)]
    ∃ output entry, generate shader ⟨.desktopMac, .modern, .fragment⟩ "main" = .ok output ∧
      let program := (Context.ofEntry shader ⟨.desktopMac, .modern, .fragment⟩ entry).program
      shader.function? "main" = some entry ∧ program.CallsFunction "texture3DLod" ∧
        Profile.lodExtension ∈ program.preamble := by
  intro vec4 sky shader
  have generated : generate shader ⟨.desktopMac, .modern, .fragment⟩ "main" = .ok _ := rfl
  obtain ⟨entry, names, run, -, enabled, -, volumes, -⟩ :=
    level_sampling_enabled_iff generated rfl (Or.inl rfl)
  have called : shader.Mentions ["tex3Dlod"] :=
    ⟨"tex3Dlod", by decide +kernel, "tex3Dlod", by simp, by decide +kernel⟩
  have others : shader.Mentions ["tex2Dlod", "texCUBElod", "tex2Dgrad"] :=
    ⟨"TEXCUBELOD", by decide +kernel, "texCUBElod", by simp, by decide +kernel⟩
  exact ⟨_, entry, generated, run.found, volumes.2 called, enabled.2 others⟩

/-- By itself the sample of the volume calls the function of the extension without enabling it. -/
theorem sampledFog_not_enabled :
    let profile : Profile := ⟨.desktopMac, .legacy, .fragment⟩
    Profile.lodExtension ∉ profile.preamble [.volumeLod] ∧
      generate (sampledFog []) profile "main" =
        .ok ⟨Line.renderAll ((profile.preamble [.volumeLod]).map (Line.mk 0) ++
          [⟨0, "vec4 tex3Dlod0(sampler3D s, vec4 t) \x7b return texture3DLod(s, t.xyz, t.w); \x7d"⟩,
            .blank, ⟨0, "uniform sampler3D FragmentTexture0;"⟩,
            ⟨0, "uniform samplerCube FragmentTexture1;"⟩, ⟨0, "uniform vec4 spot;"⟩,
            ⟨0, "void main()"⟩, ⟨0, "\x7b"⟩,
            ⟨1, "gl_FragColor = tex3Dlod0(FragmentTexture0, spot);"⟩, ⟨1, "return;"⟩,
            ⟨0, "\x7d"⟩]), .glsl120, [.volumeLod]⟩ := by
  exact ⟨by decide +kernel, rfl⟩

end GlslText
