import GlslText.Proofs.Capture

/-!
# Global names of the shader and of the text

A text has global names of its own: `main`, the variables of the interface, the texture units, the
colour outputs and the functions that built-in functions are written as. Only helper functions and
reserved words get an alias that is no token, all other names of the text are fixed. So a global
name of the shader meets one of them exactly where the shader spells it that way and the name stands
as it is; an alias of a reserved word never does, and no name meets a helper function.
-/

namespace GlslText

/-! ## Global names -/

/-- The names that a statement declares where it stands. -/
def Glsl.Stmt.declares : Glsl.Stmt → List Glsl.Name
  | declare _ declarator => [declarator.name]
  | sampler _ _ name => [name]
  | define name _ => [name]
  | struct name _ => [name]
  | function prototype _ => [prototype.name]
  | _ => []

/-- The names that the global statements of a program declare. -/
def Glsl.Program.globalNames (program : Glsl.Program) : List Glsl.Name :=
  program.globals.flatMap Glsl.Stmt.declares

/-- The global names that a text introduces of its own. -/
inductive Context.Introduces (c : Context) : Glsl.Name → Prop where
  | main : Introduces c (.word "main")
  | interface {var : InterfaceVariable} (declared : var ∈ c.program.declared) :
      Introduces c var.name
  | sampler {name : Glsl.Name} (declared : name ∈ c.program.globalNames)
      (own : name.copied? = none) : Introduces c name
  | output {output : ColorOutput} (declared : output ∈ c.program.outputs) :
      Introduces c (.color .modern true output.location)
  | intrinsic {site : Site} {callee : String} {arguments : List Expr} {parameters : List Ty}
      {ty : Ty} {found : Intrinsic} (rendered : site ∈ c.rendered)
      (called : site.expr = .call callee arguments parameters ty)
      (recognised : intrinsic? callee = some found) : Introduces c (found.name c.profile)

section Declared

variable {shader : Shader} {c : Context} {name : Glsl.Name}

/-- A name that stands for a token, as it is or sanitized. -/
def Glsl.Name.IsToken (shader : Shader) (name : Glsl.Name) : Prop :=
  ∃ word ∈ shader.tokens, name = .source word ∨ name = .verbatim word

/-- What a declaration declares is a token of the shader or, for a sampler, a texture unit. -/
theorem Declaration.declares_lower {scope : Scope} {declaration : Declaration}
    (belongs : declaration.BelongsTo shader)
    (declared : name ∈ (declaration.lower c scope).flatMap Glsl.Stmt.declares) :
    name.IsToken shader ∨ ∃ unit, name = .texture c.profile.stage unit := by
  have own {text : Glsl.Name} (same : text ∈ [Glsl.Name.source declaration.name]) :
      text.IsToken shader :=
    ⟨_, belongs.name, Or.inl (List.mem_singleton.1 same)⟩
  unfold lower lowerGlobal at declared
  split at declared
  · cases declared
  split at declared
  · split at declared
    · split at declared
      · exact Or.inl (own declared)
      · cases declared
    · split at declared
      · split at declared
        · exact Or.inr ⟨_, List.mem_singleton.1 declared⟩
        · cases declared
      · exact Or.inl (own declared)
  · exact Or.inl (own declared)

/-- What the content of a buffer declares is a token of the shader. -/
theorem Declaration.declares_lowerBuffer {content : Declaration}
    (belongs : content.BelongsTo shader)
    (declared : name ∈ (content.lowerBuffer c).flatMap Glsl.Stmt.declares) :
    name.IsToken shader := by
  unfold lowerBuffer at declared
  split at declared
  · exact ⟨_, belongs.name, Or.inl (List.mem_singleton.1 declared)⟩
  · rename_i register found
    have registered : register ∈ shader.tokens := by
      apply belongs.declared
      unfold bigArrayRegister? at found
      split at found
      · simp [tokens, found]
      · cases found
    simp only [Glsl.Stmt.declares, List.flatMap_cons, List.flatMap_nil, List.append_nil,
      List.cons_append, List.nil_append, List.mem_cons, List.not_mem_nil, or_false] at declared
    rcases declared with rfl | rfl
    · exact ⟨_, registered, Or.inr rfl⟩
    · exact ⟨_, belongs.name, Or.inl rfl⟩

/-- A statement of the shader declares names that stand for tokens, and texture units. -/
theorem Statement.declares_lower {scope : Scope} {s : Statement} (belongs : s.BelongsTo shader)
    (declared : name ∈ (s.lower c scope).flatMap Glsl.Stmt.declares) :
    name.IsToken shader ∨ ∃ unit, name = .texture c.profile.stage unit := by
  cases s with
  | declare declaration => exact Declaration.declares_lower belongs.declaration declared
  | struct definition =>
    simp only [lower, Struct.lower] at declared
    split at declared
    · refine Or.inl ⟨_, belongs.declared List.mem_cons_self, Or.inl ?_⟩
      exact List.mem_singleton.1 declared
    · cases declared
  | buffer word content =>
    exact Or.inl (Declaration.declares_lowerBuffer belongs.buffer declared)
  | function signature body =>
    simp only [lower] at declared
    split at declared
    · cases declared
    · refine Or.inl ⟨_, belongs.declared List.mem_cons_self, Or.inl ?_⟩
      exact List.mem_singleton.1 declared
  | branch condition whenTrue whenFalse => cases whenFalse <;> cases declared
  | result value =>
    cases value with
    | none => cases declared
    | some value =>
      simp only [lower, Expr.lowerResult] at declared
      split at declared
      · split at declared
        · cases declared
        · split at declared <;> cases declared
      · cases declared
  | discard =>
    simp only [lower] at declared
    split at declared <;> cases declared
  | _ => cases declared

/-- The global names of a program stand for tokens or are texture units. -/
theorem Context.mem_globalNames (declared : name ∈ c.program.globalNames) :
    name.IsToken c.shader ∨ ∃ unit, name = .texture c.profile.stage unit := by
  rw [Glsl.Program.globalNames, program, Statement.lowerAll_eq_flatMap, List.flatMap_assoc]
    at declared
  obtain ⟨s, listed, inside⟩ := List.mem_flatMap.1 declared
  exact Statement.declares_lower (Shader.belongsTo_of_mem listed) inside

end Declared

/-! ## Aliases of reserved words -/

/-- A numbered form starts with its base, so it is no text that starts otherwise. -/
theorem numbered_ne {base start text : String} (opens : start.toList <+: text.toList)
    (apart : base.toList.isPrefixOf start.toList = false ∧
      start.toList.isPrefixOf base.toList = false) (n : Nat) : numbered base n ≠ text := by
  rintro rfl
  have opensBase : base.toList <+: (numbered base n).toList :=
    ⟨(toString n).toList, by simp [numbered]⟩
  rcases List.prefix_or_prefix_of_prefix opensBase opens with longer | shorter
  · exact absurd (List.isPrefixOf_iff_prefix.2 longer) (by simp [apart.1])
  · exact absurd (List.isPrefixOf_iff_prefix.2 shorter) (by simp [apart.2])

/-- A numbered form is longer than its base. -/
theorem numbered_ne_base (base : String) (n : Nat) : numbered base n ≠ base := by
  intro same
  have length := congrArg String.length same
  simp [numbered] at length

/-- A numbered form of a reserved word is no word that a built-in function is written as. -/
theorem numbered_ne_word {base callee word : String} {found : Intrinsic}
    (reserved : base ∈ reservedWords) (recognised : intrinsic? callee = some found)
    (written : word ∈ found.words) (n : Nat) : numbered base n ≠ word := by
  have apart : ∀ base ∈ reservedWords, ∀ entry ∈ intrinsics, ∀ word ∈ entry.2.words,
      base = word ∨ base.toList.isPrefixOf word.toList = false ∧
        word.toList.isPrefixOf base.toList = false := by
    decide +kernel
  obtain ⟨entry, listed, rfl⟩ := Option.map_eq_some_iff.1 recognised
  rcases apart base reserved entry (List.mem_of_find?_eq_some listed) word written with
    rfl | apart
  · exact numbered_ne_base base n
  · exact numbered_ne (List.prefix_refl _) apart n

/-- A numbered form of a reserved word is no name of a helper function. -/
theorem Renaming.numbered_ne_helper {tokens : List String} {names : Renaming}
    (chosen : ofTokens tokens = .ok names) {base : String} (reserved : base ∈ reservedWords)
    (n : Nat) (which : Helper) : numbered base n ≠ names.helper which := by
  have apart : ∀ base ∈ reservedWords, base.toList.isPrefixOf which.base.toList = false ∧
      which.base.toList.isPrefixOf base.toList = false := by
    cases which <;> decide +kernel
  obtain ⟨m, same⟩ := (aliasOf_mem chosen which.base_mem_aliasBases).2
  rw [helper, same]
  exact numbered_ne ⟨(toString m).toList, by simp [numbered]⟩ (apart base reserved) n

/-- The name of a declared variable of the interface is that of a field. -/
theorem Interface.name_of_mem_declared {interface : Interface} {profile : Profile}
    {var : InterfaceVariable} (declared : var ∈ interface.declared profile) :
    ∃ field, var.name = .vertexInput field ∨ var.name = .varying field := by
  obtain ⟨-, -, field, -, taken | returned⟩ := mem_declared declared
  · refine ⟨field.name, ?_⟩
    unfold Field.inputVariable? at taken
    split at taken
    · obtain rfl := Option.some.inj taken
      exact Or.inl rfl
    · obtain rfl := Option.some.inj taken
      exact Or.inr rfl
    · cases taken
  · refine ⟨field.name, Or.inr ?_⟩
    unfold Field.outputVariable? at returned
    split at returned
    · obtain rfl := Option.some.inj returned
      rfl
    · cases returned

/-- What the names of a text start with: `main`, and the fixed parts of the others. -/
def introducedStarts : List String :=
  ["main", "attr_", "var_", "Vertex", "Fragment", "out_FragColor"]

namespace Context.Introduces

variable {c : Context} {names : Renaming} {name : Glsl.Name}

/-- No name that a text introduces is a numbered form of a reserved word. -/
theorem numbered_ne_text {tokens : List String} (chosen : Renaming.ofTokens tokens = .ok names)
    (introduced : c.Introduces name) {base : String} (reserved : base ∈ reservedWords) (n : Nat) :
    numbered base n ≠ name.text names := by
  have apart : ∀ start ∈ introducedStarts, ∀ base ∈ reservedWords,
      base.toList.isPrefixOf start.toList = false ∧
        start.toList.isPrefixOf base.toList = false := by
    decide +kernel
  have starts {start : String} (rest : String) (listed : start ∈ introducedStarts) :
      numbered base n ≠ start ++ rest :=
    numbered_ne ⟨rest.toList, by simp⟩ (apart start listed base reserved) n
  cases introduced with
  | main => exact numbered_ne (List.prefix_refl _) (apart "main" (by decide) base reserved) n
  | interface declared =>
    obtain ⟨field, isInput | isVarying⟩ := Interface.name_of_mem_declared declared
    · rw [isInput]
      exact starts field (by decide)
    · rw [isVarying]
      exact starts field (by decide)
  | sampler declared own =>
    rcases mem_globalNames declared with ⟨word, -, rfl | rfl⟩ | ⟨unit, rfl⟩
    · cases own
    · cases own
    · rw [Glsl.Name.text, String.append_assoc]
      cases c.profile.stage
      · exact starts _ (by decide)
      · exact starts _ (by decide)
  | @output output declared => exact starts (toString output.location) (by decide)
  | @intrinsic site callee arguments parameters ty found rendered called recognised =>
    rcases found.name_eq c.profile with ⟨word, written, named⟩ | ⟨which, named⟩
    · rw [named]
      exact numbered_ne_word reserved recognised written n
    · rw [named]
      exact Renaming.numbered_ne_helper chosen reserved n which

end Context.Introduces

/-- A name that stands for a token is written as that token, or else as a numbered form of it where
it is reserved. -/
theorem Glsl.Name.text_of_copied {tokens : List String} {names : Renaming}
    (chosen : Renaming.ofTokens tokens = .ok names) {name : Glsl.Name} {word : String}
    (kind : name = .source word ∨ name = .verbatim word) :
    if name = .source word ∧ word ∈ reservedWords then ∃ n, name.text names = numbered word n
    else name.text names = word := by
  rcases kind with rfl | rfl
  · by_cases reserved : word ∈ reservedWords
    · rw [if_pos ⟨rfl, reserved⟩, text, Renaming.source_of_reserved reserved]
      exact (Renaming.aliasOf_mem chosen (List.mem_append_right _ reserved)).2
    · rw [if_neg fun both => reserved both.2]
      exact names.source_of_not_reserved word reserved
  · simp [text]

/-- In every generated text, a global name that is copied from the shader stands for a token. It is
never written like a helper function. It is written like another name that the text introduces
exactly when the token is spelled like that name and is no reserved word that gives way to its
alias. -/
theorem names_collide_iff {shader : Shader} {profile : Profile} {entryName : String}
    {output : Output} {entry : Function}
    (generated : generate shader profile entryName = .ok output)
    (found : shader.function? entryName = some entry) :
    ∃ names, Renaming.ofTokens shader.tokens = .ok names ∧
      let c := Context.ofEntry shader profile entry
      output.text = c.program.text names ∧
      ∀ copied ∈ c.program.globalNames, ∀ word, copied.copied? = some word →
        word ∈ shader.tokens ∧ (∀ which, copied.text names ≠ names.helper which) ∧
        ∀ name, c.Introduces name →
          (copied.text names = name.text names ↔
            word = name.text names ∧ ¬(copied = .source word ∧ word ∈ reservedWords)) := by
  obtain ⟨other, names, run⟩ := generate_eq_ok_iff.1 generated
  obtain rfl := Option.some.inj (found.symm.trans run.found)
  refine ⟨names, run.chosen, ?_⟩
  intro c
  refine ⟨run.text, fun copied declared word copies => ?_⟩
  have token : word ∈ shader.tokens ∧ (copied = .source word ∨ copied = .verbatim word) := by
    rcases Context.mem_globalNames declared with ⟨token, listed, rfl | rfl⟩ | ⟨unit, rfl⟩
    · obtain rfl := Option.some.inj copies
      exact ⟨listed, Or.inl rfl⟩
    · obtain rfl := Option.some.inj copies
      exact ⟨listed, Or.inr rfl⟩
    · cases copies
  obtain ⟨listed, kind⟩ := token
  have written := Glsl.Name.text_of_copied run.chosen kind
  by_cases renamed : copied = .source word ∧ word ∈ reservedWords
  · -- An alias is apart from the helper functions and from all that the text introduces.
    rw [if_pos renamed] at written
    obtain ⟨n, isAlias⟩ := written
    refine ⟨listed, fun which => ?_, fun name introduced => ?_⟩
    · rw [isAlias]
      exact Renaming.numbered_ne_helper run.chosen renamed.2 n which
    · rw [isAlias]
      have apart := introduced.numbered_ne_text run.chosen renamed.2 n
      exact ⟨fun same => absurd same apart, fun kept => absurd renamed kept.2⟩
  · -- A token is no alias, and meets what is spelled like it.
    rw [if_neg renamed] at written
    refine ⟨listed, fun which same => ?_, fun name introduced => ?_⟩
    · have isAlias := Renaming.helper_mem_aliases run.chosen which
      rw [← same, written] at isAlias
      exact Renaming.notMem_tokens_of_mem_aliases run.chosen isAlias listed
    · rw [written]
      exact ⟨fun same => ⟨same, renamed⟩, fun kept => kept.1⟩

/-- An entry that interpolates between numbers. -/
def interpolatingEntry : Function :=
  let scalar := Ty.ofBase (.vector (.float .full) .one)
  let one : Expr := .literal (.float 0x3f800000) scalar
  ⟨⟨"shade", Ty.ofBase .void, none, []⟩, [.evaluate (.ofCall "lerp" [one, one, one] scalar)]⟩

/-- The entry behind a function of the given name. -/
def contestedFunction (name : String) : Shader :=
  [.function ⟨name, Ty.ofBase .void, none, []⟩ [],
  .function interpolatingEntry.toSignature interpolatingEntry.body]

/-- A function named `mix` gets an alias, which is apart from the function that an interpolation is
written with. -/
theorem contestedFunction_apart :
    let c := Context.ofEntry (contestedFunction "mix") ⟨.mobileA, .legacy, .fragment⟩
      interpolatingEntry
    ∃ output names,
      generate (contestedFunction "mix") ⟨.mobileA, .legacy, .fragment⟩ "shade" = .ok output ∧
      output.text = c.program.text names ∧
      .source "mix" ∈ c.program.globalNames ∧ c.Introduces (.word "mix") ∧
      (Glsl.Name.source "mix").text names ≠ (Glsl.Name.word "mix").text names := by
  intro c
  have generated :
      generate (contestedFunction "mix") ⟨.mobileA, .legacy, .fragment⟩ "shade" = .ok _ := rfl
  have found : (contestedFunction "mix").function? "shade" = some interpolatingEntry := rfl
  have declared : .source "mix" ∈ c.program.globalNames := List.mem_cons_self
  have introduced : c.Introduces (.word "mix") := by
    have recognised : intrinsic? "lerp" = some .interpolation := by decide
    exact .intrinsic (List.mem_flatMap.2 ⟨_, List.mem_cons_self, Site.mem_parts_self _ _⟩) rfl
      recognised
  obtain ⟨names, -, text, copies⟩ := names_collide_iff generated found
  refine ⟨_, names, generated, text, declared, introduced, fun same => ?_⟩
  obtain ⟨-, kept⟩ := ((copies _ declared "mix" rfl).2.2 _ introduced).1 same
  exact kept ⟨rfl, by decide⟩

/-- Both functions of the text are called `main`. -/
theorem contestedFunction_collides :
    generate (contestedFunction "main") ⟨.desktopOther, .modern, .fragment⟩ "shade" =
      .ok ⟨Line.renderAll
        ((Profile.preamble ⟨.desktopOther, .modern, .fragment⟩ []).map (Line.mk 0) ++
          [⟨0, "void main() \x7b"⟩, ⟨0, "\x7d"⟩, .blank, ⟨0, "void main()"⟩, ⟨0, "\x7b"⟩,
            ⟨1, "mix(1.0, 1.0, 1.0);"⟩, ⟨0, "\x7d"⟩]),
        .glsl330, []⟩ := by
  decide +kernel

end GlslText
