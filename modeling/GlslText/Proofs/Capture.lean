import GlslText.Proofs.Aliases

/-!
# Aliases capture nothing

The strings that a text takes over from the shader are names of all kinds, types of inserted
casts, registers, and the fields behind the variables of the interface. All of them are tokens.
An alias is none, so it never meets a string that was taken over.
-/

namespace GlslText

/-- The string of the shader in a name. -/
def Glsl.Name.copied? : Glsl.Name → Option String
  | source name => some name
  | verbatim text => some text
  | vertexInput field => some field
  | varying field => some field
  | _ => none

/-- A name whose string is a token, or which is fixed whatever the shader. -/
structure Glsl.Name.Accounted (shader : Shader) (name : Glsl.Name) : Prop where
  copied : ∀ word, name.copied? = some word → word ∈ shader.tokens
  fixed : ∀ word, name = .word word → Glsl.LanguageWord word

namespace Glsl.Name

variable {shader : Shader}

/-- A word of the language is accounted for in every shader. -/
theorem Accounted.ofWord {text : String} (fixed : LanguageWord text) :
    (word text).Accounted shader :=
  ⟨by rintro _ ⟨⟩, by rintro _ ⟨⟩; exact fixed⟩

/-- A name that copies a token is accounted for. -/
theorem Accounted.ofToken {name : Glsl.Name} {token : String} (copied : name.copied? = some token)
    (listed : token ∈ shader.tokens) : name.Accounted shader := by
  refine ⟨fun word copies => ?_, ?_⟩
  · obtain rfl := Option.some.inj (copied.symm.trans copies)
    exact listed
  · rintro word rfl
    cases copied

/-- Helper functions, texture units and colour outputs take over no string. -/
theorem Accounted.ofNone {name : Glsl.Name} (uncopied : name.copied? = none)
    (noWord : ∀ text, name ≠ .word text) : name.Accounted shader := by
  refine ⟨fun word copies => ?_, fun word isWord => absurd isWord (noWord word)⟩
  rw [uncopied] at copies
  cases copies

/-- Every declared name is accounted for. -/
theorem Declared.accounted {name : Glsl.Name} (declared : name.Declared shader) :
    name.Accounted shader := by
  cases name with
  | word text => exact .ofWord declared
  | source name => exact .ofToken rfl declared
  | verbatim text => exact .ofToken rfl declared
  | texture stage unit => exact .ofNone rfl (by simp)
  | _ => exact absurd declared id

end Glsl.Name

/-! ## Names that sites write -/

/-- Every variable that a semantic stands for is a word of the language. -/
theorem builtIn?_languageWord {semantic variableName : String}
    (named : builtIn? semantic = some variableName) : Glsl.LanguageWord variableName := by
  obtain ⟨entry, found, rfl⟩ := Option.map_eq_some_iff.1 named
  exact .builtIn (List.mem_of_find?_eq_some found)

/-- The name of a callee is fixed by the language, a helper function or the callee itself. -/
theorem calleeName_accounted {shader : Shader} (profile : Profile) {callee : String}
    (listed : callee ∈ shader.tokens) : (calleeName profile callee).Accounted shader := by
  unfold calleeName
  cases recognised : intrinsic? callee with
  | none => exact .ofToken rfl listed
  | some intrinsic =>
    obtain ⟨⟨word, intrinsic⟩, found, rfl⟩ := Option.map_eq_some_iff.1 recognised
    have entered := List.mem_of_find?_eq_some found
    cases intrinsic with
    | helper which => exact .ofNone rfl (by simp [Intrinsic.name])
    | _ => exact .ofWord (.function profile entered rfl)

/-- A variable of the language is bound by a semantic that names it. -/
theorem Field.builtIn?_of_binding? {field : Field} {stage : Stage} {role : Role}
    {variableName : String} (binds : field.binding? stage role = some (.builtIn variableName)) :
    ∃ semantic, builtIn? semantic = some variableName := by
  have output : field.outputBinding = .builtIn variableName := by
    unfold Field.binding? at binds
    split at binds <;> simp_all
  unfold Field.outputBinding at output
  split at output
  · rename_i named
    obtain rfl := Binding.builtIn.inj output
    obtain ⟨semantic, -, named⟩ := Option.bind_eq_some_iff.1 named
    exact ⟨semantic, named⟩
  · split at output <;> cases output

/-- The variable of a field is fixed by the language or has the name of the field. -/
theorem Context.boundField_accounted {c : Context} {shader : Shader} {declared : Field}
    {role : Role} {binding : Binding} (listed : declared.name ∈ shader.tokens)
    (binds : declared.binding? c.profile.stage role = some binding) :
    ∀ written ∈ (c.boundField declared binding).names, written.Accounted shader := by
  intro written inside
  cases binding with
  | builtIn variableName =>
    obtain rfl := List.mem_singleton.1 inside
    obtain ⟨semantic, named⟩ := Field.builtIn?_of_binding? binds
    exact .ofWord (builtIn?_languageWord named)
  | vertexInput isWidened =>
    obtain rfl := List.mem_singleton.1 inside
    exact .ofToken rfl listed
  | varying =>
    obtain rfl := List.mem_singleton.1 inside
    exact .ofToken rfl listed
  | color slot =>
    obtain rfl := List.mem_singleton.1 inside
    exact .ofNone rfl (by simp [colorName])

/-- What an expression writes by itself is accounted for by the shader it is from, whatever the
context. -/
theorem Expr.Writes.accounted {c : Context} {shader : Shader} {e : Expr} {written : Glsl.Name}
    (writes : e.Writes c written) (walked : e ∈ shader.walk) : written.Accounted shader := by
  have used : e.tokens ⊆ shader.tokens := Shader.tokens_of_mem_walk walked
  have typed : e.ty.glslName.Accounted shader :=
    (Ty.glslName_declared (List.Subset.trans e.tokens_ty_subset used)).accounted
  cases writes with
  | identifier name ty => exact .ofToken rfl (used List.mem_cons_self)
  | texture name ty unit => exact .ofNone rfl (by simp)
  | @bound object field ty struct declared binding _ plays selected binds own =>
    have sameName : declared.name = field := by simpa using List.find?_some selected
    have listed : declared.name ∈ shader.tokens := sameName ▸ used List.mem_cons_self
    exact Context.boundField_accounted listed binds written own
  | repeated scalar repeats => exact .ofNone rfl (by simp)
  | selected object field ty => exact .ofToken rfl (used List.mem_cons_self)
  | callee callee arguments parameters ty =>
    exact calleeName_accounted c.profile (used List.mem_cons_self)
  | read target => exact .ofNone rfl (by simp)
  | saturation fixed =>
    simp only [List.mem_cons, List.not_mem_nil, or_false] at fixed
    rcases fixed with rfl | rfl | rfl
    · exact .ofWord .clamp
    · exact .ofWord .zero
    · exact .ofWord .one
  | construct arguments ty => exact typed
  | cast operand ty => exact typed

/-- Every name that a site writes by itself is accounted for. -/
theorem Site.head_accounted {c : Context} {shader : Shader} {site : Site}
    (belongs : site.BelongsTo shader) :
    ∀ written ∈ (site.head c).names, written.Accounted shader := by
  intro written inside
  rcases writes_of_mem_head inside with ⟨target, hinted, rfl⟩ | own
  · exact (Ty.glslName_declared (belongs.hinted target hinted)).accounted
  · exact own.accounted (belongs.walked site.expr.mem_walk_self)

/-! ## Names of the interface -/

namespace Shader

/-- The strings of a field of a declared structure are tokens of the shader. -/
theorem tokens_of_mem_fields {shader : Shader} {struct : Struct} {field : Field}
    (listed : Statement.struct struct ∈ shader) (declared : field ∈ struct.fields) :
    field.tokens ⊆ shader.tokens := by
  intro word used
  apply (belongsTo_of_mem listed).declared
  exact List.mem_cons_of_mem _ (List.mem_flatMap.2 ⟨field, declared, used⟩)

end Shader

/-- The structures of a stage are structures of the shader. -/
theorem Interface.listed_ofEntry {shader : Shader} {entry : Function} {struct : Struct}
    (plays : (ofEntry shader entry).input = some struct ∨
      (ofEntry shader entry).output = some struct) : Statement.struct struct ∈ shader := by
  rcases plays with taken | returned
  · obtain ⟨argument, -, taken⟩ := Option.bind_eq_some_iff.1 taken
    obtain ⟨name, -, found⟩ := Option.bind_eq_some_iff.1 taken
    exact (Shader.mem_of_struct? found).1
  · obtain ⟨name, -, found⟩ := Option.bind_eq_some_iff.1 returned
    exact (Shader.mem_of_struct? found).1

/-- The type of an interface variable is accounted for when it belongs to the shader. -/
theorem Ty.interfaceName_accounted {shader : Shader} {ty : Ty} (belongs : ty.BelongsTo shader) :
    ty.interfaceName.Accounted shader := by
  unfold interfaceName
  split
  · cases named : ty.name with
    | none => exact .ofWord (.type .void)
    | some name => exact .ofToken rfl (belongs (by simp [tokens, named]))
  · exact .ofWord (.type ty.base)

/-- The declaration of a field writes its type and its name. -/
theorem Field.variable_accounted {shader : Shader} {profile : Profile} {field : Field}
    {var : InterfaceVariable} (belongs : field.tokens ⊆ shader.tokens)
    (declared : field.inputVariable? profile = some var ∨
      field.outputVariable? profile = some var) :
    ∀ written ∈ [var.type, var.name], written.Accounted shader := by
  have named : field.name ∈ shader.tokens := belongs List.mem_cons_self
  have typed : field.ty.interfaceName.Accounted shader :=
    Ty.interfaceName_accounted fun word used => belongs (by simp [tokens, used])
  have carried (qualifier : Qualifier) :
      ∀ written ∈ [(field.varying profile qualifier).type, (field.varying profile qualifier).name],
        written.Accounted shader := by
    simp only [Field.varying, List.forall_mem_cons, List.not_mem_nil, false_implies, implies_true,
      and_true]
    exact ⟨typed, .ofToken rfl named⟩
  rcases declared with taken | returned
  · unfold inputVariable? at taken
    split at taken
    · rename_i isWidened _
      obtain rfl := Option.some.inj taken
      simp only [List.forall_mem_cons, List.not_mem_nil, false_implies, implies_true, and_true]
      refine ⟨?_, .ofToken rfl named⟩
      split
      · exact .ofWord (.type (.vector (.float .full) .four))
      · exact typed
    · obtain rfl := Option.some.inj taken
      exact carried profile.inputQualifier
    · cases taken
  · unfold outputVariable? at returned
    split at returned
    · obtain rfl := Option.some.inj returned
      exact carried profile.outputQualifier
    · cases returned

/-- A declared variable is the variable of a field of a stage structure. -/
theorem Interface.mem_declared {interface : Interface} {profile : Profile}
    {var : InterfaceVariable} (listed : var ∈ interface.declared profile) :
    ∃ struct, (interface.input = some struct ∨ interface.output = some struct) ∧
      ∃ field ∈ struct.fields,
        field.inputVariable? profile = some var ∨ field.outputVariable? profile = some var := by
  rcases mem_declared_iff.1 listed with
    ⟨struct, plays, field, member, made⟩ | ⟨-, struct, plays, field, member, made⟩
  · exact ⟨struct, Or.inl plays, field, member, Or.inl made⟩
  · exact ⟨struct, Or.inr plays, field, member, Or.inr made⟩

/-! ## The whole text -/

/-- All lines of a program read the aliases only through its names and the helper functions. -/
theorem Glsl.Program.lines_congr {left right : Renaming} {program : Glsl.Program}
    (agree : left.AgreeOn right program.names)
    (helpers : ∀ which, left.helper which = right.helper which) :
    program.lines left = program.lines right := by
  obtain ⟨inInterface, inCode⟩ := Renaming.AgreeOn.append_iff.1 agree
  have declared : program.declared.map (fun var => (⟨0, var.text left⟩ : Line)) =
      program.declared.map fun var => ⟨0, var.text right⟩ := by
    refine List.map_congr_left fun var listed => ?_
    have alike := Renaming.AgreeOn.flatMap_iff.1 inInterface var listed
    rw [InterfaceVariable.text, InterfaceVariable.text, alike var.type (by simp),
      alike var.name (by simp)]
  have defined : Overload.groupLines left = Overload.groupLines right := by
    funext group
    simp only [Overload.groupLines, Overload.text, helpers]
  rw [lines_eq, lines_eq, codeLines_congr inCode, frontLines, frontLines, interfaceLines,
    interfaceLines, declared, defined]

/-- Every name of a program is fixed by the language or copied from a token. -/
theorem Context.names_accounted {shader : Shader} {profile : Profile} {entryName : String}
    {entry : Function} (found : shader.function? entryName = some entry) :
    ∀ name ∈ (ofEntry shader profile entry).program.names, name.Accounted shader := by
  have listed : (ofEntry shader profile entry).EntryListed := entryListed_ofEntry found
  intro name written
  rcases List.mem_append.1 written with inInterface | inCode
  · obtain ⟨var, declared, own⟩ := List.mem_flatMap.1 inInterface
    obtain ⟨struct, plays, field, member, made⟩ := Interface.mem_declared declared
    have known := Shader.tokens_of_mem_fields (Interface.listed_ofEntry plays) member
    exact Field.variable_accounted known made name own
  rcases List.mem_append.1 inCode with head | inTerms
  · exact (heads_program listed name head).accounted
  rcases mem_names_terms inTerms with ⟨site, rendered, own⟩ | ⟨place, stored, own⟩
  · exact Site.head_accounted (rendered_belongs listed site rendered) name own
  · rcases returnVariable?_eq_some stored with ⟨semantic, variableName, named, rfl⟩ | ⟨slot, rfl⟩
    · obtain rfl := List.mem_singleton.1 own
      exact .ofWord (builtIn?_languageWord named)
    · obtain rfl := List.mem_singleton.1 own
      exact .ofNone rfl (by simp [colorName])

namespace Renaming

variable {tokens : List String} {names : Renaming} (chosen : ofTokens tokens = .ok names)

include chosen

/-- Every alias starts with a word that needs one. -/
theorem eq_numbered_of_mem_aliases {word : String} (isAlias : word ∈ names.aliases) :
    ∃ base ∈ aliasBases, ∃ n, word = numbered base n := by
  obtain ⟨entry, listed, rfl⟩ := List.mem_map.1 isAlias
  obtain ⟨bases, fresh⟩ := entries_ofTokens chosen
  refine ⟨entry.1, bases ▸ List.mem_map_of_mem listed, ?_⟩
  exact (probe_eq_some (fresh entry listed)).1

/-- The variables of the interface start with no word that needs an alias. -/
theorem append_notMem_aliases {start : String} (field : String)
    (isVariable : start = "attr_" ∨ start = "var_") : start ++ field ∉ names.aliases := by
  intro isAlias
  obtain ⟨base, needed, n, same⟩ := eq_numbered_of_mem_aliases chosen isAlias
  have letters : ∀ base ∈ aliasBases, base.toList.head?.isSome = true ∧
      base.toList.head? ≠ some 'a' ∧ base.toList.head? ≠ some 'v' := by
    decide
  obtain ⟨present, notA, notV⟩ := letters base needed
  have first := congrArg (fun text => text.toList.head?) same
  simp only [numbered, String.toList_append, List.head?_append, Option.or_of_isSome present]
    at first
  rcases isVariable with rfl | rfl
  · exact notA first.symm
  · exact notV first.symm

end Renaming

/-- The text of a name that is copied from the shader is an alias only where a reserved word gives
way to its own. -/
theorem Glsl.Name.text_mem_aliases_iff {shader : Shader} {names : Renaming} {name : Glsl.Name}
    {word : String} (chosen : Renaming.ofTokens shader.tokens = .ok names)
    (copied : name.copied? = some word) (listed : word ∈ shader.tokens) :
    name.text names ∈ names.aliases ↔ name = .source word ∧ word ∈ reservedWords := by
  have free : word ∉ names.aliases := fun isAlias =>
    Renaming.notMem_tokens_of_mem_aliases chosen isAlias listed
  cases name with
  | source name =>
    obtain rfl := Option.some.inj copied
    constructor
    · intro isAlias
      refine ⟨rfl, ?_⟩
      by_contra unreserved
      rw [text, Renaming.source_of_not_reserved names name unreserved] at isAlias
      exact free isAlias
    · rintro ⟨-, reserved⟩
      exact Renaming.source_mem_aliases chosen reserved
  | verbatim text =>
    obtain rfl := Option.some.inj copied
    simp [Name.text, free]
  | vertexInput field =>
    simp [text, Renaming.append_notMem_aliases chosen field (Or.inl rfl)]
  | varying field =>
    simp [text, Renaming.append_notMem_aliases chosen field (Or.inr rfl)]
  | _ => cases copied

/-- Wherever aliases can be chosen, they capture nothing. Whatever the profile and the entry, the
lines of the program depend on the aliases only through its names and the helper functions; each
name is fixed by the language or holds a token of the shader. None of the fifteen aliases is a
token, so none is a string that a name holds, and a name is written as an alias only where it is a
reserved word. -/
theorem aliases_capture_nothing {shader : Shader} {profile : Profile} {entryName : String}
    {entry : Function} {names : Renaming} (found : shader.function? entryName = some entry)
    (chosen : Renaming.ofTokens shader.tokens = .ok names) :
    let program := (Context.ofEntry shader profile entry).program
    (∀ other : Renaming, names.AgreeOn other program.names →
      (∀ which, names.helper which = other.helper which) →
      program.lines names = program.lines other) ∧
    (∀ name ∈ program.names, name.Accounted shader) ∧
    names.aliases.length = 15 ∧ (∀ which, names.helper which ∈ names.aliases) ∧
    (∀ word ∈ reservedWords, names.source word ∈ names.aliases) ∧
    (∀ word ∈ names.aliases, word ∉ shader.tokens) ∧
    ∀ name ∈ program.names, ∀ word, name.copied? = some word → word ∉ names.aliases ∧
      (name.text names ∈ names.aliases ↔ name = .source word ∧ word ∈ reservedWords) := by
  intro program
  have accounted : ∀ name ∈ program.names, name.Accounted shader :=
    Context.names_accounted found
  refine ⟨fun other => Glsl.Program.lines_congr, accounted, Renaming.length_aliases chosen,
    Renaming.helper_mem_aliases chosen, fun word => Renaming.source_mem_aliases chosen,
    fun word => Renaming.notMem_tokens_of_mem_aliases chosen, ?_⟩
  intro name written word copied
  have listed : word ∈ shader.tokens := (accounted name written).copied word copied
  refine ⟨fun isAlias => Renaming.notMem_tokens_of_mem_aliases chosen isAlias listed, ?_⟩
  exact Glsl.Name.text_mem_aliases_iff chosen copied listed

/-- An entry that names its variables by a reserved word and by what would be its first alias. -/
def contestedEntry : Function where
  name := "main"
  result := Ty.ofBase .void
  semantic := none
  arguments := []
  body :=
    [.evaluate (.ofAssign (.identifier "output" (Ty.ofBase .float))
      (.identifier "output0" (Ty.ofBase .float)))]

/-- The name `output0` is copied although it would be the first alias of `output`, which therefore
gets the next one. -/
theorem contestedEntry_uncaptured :
    let shader : Shader := [.function contestedEntry.toSignature contestedEntry.body]
    let c := Context.ofEntry shader ⟨.mobileA, .legacy, .fragment⟩ contestedEntry
    shader.function? "main" = some contestedEntry ∧ .source "output0" ∈ c.program.names ∧
      ∃ names, Renaming.ofTokens shader.tokens = .ok names ∧ "output0" ∉ names.aliases ∧
        names.source "output" = "output1" := by
  intro shader c
  have found : shader.function? "main" = some contestedEntry := rfl
  have chosen : Renaming.ofTokens shader.tokens = .ok _ := rfl
  have written : .source "output0" ∈ c.program.names := by decide
  obtain ⟨-, -, -, -, -, -, apart⟩ := aliases_capture_nothing found chosen
  exact ⟨found, written, _, chosen, (apart _ written "output0" rfl).1, rfl⟩

end GlslText
