import GlslText.Proofs.Collision
import GlslText.Proofs.Nesting
import GlslText.Proofs.WovenProgram

/-!
# Where reserved words give way

A text is woven from pieces that are the same for every shader and from the names of its program.
A name of the shader that is a reserved word is written as its alias wherever it stands in the code,
except for the register of a big array. In the interface the type of a variable stands as it is: a
structure that a stage structure carries in one of its fields keeps its name there, also where that
is a reserved word and the structure itself is defined under the alias.
-/

namespace GlslText

/-! ## What a text is written with -/

/-- The pieces that are the same for every shader, but for the aliases of the helper functions. -/
inductive Profile.Fixed (profile : Profile) (names : Renaming) : String → Prop
  | word {text : String} (listed : text ∈ fixedWords ++ helperWords) : Fixed profile names text
  | language {text : String} (fixed : Glsl.LanguageWord text) : Fixed profile names text
  | numeral {text : String} (digits : AllChars Char.isDigit text) : Fixed profile names text
  | direction {text : String} (listed : text ∈ ["in", "inout", "out", "layout"]) :
      Fixed profile names text
  | qualifier {qualifier : Qualifier}
      (listed : qualifier ∈ [profile.inputQualifier, profile.outputQualifier]) :
      Fixed profile names qualifier.text
  | preamble {line : String} (listed : line ∈ profile.dialect.fullest.preamble Feature.all) :
      Fixed profile names line
  | helper (which : Helper) : Fixed profile names (names.helper which)
  | color (slot : Nat) : Fixed profile names (colorVariable .modern true slot)

namespace Context

/-- A piece of the text of a program: a fixed one, or one of its names. -/
def Written (c : Context) (names : Renaming) (piece : String) : Prop :=
  c.profile.Fixed names piece ∨ ∃ name ∈ c.program.names, name.text names = piece

/-- The words and numbers that are written whatever the shader count as fixed pieces. -/
theorem lexicon_written (c : Context) (names : Renaming) :
    Lexicon fun _ piece => c.Written names piece where
  word _ listed _ := Or.inl (.word (commonWords_subset listed))
  language _ fixed _ := Or.inl (.language fixed)
  numeral _ digits _ := Or.inl (.numeral digits)
  passing text listed := by
    have directions : ∀ text ∈ ["in", "inout", "out"],
        text ∈ ["in", "inout", "out", "layout"] := by
      decide
    exact Or.inl (.direction (directions text listed))

/-- The lines in front of a program and the words of its interface count as fixed pieces. -/
theorem phrases_written (c : Context) (names : Renaming) :
    c.profile.Phrases fun _ piece => c.Written names piece where
  preamble _ listed := Or.inl (.preamble listed)
  qualifier _ listed := Or.inl (.qualifier listed)
  direction _ text listed := by
    have directions : ∀ text ∈ ["layout", "inout", "out"],
        text ∈ ["in", "inout", "out", "layout"] := by
      decide
    exact Or.inl (.direction (directions text listed))
  discard _ := Or.inl (.word (by decide))

/-- Every text is woven from fixed pieces and the names of its program. -/
theorem woven_written (c : Context) (names : Renaming) :
    Woven (fun _ piece => c.Written names piece) .outside (c.program.text names).toList := by
  refine Glsl.Program.woven_text (c.lexicon_written names) ?_ c.narrows_program
  exact c.spelled_program (c.lexicon_written names) (c.phrases_written names)
    (fun slot _ => Or.inl (.color slot)) (fun which _ => Or.inl (.helper which))
    fun name written _ => Or.inr ⟨name, written, rfl⟩

end Context

/-! ## Names in the code -/

namespace Statement

/-- The names that a statement writes outside its terms and its bodies. -/
def ownHeads (c : Context) (scope : Scope) : Statement → List Glsl.Name
  | declare declaration => Glsl.Stmt.headsAll (declaration.lower c scope)
  | struct definition => Glsl.Stmt.headsAll (definition.lower c)
  | buffer _ content => Glsl.Stmt.headsAll (content.lowerBuffer c)
  | function signature _ =>
    if signature.name = c.entry.name then [] else (signature.prototype c).heads
  | loop start _ _ _ => (start.map (Declaration.declarator c)).toList.flatMap Glsl.Declarator.heads
  | _ => []

variable {c : Context}

/-- A statement writes the names of its own and those of its bodies. -/
theorem headsAll_lower (scope : Scope) (s : Statement) :
    Glsl.Stmt.headsAll (s.lower c scope) = s.ownHeads c scope ++
      (s.bodies c scope).flatMap fun opened =>
        Glsl.Stmt.headsAll (lowerAll c opened.1 opened.2) := by
  -- A statement lowers its bodies as lists, so no induction is needed here.
  cases s with
  | function signature body =>
    simp only [lower, ownHeads, bodies]
    split <;> simp [Glsl.Stmt.headsAll, Glsl.Stmt.heads]
  | branch condition whenTrue whenFalse =>
    cases whenFalse <;> simp [lower, ownHeads, bodies, Glsl.Stmt.headsAll, Glsl.Stmt.heads]
  | result value =>
    cases value with
    | none => rfl
    | some value =>
      simp only [lower, Expr.lowerResult, ownHeads, bodies]
      split
      · split
        · rfl
        · split <;> rfl
      · rfl
  | discard =>
    simp only [lower, ownHeads, bodies]
    split <;> rfl
  | _ => simp [lower, ownHeads, bodies, Glsl.Stmt.headsAll, Glsl.Stmt.heads]

/-- A name that lowered statements write outside their terms is written by one that is placed. -/
theorem mem_headsAll_iff {name : Glsl.Name} {scope : Scope} {statements : List Statement}
    (level : Nat) :
    name ∈ Glsl.Stmt.headsAll (lowerAll c scope statements) ↔
      ∃ s inner depth, Placed c s inner depth scope level statements ∧
        name ∈ s.ownHeads c inner := by
  have step : ∀ scope statements, Glsl.Stmt.headsAll (lowerAll c scope statements) =
      statements.flatMap fun s => s.ownHeads c scope ++ (s.bodies c scope).flatMap fun opened =>
        Glsl.Stmt.headsAll (lowerAll c opened.1 opened.2) := by
    intro scope statements
    rw [lowerAll_eq_flatMap, Glsl.Stmt.headsAll_eq_flatMap, List.flatMap_assoc]
    simp only [← Glsl.Stmt.headsAll_eq_flatMap, headsAll_lower]
  exact mem_iff_placed step level

end Statement

/-! ## Names that stand as they are -/

variable {c : Context} (word : String)

/-- No type in the code keeps a name as it is. -/
theorem Ty.verbatim_ne_glslName (ty : Ty) : .verbatim word ≠ ty.glslName := by
  rcases ty.glslName_eq with ⟨text, same⟩ | ⟨name, same⟩
  · simp [same]
  · simp [same]

/-- No declarator of a type keeps a name as it is. -/
theorem Ty.verbatim_notMem_declarator (ty : Ty) (name : String) :
    .verbatim word ∉ (ty.declarator c name).heads := by
  simp [declarator, Glsl.Declarator.heads, ty.verbatim_ne_glslName word]

namespace Declaration

/-- No declarator of a declaration keeps a name as it is. -/
theorem verbatim_notMem_declarator (declaration : Declaration) :
    .verbatim word ∉ (declaration.declarator c).heads := by
  have named := declaration.ty.verbatim_ne_glslName word
  have array : .verbatim word ∉ (declaration.initial? c).toList.flatMap Glsl.Initial.heads := by
    unfold initial?
    split
    · simp
    · split <;> simp [Glsl.Initial.heads, arrayLiteral, named]
  simp only [declarator, Glsl.Declarator.heads, Ty.declarator, List.mem_append, List.mem_cons,
    List.not_mem_nil, or_false, named, reduceCtorEq, false_or]
  exact array

/-- No lowered declaration keeps a name as it is. -/
theorem verbatim_notMem_lower (declaration : Declaration) (scope : Scope) :
    .verbatim word ∉ Glsl.Stmt.headsAll (declaration.lower c scope) := by
  have named := declaration.ty.verbatim_ne_glslName word
  have plain := declaration.verbatim_notMem_declarator (c := c) word
  unfold lower lowerGlobal
  split
  · exact List.not_mem_nil
  split
  · split
    · split
      · simp [Glsl.Stmt.headsAll, Glsl.Stmt.heads, Glsl.Replacement.heads, arrayLiteral, named]
      · exact List.not_mem_nil
    · split
      · split <;> simp [Glsl.Stmt.headsAll, Glsl.Stmt.heads]
      · simpa [Glsl.Stmt.headsAll, Glsl.Stmt.heads] using plain
  · simpa [Glsl.Stmt.headsAll, Glsl.Stmt.heads] using plain

/-- A buffer keeps nothing but the register of a big array. -/
theorem verbatim_mem_lowerBuffer {word : String} {content : Declaration} :
    .verbatim word ∈ Glsl.Stmt.headsAll (content.lowerBuffer c) ↔
      content.bigArrayRegister? = some word := by
  have named := content.ty.verbatim_ne_glslName word
  unfold lowerBuffer
  cases registered : content.bigArrayRegister? with
  | none => simp [Glsl.Stmt.headsAll, Glsl.Stmt.heads, Glsl.Declarator.heads, named]
  | some register =>
    simp [Glsl.Stmt.headsAll, Glsl.Stmt.heads, Glsl.Declarator.heads, Glsl.Replacement.heads, named,
      eq_comm]

end Declaration

/-- No lowered structure keeps a name as it is. -/
theorem Struct.verbatim_notMem_lower (definition : Struct) :
    .verbatim word ∉ Glsl.Stmt.headsAll (definition.lower c) := by
  unfold lower
  split
  · simp [Glsl.Stmt.headsAll, Glsl.Stmt.heads, List.flatMap_map, Ty.verbatim_notMem_declarator]
  · exact List.not_mem_nil

/-- No head of a function keeps a name as it is. -/
theorem Signature.verbatim_notMem_prototype (signature : Signature) :
    .verbatim word ∉ (signature.prototype c).heads := by
  have result := signature.result.verbatim_ne_glslName word
  simp [prototype, Glsl.Prototype.heads, List.flatMap_map, Ty.verbatim_notMem_declarator, result]

/-- Outside its terms and bodies a statement keeps nothing but the register of a big array. -/
theorem Statement.verbatim_mem_ownHeads {word : String} {scope : Scope} {s : Statement} :
    .verbatim word ∈ s.ownHeads c scope ↔ ∃ keyword content, s = .buffer keyword content ∧
      content.bigArrayRegister? = some word := by
  cases s with
  | declare declaration => simp [ownHeads, declaration.verbatim_notMem_lower]
  | struct definition => simp [ownHeads, definition.verbatim_notMem_lower]
  | buffer keyword content => simp [ownHeads, Declaration.verbatim_mem_lowerBuffer]
  | function signature body =>
    simp only [ownHeads]
    split <;> simp [signature.verbatim_notMem_prototype]
  | loop start condition step body =>
    cases start <;> simp [ownHeads, Declaration.verbatim_notMem_declarator]
  | _ => simp [ownHeads]

/-- What statements keep as it is outside their terms is the register of a big array that is placed
among them. -/
theorem Statement.verbatim_mem_headsAll {word : String} {scope : Scope}
    {statements : List Statement} (level : Nat) :
    .verbatim word ∈ Glsl.Stmt.headsAll (lowerAll c scope statements) ↔
      ∃ keyword content inner depth, Declaration.bigArrayRegister? content = some word ∧
        Placed c (.buffer keyword content) inner depth scope level statements := by
  rw [mem_headsAll_iff level]
  simp only [verbatim_mem_ownHeads]
  constructor
  · rintro ⟨_, inner, depth, placed, keyword, content, rfl, registered⟩
    exact ⟨keyword, content, inner, depth, registered, placed⟩
  · rintro ⟨keyword, content, inner, depth, registered, placed⟩
    exact ⟨_, inner, depth, placed, keyword, content, rfl, registered⟩

/-- No variable of a bound field is a name that is kept as it is. -/
theorem Context.verbatim_notMem_boundField (field : Field) (binding : Binding) :
    .verbatim word ∉ (c.boundField field binding).names := by
  cases binding <;> simp [boundField, Glsl.Term.names, colorName]

/-- No callee is written as a name that is kept as it is. -/
theorem verbatim_ne_calleeName (profile : Profile) (callee : String) :
    .verbatim word ≠ calleeName profile callee := by
  unfold calleeName
  split
  · rename_i found _
    rcases found.name_eq profile with ⟨text, -, same⟩ | ⟨which, same⟩
    · simp [same]
    · simp [same]
  · simp

/-- No expression keeps a name as it is. -/
theorem Expr.not_writes_verbatim (e : Expr) : ¬e.Writes c (.verbatim word) := by
  intro writes
  -- The name is generalized so that the cases on what writes it go through.
  generalize written : Glsl.Name.verbatim word = name at writes
  cases writes with
  | bound _ _ _ own =>
    subst written
    exact Context.verbatim_notMem_boundField word _ _ own
  | callee callee => exact verbatim_ne_calleeName word c.profile callee written
  | construct _ ty => exact ty.verbatim_ne_glslName word written
  | cast _ ty => exact ty.verbatim_ne_glslName word written
  | _ => cases written

namespace Context

/-- No term of a program keeps a name as it is. -/
theorem verbatim_notMem_terms : .verbatim word ∉ c.program.terms.flatMap Glsl.Term.names := by
  intro written
  rcases mem_names_terms written with ⟨site, -, own⟩ | ⟨place, stored, own⟩
  · rcases Site.writes_of_mem_head own with ⟨target, -, same⟩ | writes
    · exact target.verbatim_ne_glslName word same
    · exact site.expr.not_writes_verbatim word writes
  · rcases returnVariable?_eq_some stored with ⟨semantic, variableName, -, rfl⟩ | ⟨slot, rfl⟩
    · simp [Glsl.Term.names] at own
    · simp [Glsl.Term.names, colorName] at own

/-- A big array with the given register is placed in the shader or in the body of the entry. -/
def UsesRegister (c : Context) (word : String) : Prop :=
  ∃ keyword content scope depth, Declaration.bigArrayRegister? content = some word ∧
    (Statement.Placed c (.buffer keyword content) scope depth Scope.global 0 c.shader ∨
      Statement.Placed c (.buffer keyword content) scope depth c.mainScope 1 c.entry.body)

/-- In the code of a program the names that stand as they are are the registers of big arrays. -/
theorem verbatim_mem_codeNames {word : String} :
    .verbatim word ∈ c.program.codeNames ↔ c.UsesRegister word := by
  constructor
  · intro written
    rcases List.mem_append.1 written with head | inTerms
    · simp only [Glsl.Program.heads, program, List.flatMap_map, List.mem_append] at head
      rcases head with (inGlobals | inProperties) | inBody
      · obtain ⟨keyword, content, scope, depth, registered, placed⟩ :=
          (Statement.verbatim_mem_headsAll 0).1 inGlobals
        exact ⟨keyword, content, scope, depth, registered, Or.inl placed⟩
      · obtain ⟨declaration, -, inside⟩ := List.mem_flatMap.1 inProperties
        exact absurd inside (declaration.verbatim_notMem_declarator word)
      · obtain ⟨keyword, content, scope, depth, registered, placed⟩ :=
          (Statement.verbatim_mem_headsAll 1).1 inBody
        exact ⟨keyword, content, scope, depth, registered, Or.inr placed⟩
    · exact absurd inTerms (verbatim_notMem_terms word)
  · rintro ⟨keyword, content, scope, depth, registered, inShader | inEntry⟩
    · have inGlobals := (Statement.verbatim_mem_headsAll 0).2
        ⟨keyword, content, scope, depth, registered, inShader⟩
      exact List.mem_append_left _ (List.mem_append_left _ (List.mem_append_left _ inGlobals))
    · have inBody := (Statement.verbatim_mem_headsAll 1).2
        ⟨keyword, content, scope, depth, registered, inEntry⟩
      exact List.mem_append_left _ (List.mem_append_right _ inBody)

end Context

/-! ## Types in the interface -/

/-- The interface keeps the name of a user-defined type as it is, and no other. -/
theorem Ty.interfaceName_eq_verbatim_iff {ty : Ty} {word : String} :
    ty.interfaceName = .verbatim word ↔ ty.base = .userDefined ∧ ty.name = some word := by
  unfold interfaceName
  split
  · rename_i userDefined
    split <;> simp_all
  · rename_i builtIn
    simp [builtIn]

namespace Field

/-- A vertex stage declares a widened input with another type. -/
theorem inputType_eq_verbatim_iff {profile : Profile} {field : Field} {word : String} :
    (∃ var, field.inputVariable? profile = some var ∧ var.type = .verbatim word) ↔
      (profile.stage = .vertex → isWidened field.semantic = false) ∧
        field.ty.interfaceName = .verbatim word := by
  unfold inputVariable? binding?
  cases profile.stage with
  | vertex => cases isWidened field.semantic <;> simp
  | fragment => simp [varying]

/-- A vertex output keeps the name of its type when it is a varying. -/
theorem outputType_eq_verbatim_iff {profile : Profile} {field : Field} {word : String} :
    (∃ var, field.outputVariable? profile = some var ∧ var.type = .verbatim word) ↔
      field.outputBinding = .varying ∧ field.ty.interfaceName = .verbatim word := by
  unfold outputVariable? binding?
  cases field.outputBinding <;> simp [varying]

end Field

namespace Context

/-- A stage structure carries a structure of the given name in one of its fields: one that the
stage takes, unless that is widened, or one that a vertex stage returns beside its built-in
variables and colours. -/
def CarriesType (c : Context) (word : String) : Prop :=
  ∃ struct, ∃ field ∈ Struct.fields struct,
    (field.ty.base = .userDefined ∧ field.ty.name = some word) ∧
    (c.interface.input = some struct ∧
        (c.profile.stage = .vertex → isWidened field.semantic = false) ∨
      c.interface.output = some struct ∧ c.profile.stage = .vertex ∧
        field.outputBinding = .varying)

/-- In the interface the types that stand as they are are those of the fields that carry a
structure. -/
theorem verbatim_mem_declared {word : String} :
    .verbatim word ∈ c.program.declared.map InterfaceVariable.type ↔ c.CarriesType word := by
  simp only [CarriesType, ← Ty.interfaceName_eq_verbatim_iff]
  constructor
  · intro written
    obtain ⟨var, listed, same⟩ := List.mem_map.1 written
    rcases Interface.mem_declared_iff.1 listed with
      ⟨struct, plays, field, member, made⟩ | ⟨vertex, struct, plays, field, member, made⟩
    · obtain ⟨plain, named⟩ := Field.inputType_eq_verbatim_iff.1 ⟨var, made, same⟩
      exact ⟨struct, field, member, named, Or.inl ⟨plays, plain⟩⟩
    · obtain ⟨carried, named⟩ := Field.outputType_eq_verbatim_iff.1 ⟨var, made, same⟩
      exact ⟨struct, field, member, named, Or.inr ⟨plays, vertex, carried⟩⟩
  · rintro ⟨struct, field, member, named, ⟨plays, plain⟩ | ⟨plays, vertex, carried⟩⟩
    · obtain ⟨var, made, same⟩ := Field.inputType_eq_verbatim_iff.2 ⟨plain, named⟩
      have listed := Interface.mem_declared_iff.2 (Or.inl ⟨struct, plays, field, member, made⟩)
      exact List.mem_map.2 ⟨var, listed, same⟩
    · obtain ⟨var, made, same⟩ := Field.outputType_eq_verbatim_iff.2 ⟨carried, named⟩
      have listed :=
        Interface.mem_declared_iff.2 (Or.inr ⟨vertex, struct, plays, field, member, made⟩)
      exact List.mem_map.2 ⟨var, listed, same⟩

end Context

/-! ## Reserved words -/

/-- A numbered form of a reserved word is not reserved. -/
theorem numbered_notMem_reservedWords {base : String} (reserved : base ∈ reservedWords) (n : Nat) :
    numbered base n ∉ reservedWords := by
  have apart : ∀ base ∈ reservedWords, ∀ word ∈ reservedWords,
      base = word ∨ base.toList.isPrefixOf word.toList = false ∧
        word.toList.isPrefixOf base.toList = false := by
    decide +kernel
  intro listed
  rcases apart base reserved _ listed with same | apart
  · exact numbered_ne_base base n same.symm
  · exact numbered_ne (List.prefix_refl _) apart n rfl

/-- No variable of the interface is written as a reserved word. -/
theorem append_notMem_reservedWords {start : String} (listed : start ∈ ["attr_", "var_"])
    (field : String) : start ++ field ∉ reservedWords := by
  have apart : ∀ start ∈ ["attr_", "var_"], ∀ word ∈ reservedWords,
      start.toList.isPrefixOf word.toList = false := by
    decide +kernel
  intro reserved
  have opens : start.toList <+: (start ++ field).toList := ⟨field.toList, by simp⟩
  have opened := List.isPrefixOf_iff_prefix.2 opens
  rw [apart start listed _ reserved] at opened
  cases opened

/-- A name that holds a string of the shader is written as a reserved word only where it stands as
it is. -/
theorem Glsl.Name.text_mem_reservedWords_iff {tokens : List String} {names : Renaming}
    (chosen : Renaming.ofTokens tokens = .ok names) {name : Glsl.Name} {word : String}
    (copied : name.copied? = some word) :
    name.text names ∈ reservedWords ↔ name = .verbatim word ∧ word ∈ reservedWords := by
  cases name with
  | source name =>
    obtain rfl := Option.some.inj copied
    have apart : (source name).text names ∉ reservedWords := by
      by_cases reserved : name ∈ reservedWords
      · obtain ⟨-, n, numbering⟩ :=
          Renaming.aliasOf_mem chosen (List.mem_append_right _ reserved)
        rw [text, Renaming.source_of_reserved reserved, numbering]
        exact numbered_notMem_reservedWords reserved n
      · rwa [text, names.source_of_not_reserved name reserved]
    simp [apart]
  | verbatim text =>
    obtain rfl := Option.some.inj copied
    simp [Name.text]
  | vertexInput field => simp [text, append_notMem_reservedWords]
  | varying field => simp [text, append_notMem_reservedWords]
  | _ => cases copied

/-- Every text is woven from fixed pieces and the names of its program, and each name is fixed by
the language or holds a token. A name that holds a token is written as a reserved word exactly where
it stands as it is and the token is reserved; any other name of the shader that is reserved is
written as its alias. The names that stand as they are are, in the interface, the types of the
fields that carry a structure and, in the code, the registers of big arrays. -/
theorem reserved_words_kept_iff {shader : Shader} {profile : Profile} {entryName : String}
    {entry : Function} {output : Output}
    (generated : generate shader profile entryName = .ok output)
    (found : shader.function? entryName = some entry) :
    ∃ names, Renaming.ofTokens shader.tokens = .ok names ∧
      let c := Context.ofEntry shader profile entry
      output.text = c.program.text names ∧
      Woven (fun _ piece => c.Written names piece) .outside output.text.toList ∧
      (∀ name ∈ c.program.names, name.Accounted shader ∧
        ∀ word, name.copied? = some word →
          (name.text names ∈ reservedWords ↔ name = .verbatim word ∧ word ∈ reservedWords) ∧
          (name = .source word → word ∈ reservedWords →
            name.text names = names.aliasOf word ∧ names.aliasOf word ∉ shader.tokens)) ∧
      (∀ word, .verbatim word ∈ c.program.declared.map InterfaceVariable.type ↔
        c.CarriesType word) ∧
      ∀ word, .verbatim word ∈ c.program.codeNames ↔ c.UsesRegister word := by
  obtain ⟨other, names, run⟩ := generate_eq_ok_iff.1 generated
  obtain rfl := Option.some.inj (found.symm.trans run.found)
  refine ⟨names, run.chosen, run.text, ?_, fun name written => ?_,
    fun word => Context.verbatim_mem_declared, fun word => Context.verbatim_mem_codeNames⟩
  · rw [run.text]
    exact Context.woven_written _ names
  · refine ⟨Context.names_accounted found name written, fun word copied => ?_⟩
    refine ⟨Glsl.Name.text_mem_reservedWords_iff run.chosen copied, ?_⟩
    rintro rfl reserved
    have isAlias := (Renaming.aliasOf_mem run.chosen (List.mem_append_right _ reserved)).1
    exact ⟨Renaming.source_of_reserved reserved,
      Renaming.notMem_tokens_of_mem_aliases run.chosen isAlias⟩

/-- A vertex entry that takes a structure. -/
def takingEntry : Function :=
  ⟨⟨"main", Ty.ofBase .void, none,
    [⟨"i", ⟨.userDefined, some "Taken", false, none, false, false⟩, .plain⟩]⟩, []⟩

/-- The structure that is taken has a structure in it, which is called by a reserved word. -/
def carriedStruct : Shader :=
  let inner : Ty := ⟨.userDefined, some "mod", false, none, false, false⟩
  [.struct ⟨"mod", [⟨"tint", Ty.ofBase (.vector (.float .full) .four), none, none⟩]⟩,
  .struct ⟨"Taken", [⟨"weight", inner, some "TEXCOORD0", none⟩]⟩,
  .function takingEntry.toSignature takingEntry.body]

/-- The structure is written by its alias where it is defined and as it is where it is carried. -/
theorem carriedStruct_split :
    let c := Context.ofEntry carriedStruct ⟨.desktopOther, .modern, .vertex⟩ takingEntry
    ∃ output names,
      generate carriedStruct ⟨.desktopOther, .modern, .vertex⟩ "main" = .ok output ∧
      output.text = c.program.text names ∧
      .source "mod" ∈ c.program.codeNames ∧
      (Glsl.Name.source "mod").text names = names.aliasOf "mod" ∧
      .verbatim "mod" ∈ c.program.declared.map InterfaceVariable.type ∧
      (Glsl.Name.verbatim "mod").text names ∈ reservedWords := by
  intro c
  have generated :
      generate carriedStruct ⟨.desktopOther, .modern, .vertex⟩ "main" = .ok _ := rfl
  have found : carriedStruct.function? "main" = some takingEntry := rfl
  have carries : c.CarriesType "mod" :=
    ⟨_, _, List.mem_cons_self, ⟨rfl, rfl⟩, Or.inl ⟨rfl, fun _ => by decide⟩⟩
  have written : .source "mod" ∈ c.program.codeNames := List.mem_cons_self
  have reserved : "mod" ∈ reservedWords := by decide
  obtain ⟨names, -, text, -, each, declared, -⟩ := reserved_words_kept_iff generated found
  obtain ⟨-, copies⟩ := each _ (List.mem_append_right _ written)
  exact ⟨_, names, generated, text, written, ((copies "mod" rfl).2 rfl reserved).1,
    (declared "mod").2 carries, reserved⟩

/-- The text defines the structure as `mod0` and declares the input with the type `mod`. -/
theorem carriedStruct_kept :
    generate carriedStruct ⟨.desktopOther, .modern, .vertex⟩ "main" =
      .ok ⟨Line.renderAll
        ((Profile.preamble ⟨.desktopOther, .modern, .vertex⟩ []).map (Line.mk 0) ++
          [⟨0, "in mod attr_weight;"⟩, .blank, ⟨0, "struct mod0 \x7b"⟩, ⟨1, "vec4 tint;"⟩,
            ⟨0, "\x7d;"⟩, .blank, ⟨0, "void main()"⟩, ⟨0, "\x7b"⟩, ⟨0, "\x7d"⟩]),
        .glsl330, []⟩ := by
  decide +kernel

end GlslText
