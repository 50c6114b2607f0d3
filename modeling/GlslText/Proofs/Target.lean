import GlslText.Proofs.Generation
import GlslText.Proofs.Rendered

/-!
# What a text depends on of its target

Behind the preamble a text depends on its target through the stage and the dialect alone: the
dialect says which generation is written and whether the platform is a mobile one, and it is the
dialect of one platform only where that platform is treated apart. So two targets with one dialect
and one stage have the same programs but for the preamble, and generation fails for both or for
neither. The two mobile families share their dialects, and their preambles differ in one macro of
the legacy generation.
-/

namespace GlslText

/-! ## Dialects -/

namespace Dialect

/-- The generation a dialect belongs to. -/
def generation : Dialect → Generation
  | es100 => .legacy
  | es300 => .modern
  | glsl120 => .legacy
  | glsl130 => .legacy
  | glsl330 => .modern

/-- Whether a dialect is one of mobile platforms. -/
def isMobile : Dialect → Bool
  | es100 => true
  | es300 => true
  | glsl120 => false
  | glsl130 => false
  | glsl330 => false

end Dialect

namespace Profile

/-- The dialect of a target belongs to its generation. -/
theorem generation_dialect (profile : Profile) :
    profile.dialect.generation = profile.generation := by
  obtain ⟨platform, requested, stage⟩ := profile
  cases platform <;> cases requested <;> rfl

/-- The dialect of a target is a mobile one exactly on mobile platforms. -/
theorem isMobile_dialect (profile : Profile) : profile.dialect.isMobile = profile.isMobile := by
  obtain ⟨platform, requested, stage⟩ := profile
  cases platform <;> cases requested <;> rfl

/-- Version 120 is the dialect of one platform and of no other. -/
theorem dialect_eq_glsl120_iff (profile : Profile) :
    profile.dialect = .glsl120 ↔ profile.platform = .desktopMac := by
  obtain ⟨platform, requested, stage⟩ := profile
  cases platform <;> cases requested <;> simp [dialect, generation]

/-- Two targets with one stage and one dialect. -/
structure SameDialect (left right : Profile) : Prop where
  stage : left.stage = right.stage
  dialect : left.dialect = right.dialect

namespace SameDialect

variable {left right : Profile} (same : left.SameDialect right)

include same

/-- Targets with one dialect have one generation. -/
theorem generation : left.generation = right.generation := by
  rw [← generation_dialect, same.dialect, generation_dialect]

/-- Targets with one dialect are both legacy or both not. -/
theorem isLegacy : left.isLegacy = right.isLegacy := by
  rw [Profile.isLegacy, same.generation, Profile.isLegacy]

/-- Targets with one stage are both fragments or both not. -/
theorem isFragment : left.isFragment = right.isFragment := by
  rw [Profile.isFragment, same.stage, Profile.isFragment]

/-- Targets with one dialect are both mobile or both not. -/
theorem isMobile : left.isMobile = right.isMobile := by
  rw [← isMobile_dialect, same.dialect, isMobile_dialect]

/-- Of targets with one dialect both are on the platform that has its own dialect, or neither. -/
theorem platform : left.platform = .desktopMac ↔ right.platform = .desktopMac := by
  rw [← dialect_eq_glsl120_iff, same.dialect, dialect_eq_glsl120_iff]

end SameDialect

end Profile

/-! ## Lowering -/

/-- The context with another target, all else unchanged. -/
def Context.retarget (c : Context) (profile : Profile) : Context :=
  { c with profile }

section Calls

variable {c : Context} {target : Profile} (same : target.SameDialect c.profile)

include same

/-- The name of a callee depends on the stage and the dialect alone. -/
theorem calleeName_congr (callee : String) :
    calleeName target callee = calleeName c.profile callee := by
  unfold calleeName
  cases intrinsic? callee with
  | none => rfl
  | some found => cases found <;> simp only [Intrinsic.name, same.isLegacy, same.platform]

namespace Context

/-- An identifier is written in the same way for both targets. -/
theorem identifier_retarget (name : String) (ty : Ty) :
    (c.retarget target).identifier name ty = c.identifier name ty := by
  simp only [identifier, retarget, same.stage]

/-- A colour output is written in the same way for both targets. -/
theorem colorName_retarget (slot : Slot) :
    (c.retarget target).colorName slot = c.colorName slot := by
  simp only [colorName, retarget, same.generation]

/-- The variable of a bound field is the same for both targets. -/
theorem boundField_retarget (field : Field) (binding : Binding) :
    (c.retarget target).boundField field binding = c.boundField field binding := by
  cases binding <;> simp only [boundField, colorName_retarget same]

/-- A field is bound to the same variable for both targets. -/
theorem stageField?_retarget (object : Ty) (name : String) :
    (c.retarget target).stageField? object name = c.stageField? object name := by
  have interface : (c.retarget target).interface = c.interface := rfl
  have profile : (c.retarget target).profile = target := rfl
  simp only [stageField?, interface, profile, same.stage, boundField_retarget same]

/-- A selection is written in the same way for both targets. -/
theorem member_retarget (object : Ty) (field : String) (term : Glsl.Term) :
    (c.retarget target).member object field term = c.member object field term := by
  simp only [member, stageField?_retarget same]

/-- A call is written in the same way for both targets. -/
theorem call_retarget (callee : String) (arguments : List Expr) (terms : List Glsl.Term) :
    (c.retarget target).call callee arguments terms = c.call callee arguments terms := by
  simp only [call, retarget, same.isLegacy, calleeName_congr same]

/-- The variable that returned values are stored in is the same for both targets. -/
theorem returnVariable?_retarget : (c.retarget target).returnVariable? = c.returnVariable? := by
  have entry : (c.retarget target).entry = c.entry := rfl
  simp only [returnVariable?, entry, colorName_retarget same]

end Context

end Calls

namespace Expr

mutual

/-- The term of an expression depends on the stage and the dialect of its target alone. -/
theorem lower_retarget {c : Context} {target : Profile} (same : target.SameDialect c.profile)
    (hint : Option Ty) : (e : Expr) → e.lower (c.retarget target) hint = e.lower c hint
  | identifier name ty => by
    simp only [lower, Context.identifier_retarget same]
  | literal value ty => by
    simp only [lower]
  | unary op operand ty => by
    simp only [lower, operand.lower_retarget same]
  | binary op left right ty => by
    simp only [lower, left.lower_retarget same, right.lower_retarget same]
  | conditional condition whenTrue whenFalse ty => by
    simp only [lower, condition.lower_retarget same, whenTrue.lower_retarget same,
      whenFalse.lower_retarget same]
  | member object field ty => by
    simp only [lower, Context.member_retarget same, object.lower_retarget same]
  | index array position ty => by
    simp only [lower, array.lower_retarget same, position.lower_retarget same]
  | call callee arguments parameters ty => by
    simp only [lower, Context.call_retarget same, lowerAll_retarget same parameters arguments]
  | construct arguments ty => by
    simp only [lower, lowerAll_retarget same [] arguments]
  | cast operand ty => by
    simp only [lower, operand.lower_retarget same]

/-- Arguments are lowered to the same terms for both targets. -/
theorem lowerAll_retarget {c : Context} {target : Profile}
    (same : target.SameDialect c.profile) (parameters : List Ty) :
    (es : List Expr) → lowerAll (c.retarget target) parameters es = lowerAll c parameters es
  | [] => rfl
  | e :: rest => by
    simp only [lowerAll, e.lower_retarget same, lowerAll_retarget same parameters.tail rest]

end

end Expr

section Statements

variable {c : Context} {target : Profile} (same : target.SameDialect c.profile)

include same

namespace Expr

/-- An effect is lowered to the same effect for both targets. -/
theorem lowerEffect_retarget (e : Expr) :
    e.lowerEffect (c.retarget target) = e.lowerEffect c := by
  unfold lowerEffect
  split <;> simp only [lower_retarget same]

/-- A returned value is lowered to the same statements for both targets. -/
theorem lowerResult_retarget (scope : Scope) (value : Expr) :
    value.lowerResult (c.retarget target) scope = value.lowerResult c scope := by
  have interface : (c.retarget target).interface = c.interface := rfl
  have entry : (c.retarget target).entry = c.entry := rfl
  simp only [lowerResult, interface, entry, Context.returnVariable?_retarget same,
    lower_retarget same]

end Expr

/-- The size of an array is the same for both targets. -/
theorem Ty.lowerBrackets_retarget (ty : Ty) :
    ty.lowerBrackets (c.retarget target) = ty.lowerBrackets c := by
  have sizes : Expr.lower (c.retarget target) none = Expr.lower c none :=
    funext (Expr.lower_retarget same none)
  rw [lowerBrackets, lowerBrackets, sizes]

/-- A declarator of a type is the same for both targets. -/
theorem Ty.declarator_retarget (ty : Ty) (name : String) :
    ty.declarator (c.retarget target) name = ty.declarator c name := by
  simp only [declarator, lowerBrackets_retarget same]

namespace Declaration

/-- An array literal is the same for both targets. -/
theorem arrayLiteral_retarget (declaration : Declaration) :
    declaration.arrayLiteral (c.retarget target) = declaration.arrayLiteral c := by
  simp only [arrayLiteral, Ty.lowerBrackets_retarget same, Expr.lowerAll_retarget same]

/-- A declarator is the same for both targets. -/
theorem declarator_retarget (declaration : Declaration) :
    declaration.declarator (c.retarget target) = declaration.declarator c := by
  simp only [declarator, initial?, Ty.declarator_retarget same, arrayLiteral_retarget same,
    Expr.lower_retarget same]

/-- A declaration is lowered to the same statements for both targets. -/
theorem lower_retarget (scope : Scope) (declaration : Declaration) :
    declaration.lower (c.retarget target) scope = declaration.lower c scope := by
  have suppressed : declaration.isSuppressed (c.retarget target) = declaration.isSuppressed c := rfl
  have profile : (c.retarget target).profile = target := rfl
  simp only [lower, lowerGlobal, suppressed, profile, same.stage, same.isMobile,
    arrayLiteral_retarget same, declarator_retarget same]

/-- The content of a buffer is lowered to the same statements for both targets. -/
theorem lowerBuffer_retarget (content : Declaration) :
    content.lowerBuffer (c.retarget target) = content.lowerBuffer c := by
  simp only [lowerBuffer, Ty.lowerBrackets_retarget same]

end Declaration

/-- A structure is lowered to the same statements for both targets. -/
theorem Struct.lower_retarget (definition : Struct) :
    definition.lower (c.retarget target) = definition.lower c := by
  have interface : (c.retarget target).interface = c.interface := rfl
  simp only [lower, interface, Ty.declarator_retarget same]

/-- The head of a function is the same for both targets. -/
theorem Signature.prototype_retarget (signature : Signature) :
    signature.prototype (c.retarget target) = signature.prototype c := by
  simp only [prototype, Ty.declarator_retarget same]

namespace Statement

omit same in
/-- A body is lowered alike in two contexts when each of its statements is. -/
theorem lowerAll_congr {d : Context} {scope : Scope} {body : List Statement}
    (each : ∀ s ∈ body, s.lower d scope = s.lower c scope) :
    lowerAll d scope body = lowerAll c scope body := by
  rw [lowerAll_eq_flatMap, lowerAll_eq_flatMap]
  exact List.flatMap_congr each

/-- What a statement becomes depends on the stage and the dialect of its target alone. -/
theorem lower_retarget (s : Statement) (scope : Scope) :
    s.lower (c.retarget target) scope = s.lower c scope := by
  have entry : (c.retarget target).entry = c.entry := rfl
  induction s using bodyInduction generalizing scope with
  | declare declaration => exact declaration.lower_retarget same scope
  | struct definition => exact definition.lower_retarget same
  | buffer name content => exact content.lowerBuffer_retarget same
  | function signature body ih =>
    simp only [lower, entry, Signature.prototype_retarget same]
    rw [lowerAll_congr fun s member => ih s member (scope.ofFunction signature)]
  | branch condition whenTrue ih =>
    simp only [lower, Expr.lower_retarget same]
    rw [lowerAll_congr fun s member => ih s member scope.inner]
  | branchElse condition whenTrue whenFalse ihTrue ihFalse =>
    simp only [lower, Expr.lower_retarget same]
    rw [lowerAll_congr fun s member => ihTrue s member scope.inner,
      lowerAll_congr fun s member => ihFalse s member scope.inner]
  | loop start condition step body ih =>
    have starts : Declaration.declarator (c.retarget target) = Declaration.declarator c :=
      funext (Declaration.declarator_retarget same)
    have tests : Expr.lower (c.retarget target) (some boolTy) = Expr.lower c (some boolTy) :=
      funext (Expr.lower_retarget same (some boolTy))
    have effects : Expr.lowerEffect (c.retarget target) = Expr.lowerEffect c :=
      funext (Expr.lowerEffect_retarget same)
    simp only [lower, starts, tests, effects]
    rw [lowerAll_congr fun s member => ih s member scope.inner]
  | block body ih =>
    simp only [lower]
    rw [lowerAll_congr fun s member => ih s member scope.inner]
  | result value =>
    cases value with
    | none => rfl
    | some value => exact value.lowerResult_retarget same scope
  | discard =>
    have profile : (c.retarget target).profile = target := rfl
    simp only [lower, profile, same.isFragment]
  | leave => rfl
  | next => rfl
  | evaluate expr => simp only [lower, Expr.lowerEffect_retarget same]

end Statement

end Statements

/-! ## Programs -/

section Program

variable {left right : Profile} (same : left.SameDialect right)

include same

/-- A field has the same precision for both targets, since only mobile ones write any. -/
theorem Field.precision?_congr (field : Field) :
    field.precision? left = field.precision? right := by
  simp only [precision?, same.isMobile]

/-- The interface declares the same variables for both targets. -/
theorem Interface.declared_congr (interface : Interface) :
    interface.declared left = interface.declared right := by
  have taken : Field.inputVariable? left = Field.inputVariable? right := by
    funext field
    simp only [Field.inputVariable?, Field.varying, Profile.inputQualifier, same.stage,
      same.generation, Field.precision?_congr same]
  have returned : Field.outputVariable? left = Field.outputVariable? right := by
    funext field
    simp only [Field.outputVariable?, Field.varying, Profile.outputQualifier, same.stage,
      same.generation, Field.precision?_congr same]
  simp only [declared, taken, returned, same.stage]

/-- Features define the same helper functions for both targets. -/
theorem Feature.overloads_congr : Feature.overloads left = Feature.overloads right := by
  have discards : Overload.clip left = Overload.clip right := by
    funext type
    simp only [Overload.clip, same.isFragment]
  funext feature
  cases feature with
  | clip => simp only [overloads, discards]
  | scalarSwizzle => simp only [overloads, Overload.swizzles, Overload.scalars, same.dialect]
  | _ =>
    simp only [overloads, Overload.sample, Overload.withBias, same.isLegacy, same.isFragment,
      same.isMobile]

/-- The contexts of one entry for two targets with one dialect differ in the target alone. -/
theorem Context.ofEntry_retarget (shader : Shader) (entry : Function) :
    (ofEntry shader right entry).retarget left = ofEntry shader left entry := by
  simp only [ofEntry, retarget, same.isFragment]

/-- Two targets with one dialect have one program, but for the preamble. -/
theorem Context.program_congr (shader : Shader) (entry : Function) :
    (ofEntry shader left entry).program =
      { (ofEntry shader right entry).program with
        preamble := left.preamble (ofEntry shader right entry).features } := by
  have statements (scope : Scope) (body : List Statement) :
      Statement.lowerAll ((ofEntry shader right entry).retarget left) scope body =
        Statement.lowerAll (ofEntry shader right entry) scope body :=
    Statement.lowerAll_congr fun s _ => s.lower_retarget same scope
  have properties : Declaration.declarator ((ofEntry shader right entry).retarget left) =
      Declaration.declarator (ofEntry shader right entry) :=
    funext (Declaration.declarator_retarget same)
  have outputs : ((ofEntry shader right entry).retarget left).declaresOutputs =
      (ofEntry shader right entry).declaresOutputs := by
    simp only [declaresOutputs, retarget, ofEntry, same.isFragment, same.isLegacy]
  have helpers : Features.helpers left = Features.helpers right := by
    funext features
    simp only [Features.helpers, Feature.overloads_congr same]
  rw [← ofEntry_retarget same]
  simp only [program, statements, properties, outputs]
  simp only [retarget, mainScope, ofEntry, helpers, Interface.declared_congr same]

/-- Two targets with one dialect fail alike, and where they succeed they find one entry and choose
the same names. -/
theorem generate_sameDialect (shader : Shader) (entryName : String) :
    (∃ fault, generate shader left entryName = .error fault ∧
      generate shader right entryName = .error fault) ∨
    ∃ entry names leftOutput rightOutput,
      Generated shader left entryName leftOutput entry names ∧
      Generated shader right entryName rightOutput entry names := by
  cases found : shader.function? entryName with
  | none =>
    exact .inl ⟨.missingEntry entryName, by simp [generate, found], by simp [generate, found]⟩
  | some entry =>
    cases chosen : Renaming.ofTokens shader.tokens with
    | error fault =>
      exact .inl ⟨fault, by simp [generate, found, chosen], by simp [generate, found, chosen]⟩
    | ok names =>
      -- The preamble holds no faults, so those of the two programs are the same.
      have faults : (Context.ofEntry shader left entry).program.faults =
          (Context.ofEntry shader right entry).program.faults := by
        rw [Context.program_congr same]
        rfl
      cases listed : (Context.ofEntry shader right entry).program.faults with
      | cons fault later =>
        refine .inl ⟨fault, ?_, ?_⟩
        · simp [generate, found, chosen, faults, listed]
        · simp [generate, found, chosen, listed]
      | nil =>
        have leftRun : Generated shader left entryName
            ⟨(Context.ofEntry shader left entry).program.text names, left.dialect,
              (Context.ofEntry shader left entry).features⟩ entry names :=
          ⟨found, chosen, faults.trans listed, rfl, rfl, rfl⟩
        have rightRun : Generated shader right entryName
            ⟨(Context.ofEntry shader right entry).program.text names, right.dialect,
              (Context.ofEntry shader right entry).features⟩ entry names :=
          ⟨found, chosen, listed, rfl, rfl, rfl⟩
        exact .inr ⟨entry, names, _, _, leftRun, rightRun⟩

/-- The outputs of two targets with one dialect agree in all but the preamble of the text. -/
theorem Generated.sameDialect {shader : Shader} {entryName : String}
    {leftOutput rightOutput : Output} {entry : Function} {names : Renaming}
    (leftRun : Generated shader left entryName leftOutput entry names)
    (rightRun : Generated shader right entryName rightOutput entry names) :
    leftOutput.dialect = rightOutput.dialect ∧ leftOutput.features = rightOutput.features ∧
      ∃ rest,
        leftOutput.text = Line.renderAll
          ((left.preamble leftOutput.features).map (fun text => ⟨0, text⟩) ++ rest) ∧
        rightOutput.text = Line.renderAll
          ((right.preamble rightOutput.features).map (fun text => ⟨0, text⟩) ++ rest) := by
  have features : (Context.ofEntry shader left entry).features =
      (Context.ofEntry shader right entry).features := by
    rw [← Context.ofEntry_retarget same]
    rfl
  refine ⟨?_, ?_, ?_⟩
  · rw [leftRun.dialect, rightRun.dialect, same.dialect]
  · rw [leftRun.features, rightRun.features, features]
  · rw [leftRun.text, rightRun.text, leftRun.features, rightRun.features, features,
      Context.program_congr same]
    simp only [Glsl.Program.text, Glsl.Program.lines, List.append_assoc]
    exact ⟨_, rfl, rfl⟩

/-- Two targets with one dialect and one preamble generate the same. -/
theorem generate_congr (preambles : left.preamble = right.preamble) (shader : Shader)
    (entryName : String) :
    generate shader left entryName = generate shader right entryName := by
  rcases generate_sameDialect same shader entryName with
    ⟨fault, leftFails, rightFails⟩ | ⟨entry, names, leftOutput, rightOutput, leftRun, rightRun⟩
  · rw [leftFails, rightFails]
  · obtain ⟨dialect, features, rest, leftText, rightText⟩ := leftRun.sameDialect same rightRun
    have text : leftOutput.text = rightOutput.text := by
      rw [leftText, rightText, preambles, features]
    rw [generate_eq_ok_iff.2 ⟨entry, names, leftRun⟩, generate_eq_ok_iff.2 ⟨entry, names, rightRun⟩,
      Except.ok.injEq]
    exact congr (congr (congrArg Output.mk text) dialect) features

end Program

/-! ## The mobile families -/

namespace Profile

/-- The two mobile families share their dialects. -/
theorem mobile_sameDialect (requested : Generation) (stage : Stage) :
    SameDialect ⟨.mobileA, requested, stage⟩ ⟨.mobileB, requested, stage⟩ := by
  cases requested <;> exact ⟨rfl, rfl⟩

/-- The macro by which one mobile family samples by gradient in the legacy generation. -/
def gradientMacro : String :=
  "#define textureGrad(s, uv, dx, dy) texture2D(s, uv)"

/-- The other mobile family has no such macro. -/
theorem gradientMacro_notMem (stage : Stage) (features : Features) :
    gradientMacro ∉ preamble ⟨.mobileB, .legacy, stage⟩ features := by
  simp [gradientMacro, preamble, dialectLines, dialect, generation, Dialect.directive, linesIf,
    fetchExtension, mobileLines, closingLines]

/-- The legacy preambles of the mobile families are the same but for one line. -/
theorem mobile_preambles (stage : Stage) (features : Features) :
    ∃ before after,
      preamble ⟨.mobileA, .legacy, stage⟩ features = before ++ gradientMacro :: after ∧
      preamble ⟨.mobileB, .legacy, stage⟩ features = before ++ after := by
  have split (front back rest : List String) :
      Dialect.es100.directive :: (front ++ [gradientMacro] ++ back ++ rest) =
        (Dialect.es100.directive :: front) ++ gradientMacro :: (back ++ rest) := by
    simp
  have joined (front back rest : List String) :
      Dialect.es100.directive :: (front ++ [] ++ back ++ rest) =
        (Dialect.es100.directive :: front) ++ (back ++ rest) := by
    simp
  exact ⟨_, _, (congrArg _ (List.append_assoc _ _ _)).trans (split _ _ _),
    (congrArg _ (List.append_assoc _ _ _)).trans (joined _ _ _)⟩

end Profile

/-- The mobile families generate the same in the modern generation. In the legacy generation they
fail alike, or their texts differ by one line of the preamble. -/
theorem mobile_texts_differ_by_gradientMacro (shader : Shader) (stage : Stage)
    (entryName : String) :
    generate shader ⟨.mobileA, .modern, stage⟩ entryName =
        generate shader ⟨.mobileB, .modern, stage⟩ entryName ∧
    ((∃ fault, generate shader ⟨.mobileA, .legacy, stage⟩ entryName = .error fault ∧
        generate shader ⟨.mobileB, .legacy, stage⟩ entryName = .error fault) ∨
      ∃ left right before after rest,
        generate shader ⟨.mobileA, .legacy, stage⟩ entryName = .ok left ∧
        generate shader ⟨.mobileB, .legacy, stage⟩ entryName = .ok right ∧
        left.dialect = right.dialect ∧ left.features = right.features ∧
        Profile.preamble ⟨.mobileA, .legacy, stage⟩ left.features =
          before ++ Profile.gradientMacro :: after ∧
        Profile.preamble ⟨.mobileB, .legacy, stage⟩ right.features = before ++ after ∧
        Profile.gradientMacro ∉ before ++ after ∧
        left.text = Line.renderAll
          ((before ++ Profile.gradientMacro :: after).map (fun text => ⟨0, text⟩) ++ rest) ∧
        right.text = Line.renderAll
          ((before ++ after).map (fun text => ⟨0, text⟩) ++ rest)) := by
  constructor
  · exact generate_congr (Profile.mobile_sameDialect .modern stage) rfl shader entryName
  have same := Profile.mobile_sameDialect .legacy stage
  rcases generate_sameDialect same shader entryName with
    failed | ⟨entry, names, left, right, leftRun, rightRun⟩
  · exact .inl failed
  obtain ⟨dialect, features, rest, leftText, rightText⟩ := leftRun.sameDialect same rightRun
  obtain ⟨before, after, leftPreamble, rightPreamble⟩ :=
    Profile.mobile_preambles stage left.features
  have absent := Profile.gradientMacro_notMem stage left.features
  rw [rightPreamble] at absent
  rw [leftPreamble] at leftText
  rw [← features, rightPreamble] at rightText
  exact .inr ⟨left, right, before, after, rest, generate_eq_ok_iff.2 ⟨entry, names, leftRun⟩,
    generate_eq_ok_iff.2 ⟨entry, names, rightRun⟩, dialect, features, leftPreamble,
    features ▸ rightPreamble, absent, leftText, rightText⟩

end GlslText
