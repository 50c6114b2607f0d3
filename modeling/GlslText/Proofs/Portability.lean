import GlslText.Proofs.Faults

/-!
# Failures from target to target

What a text is generated for decides how an expression is written, not what is wrong with it: the
faults of the statements, as a list in the order of the text, depend on the shader and the entry
alone. Only a modern fragment text looks for faults elsewhere, in all reads of colour outputs of the
shader and before anything else. So generation fails for one target as it fails for another, apart
from the first unsound read of the shader, which ends the generation of a modern fragment text.
-/

namespace GlslText

/-! ## Faults of expressions -/

/-- Two contexts of one entry of one shader. What the text is meant for may differ. -/
structure Context.SameSource (c d : Context) : Prop where
  shader : c.shader = d.shader
  entry : c.entry = d.entry
  interface : c.interface = d.interface

/-- The contexts of one entry agree whatever they are meant for. -/
theorem Context.sameSource_ofEntry (shader : Shader) (left right : Profile) (entry : Function) :
    (ofEntry shader left entry).SameSource (ofEntry shader right entry) :=
  ⟨rfl, rfl, rfl⟩

namespace Context

/-- A field is bound to a variable as soon as its object is a stage structure that has it. -/
theorem isSome_stageField?_iff {c : Context} {object : Ty} {name : String} :
    (c.stageField? object name).isSome = true ↔
      ∃ struct field, c.interface.struct? (c.interface.roleOf object) = some struct ∧
        struct.field? name = some field := by
  simp only [Option.isSome_iff_exists, stageField?_eq_some_iff]
  constructor
  · rintro ⟨-, struct, field, -, played, found, -, -⟩
    exact ⟨struct, field, played, found⟩
  · rintro ⟨struct, field, played, found⟩
    obtain ⟨binding, bound⟩ :
        ∃ binding, field.binding? c.profile.stage (c.interface.roleOf object) = some binding := by
      cases role : c.interface.roleOf object with
      | generic => simp [role, Interface.struct?] at played
      | input => cases c.profile.stage <;> exact ⟨_, rfl⟩
      | output => exact ⟨_, rfl⟩
    exact ⟨_, struct, field, binding, played, found, bound, rfl⟩

/-- Whether a field is bound to a variable does not depend on the target. -/
theorem SameSource.isSome_stageField? {c d : Context} (same : c.SameSource d) (object : Ty)
    (name : String) :
    (c.stageField? object name).isSome = (d.stageField? object name).isSome := by
  rw [Bool.eq_iff_iff, isSome_stageField?_iff, isSome_stageField?_iff, same.interface]

/-- The faults of an identifier depend on the shader alone. -/
theorem SameSource.faults_identifier {c d : Context} (same : c.SameSource d) (name : String)
    (ty : Ty) : (c.identifier name ty).faults = (d.identifier name ty).faults := by
  simp only [identifier, same.shader]
  split
  · split
    · rfl
    · split <;> rfl
  · rfl

end Context

mutual

/-- What is wrong with an expression does not depend on the target. -/
theorem Expr.faults_lower_congr {c d : Context} (same : c.SameSource d) (hint : Option Ty) :
    (e : Expr) → (e.lower c hint).faults = (e.lower d hint).faults
  | .identifier name ty => by
    simp only [lower, faults_castTo, same.faults_identifier]
  | .literal value ty => by
    simp only [lower, faults_castTo]
  | .unary op operand ty => by
    simp only [lower, faults_castTo, Glsl.Term.faults, operand.faults_lower_congr same]
  | .binary op left right ty => by
    simp only [lower, faults_castTo, Glsl.Term.faults, left.faults_lower_congr same,
      right.faults_lower_congr same]
  | .conditional condition whenTrue whenFalse ty => by
    simp only [lower, faults_castTo, Glsl.Term.faults, condition.faults_lower_congr same,
      whenTrue.faults_lower_congr same, whenFalse.faults_lower_congr same]
  | .member object field ty => by
    simp only [lower, faults_castTo, Context.faults_member, same.isSome_stageField?,
      object.faults_lower_congr same]
  | .index array position ty => by
    simp only [lower, faults_castTo, Glsl.Term.faults, array.faults_lower_congr same,
      position.faults_lower_congr same]
  | .call callee arguments parameters ty => by
    have literal (context : Context) (slot : Fin slotCount)
        (target : fetchTarget arguments = .ok slot) :
        ∀ term ∈ lowerAll context parameters arguments, term.faults = [] :=
      faults_lowerAll_of_target target parameters
    simp only [lower, faults_castTo]
    rw [c.faults_call callee arguments (literal c), d.faults_call callee arguments (literal d),
      faults_lowerAll_congr same parameters arguments]
  | .construct arguments ty => by
    simp only [lower, faults_castTo, Glsl.Term.faults, Glsl.Term.faultsAll_eq_flatMap,
      List.flatMap_def, faults_lowerAll_congr same [] arguments]
  | .cast operand ty => by
    simp only [lower, faults_castTo, Glsl.Term.faults, Glsl.Term.faultsAll,
      operand.faults_lower_congr same]

/-- What is wrong with each of several arguments does not depend on the target. -/
theorem Expr.faults_lowerAll_congr {c d : Context} (same : c.SameSource d) (parameters : List Ty) :
    (es : List Expr) → (lowerAll c parameters es).map Glsl.Term.faults =
      (lowerAll d parameters es).map Glsl.Term.faults
  | [] => rfl
  | e :: rest => by
    simp only [lowerAll, List.map_cons, e.faults_lower_congr same,
      faults_lowerAll_congr same parameters.tail rest]

end

/-! ## Faults of statements -/

section Statements

variable {c d : Context} (same : c.SameSource d)

include same

/-- The faults of sites do not depend on the target. -/
theorem Site.flatMap_faults_congr (sites : List Site) :
    (sites.map (lower c)).flatMap Glsl.Term.faults =
      (sites.map (lower d)).flatMap Glsl.Term.faults := by
  simp only [List.flatMap_map, lower, Expr.faults_lower_congr same]

/-- The faults of a declarator do not depend on the target. -/
theorem Declaration.faults_declarator_congr (declaration : Declaration) :
    (declaration.declarator c).faults = (declaration.declarator d).faults := by
  simp only [Glsl.Declarator.faults_eq_flatMap, terms_declarator, Site.flatMap_faults_congr same]

/-- The faults of a declarator of a type do not depend on the target. -/
theorem Ty.faults_declarator_congr (ty : Ty) (name : String) :
    (ty.declarator c name).faults = (ty.declarator d name).faults := by
  simp only [Glsl.Declarator.faults_eq_flatMap, terms_declarator, Site.flatMap_faults_congr same]

/-- The faults of an effect do not depend on the target. -/
theorem Expr.faults_lowerEffect_congr (e : Expr) :
    (e.lowerEffect c).faults = (e.lowerEffect d).faults := by
  simp only [Glsl.Effect.faults_eq_flatMap, terms_lowerEffect, Site.flatMap_faults_congr same]

/-- The faults of a lowered declaration do not depend on the target. -/
theorem Declaration.faults_lower_congr (scope : Scope) (declaration : Declaration) :
    Glsl.Stmt.faultsAll (declaration.lower c scope) =
      Glsl.Stmt.faultsAll (declaration.lower d scope) := by
  have declared (storage : Glsl.Storage) :
      Glsl.Stmt.faultsAll [.declare storage (declaration.declarator c)] =
        Glsl.Stmt.faultsAll [.declare storage (declaration.declarator d)] := by
    simp only [Glsl.Stmt.faultsAll, Glsl.Stmt.faults, declaration.faults_declarator_congr same]
  have suppressed : declaration.isSuppressed c = declaration.isSuppressed d := by
    rw [isSuppressed, isSuppressed, same.interface]
  unfold lower lowerGlobal
  rw [suppressed]
  split
  · rfl
  split
  · split
    · split
      · simp only [Glsl.Stmt.faultsAll, Glsl.Stmt.faults, Glsl.Replacement.faults_eq_flatMap,
          Glsl.Replacement.terms, terms_arrayLiteral, Site.flatMap_faults_congr same]
      · rfl
    · split
      · cases declaration.textureUnit <;> rfl
      · exact declared _
  · exact declared _

/-- The faults of a lowered result do not depend on the target. -/
theorem Expr.faults_lowerResult_congr (scope : Scope) (value : Expr) :
    Glsl.Stmt.faultsAll (value.lowerResult c scope) =
      Glsl.Stmt.faultsAll (value.lowerResult d scope) := by
  have sites : value.resultSites c scope = value.resultSites d scope := by
    simp only [resultSites, same.interface, same.entry, Context.isSome_returnVariable?]
  rw [faults_lowerResult, faults_lowerResult, sites, Site.flatMap_faults_congr same]

namespace Statement

omit same in
/-- The faults of a body do not depend on the target when those of its statements do not. -/
theorem faults_body_congr {scope : Scope} {body : List Statement}
    (each : ∀ s ∈ body, Glsl.Stmt.faultsAll (s.lower c scope) =
      Glsl.Stmt.faultsAll (s.lower d scope)) :
    Glsl.Stmt.faultsAll (lowerAll c scope body) = Glsl.Stmt.faultsAll (lowerAll d scope body) := by
  have split (context : Context) : Glsl.Stmt.faultsAll (lowerAll context scope body) =
      body.flatMap fun s => Glsl.Stmt.faultsAll (s.lower context scope) := by
    simp only [lowerAll_eq_flatMap, Glsl.Stmt.faultsAll_eq_flatMap, List.flatMap_assoc]
  rw [split c, split d]
  exact List.flatMap_congr each

/-- What is wrong with a statement does not depend on the target. -/
theorem faults_lower_congr (s : Statement) (scope : Scope) :
    Glsl.Stmt.faultsAll (s.lower c scope) = Glsl.Stmt.faultsAll (s.lower d scope) := by
  induction s using bodyInduction generalizing scope with
  | declare declaration => exact declaration.faults_lower_congr same scope
  | struct definition =>
    simp only [lower, Struct.lower, same.interface]
    split
    · simp only [Glsl.Stmt.faultsAll, Glsl.Stmt.faults, List.flatMap_map,
        Ty.faults_declarator_congr same]
    · rfl
  | buffer name content =>
    simp only [lower, Declaration.lowerBuffer]
    split <;>
      simp only [Glsl.Stmt.faultsAll, Glsl.Stmt.faults, Glsl.Declarator.faults_eq_flatMap,
        Glsl.Declarator.terms, Option.toList_some, List.flatMap_cons, List.flatMap_nil,
        Ty.terms_lowerBrackets, List.append_nil, Option.toList_none, Glsl.Replacement.faults,
        Site.flatMap_faults_congr same]
  | function signature body ih =>
    simp only [lower, same.entry]
    split
    · rfl
    · simp only [Glsl.Stmt.faultsAll, Glsl.Stmt.faults, Glsl.Prototype.faults_eq_flatMap,
        Signature.terms_prototype, Site.flatMap_faults_congr same]
      rw [faults_body_congr fun s member => ih s member (scope.ofFunction signature)]
  | branch condition whenTrue ih =>
    simp only [lower, Glsl.Stmt.faultsAll, Glsl.Stmt.faults, condition.faults_lower_congr same]
    rw [faults_body_congr fun s member => ih s member scope.inner]
  | branchElse condition whenTrue whenFalse ihTrue ihFalse =>
    simp only [lower, Glsl.Stmt.faultsAll, Glsl.Stmt.faults, condition.faults_lower_congr same]
    rw [faults_body_congr fun s member => ihTrue s member scope.inner,
      faults_body_congr fun s member => ihFalse s member scope.inner]
  | loop start condition step body ih =>
    have head : (start.map (Declaration.declarator c)).toList.flatMap Glsl.Declarator.faults =
        (start.map (Declaration.declarator d)).toList.flatMap Glsl.Declarator.faults := by
      cases start <;> simp [Declaration.faults_declarator_congr same]
    have test : (condition.map (Expr.lower c (some boolTy))).toList.flatMap Glsl.Term.faults =
        (condition.map (Expr.lower d (some boolTy))).toList.flatMap Glsl.Term.faults := by
      cases condition <;> simp [Expr.faults_lower_congr same]
    have effect : (step.map (Expr.lowerEffect c)).toList.flatMap Glsl.Effect.faults =
        (step.map (Expr.lowerEffect d)).toList.flatMap Glsl.Effect.faults := by
      cases step <;> simp [Expr.faults_lowerEffect_congr same]
    simp only [lower, Glsl.Stmt.faultsAll, Glsl.Stmt.faults, head, test, effect]
    rw [faults_body_congr fun s member => ih s member scope.inner]
  | block body ih =>
    simp only [lower, Glsl.Stmt.faultsAll, Glsl.Stmt.faults]
    rw [faults_body_congr fun s member => ih s member scope.inner]
  | result value =>
    cases value with
    | none => rfl
    | some value => exact value.faults_lowerResult_congr same scope
  | discard =>
    simp only [lower]
    split <;> split <;> rfl
  | leave => rfl
  | next => rfl
  | evaluate expr =>
    simp only [lower, Glsl.Stmt.faultsAll, Glsl.Stmt.faults, expr.faults_lowerEffect_congr same]

end Statement

end Statements

/-- The faults of a program apart from those found in declaring its colour outputs. -/
def Glsl.Program.codeFaults (program : Glsl.Program) : List Fault :=
  Stmt.faultsAll program.globals ++ program.properties.flatMap Declarator.faults
    ++ Stmt.faultsAll program.body

/-- The faults of a program are those of its colour outputs in front of those of its code. -/
theorem Glsl.Program.faults_eq (program : Glsl.Program) :
    program.faults = program.outputFaults ++ program.codeFaults := by
  simp only [faults, codeFaults, List.append_assoc]

/-- What is wrong with the statements of a program does not depend on the target. -/
theorem Context.SameSource.codeFaults {c d : Context} (same : c.SameSource d) :
    c.program.codeFaults = d.program.codeFaults := by
  have globals : Glsl.Stmt.faultsAll c.program.globals =
      Glsl.Stmt.faultsAll d.program.globals := by
    simp only [program, same.shader]
    exact Statement.faults_body_congr fun s _ => s.faults_lower_congr same Scope.global
  have properties : c.program.properties.flatMap Glsl.Declarator.faults =
      d.program.properties.flatMap Glsl.Declarator.faults := by
    simp only [program, same.shader, List.flatMap_map, Declaration.faults_declarator_congr same]
  have body : Glsl.Stmt.faultsAll c.program.body = Glsl.Stmt.faultsAll d.program.body := by
    have scope : c.mainScope = d.mainScope := by rw [mainScope, mainScope, same.entry]
    simp only [program, same.entry, scope]
    exact Statement.faults_body_congr fun s _ => s.faults_lower_congr same d.mainScope
  rw [Glsl.Program.codeFaults, globals, properties, body, Glsl.Program.codeFaults]

/-! ## Outcomes -/

/-- The fault that generation ends with, if it fails. -/
def failure? (outcome : Except Fault Output) : Option Fault :=
  match outcome with
  | .ok _ => none
  | .error fault => some fault

/-- The targets whose texts declare colour outputs. -/
def Profile.IsModernFragment (profile : Profile) : Prop :=
  profile.stage = .fragment ∧ profile.generation = .modern

instance (profile : Profile) : Decidable profile.IsModernFragment :=
  inferInstanceAs (Decidable (_ ∧ _))

/-- The faults that end generation before anything is rendered: there is no such entry, or no free
name is left. -/
def Fault.isEarly : Fault → Bool
  | missingEntry _ => true
  | exhausted _ => true
  | _ => false

/-- What is wrong with a read of a colour output. -/
def Expr.readFault? : Expr → Option Fault
  | .call callee arguments _ _ =>
    if callee = fetchCallee then
      match fetchTarget arguments with
      | .ok _ => none
      | .error cause => some (.fetch cause)
    else
      none
  | _ => none

/-- The first fault in the reads of a shader is that of the first unsound read in the order of the
walk. -/
theorem Shader.head?_fetchFaults (shader : Shader) :
    shader.fetchFaults.head? = shader.walk.findSome? Expr.readFault? := by
  rw [fetchFaults, calls, List.filterMap_filterMap, List.head?_filterMap]
  congr 1
  funext e
  cases e with
  | call callee arguments parameters ty =>
    by_cases read : callee = fetchCallee
    · cases target : fetchTarget arguments with
      | ok slot => simp [Expr.call?, Expr.readFault?, read, target]
      | error cause => simp [Expr.call?, Expr.readFault?, read, target, Option.filter_some]
    · simp [Expr.call?, Expr.readFault?, read]
  | _ => rfl

/-- Names can only fail to be chosen for want of a free one. -/
theorem Renaming.isEarly_of_ofTokens {tokens : List String} {fault : Fault}
    (failed : ofTokens tokens = .error fault) : fault.isEarly = true := by
  have exhausted (bases : List String) :
      ∀ fault, choose tokens bases = .error fault → fault.isEarly = true := by
    induction bases with
    | nil => simp [choose]
    | cons base rest ih =>
      intro fault failed
      rw [choose] at failed
      split at failed
      · obtain rfl := Except.error.inj failed
        rfl
      · split at failed
        · rename_i later
          exact ih fault (later.trans failed)
        · cases failed
  unfold ofTokens at failed
  split at failed
  · rename_i first found
    obtain rfl := Except.error.inj failed
    exact exhausted aliasBases first found
  · cases failed

/-- The fault of a sampler without a texture unit is not an early one. -/
theorem Declaration.isEarly_of_textureUnit {declaration : Declaration} {fault : Fault}
    (unbound : declaration.textureUnit = .error fault) : fault.isEarly = false := by
  unfold textureUnit at unbound
  split at unbound
  · obtain rfl := Except.error.inj unbound
    rfl
  · split at unbound
    · cases unbound
    · obtain rfl := Except.error.inj unbound
      rfl

/-- No fault of a program is an early one. -/
theorem Context.isEarly_of_mem_faults {c : Context} {fault : Fault}
    (faulty : fault ∈ c.program.faults) : fault.isEarly = false := by
  rcases mem_faults_program.1 faulty with ⟨-, read⟩ | ⟨⟨hint, e⟩, -, own⟩ | ⟨s, -, unbound⟩
  · obtain ⟨call, -, cause⟩ := List.mem_filterMap.1 read
    split at cause
    · cases cause
    · obtain rfl := Option.some.inj cause
      rfl
  · change e.Faulty c.shader fault at own
    cases own with
    | product => rfl
    | saturation => rfl
    | read => rfl
    | sampler _ _ _ unbound => exact Declaration.isEarly_of_textureUnit unbound
  · cases unbound with
    | sampler _ _ unbound => exact Declaration.isEarly_of_textureUnit unbound

/-- Generation ends with an early fault, which no target has a part in, or with the first fault of
the program. -/
theorem failure?_generate (shader : Shader) (entryName : String) :
    (∃ fault, fault.isEarly = true ∧
      ∀ profile, failure? (generate shader profile entryName) = some fault) ∨
    ∃ entry, shader.function? entryName = some entry ∧ ∀ profile,
      failure? (generate shader profile entryName) =
        (Context.ofEntry shader profile entry).program.faults.head? := by
  cases found : shader.function? entryName with
  | none =>
    refine Or.inl ⟨.missingEntry entryName, rfl, fun profile => ?_⟩
    rw [generate, found, failure?]
  | some entry =>
    cases chosen : Renaming.ofTokens shader.tokens with
    | error fault =>
      refine Or.inl ⟨fault, Renaming.isEarly_of_ofTokens chosen, fun profile => ?_⟩
      simp only [generate, found, chosen, failure?]
    | ok names =>
      refine Or.inr ⟨entry, rfl, fun profile => ?_⟩
      simp only [generate, found, chosen]
      cases (Context.ofEntry shader profile entry).program.faults <;> rfl

/-- The first fault of a program is that of the first unsound read of the shader if the target
declares colour outputs and there is one, and else the first fault of its statements. -/
theorem Context.head?_faults (shader : Shader) (profile : Profile) (entry : Function) :
    (ofEntry shader profile entry).program.faults.head? =
      (if profile.IsModernFragment then shader.walk.findSome? Expr.readFault? else none).or
        (ofEntry shader profile entry).program.codeFaults.head? := by
  have declares : (ofEntry shader profile entry).declaresOutputs = true ↔
      profile.IsModernFragment :=
    declaresOutputs_iff
  have outputFaults : (ofEntry shader profile entry).program.outputFaults =
      if profile.IsModernFragment then shader.fetchFaults else [] := by
    simp only [program, declares]
    rfl
  rw [Glsl.Program.faults_eq, outputFaults, List.head?_append]
  split
  · rw [shader.head?_fetchFaults]
  · rfl

/-- For two targets that declare no colour outputs generation succeeds for both or fails for both
with the same fault. For a target that declares colour outputs it ends with an early fault exactly
when it does so for any other. Otherwise it ends with the fault of the first unsound read in the
order of the walk, if the shader has one, and else as for any other target. -/
theorem failures_portable (shader : Shader) (entryName : String) (left : Profile)
    {right : Profile} (undeclared : ¬right.IsModernFragment) :
    (¬left.IsModernFragment →
      failure? (generate shader left entryName) = failure? (generate shader right entryName)) ∧
    (left.IsModernFragment →
      (∀ fault, fault.isEarly = true →
        (failure? (generate shader left entryName) = some fault ↔
          failure? (generate shader right entryName) = some fault)) ∧
      ((∀ fault, failure? (generate shader right entryName) = some fault →
          fault.isEarly = false) →
        failure? (generate shader left entryName) =
          (shader.walk.findSome? Expr.readFault?).or
            (failure? (generate shader right entryName)))) := by
  rcases failure?_generate shader entryName with ⟨early, isEarly, failed⟩ | ⟨entry, found, failed⟩
  · -- Both targets end with the same early fault.
    rw [failed left, failed right]
    refine ⟨fun _ => rfl, fun _ => ⟨fun _ _ => Iff.rfl, fun late => ?_⟩⟩
    rw [late early rfl] at isEarly
    cases isEarly
  · have same := (Context.sameSource_ofEntry shader left right entry).codeFaults
    have late (profile : Profile) (fault : Fault) (isEarly : fault.isEarly = true) :
        failure? (generate shader profile entryName) ≠ some fault := by
      intro first
      rw [failed profile] at first
      rw [Context.isEarly_of_mem_faults (List.mem_of_mem_head? first)] at isEarly
      cases isEarly
    refine ⟨fun alsoUndeclared => ?_, fun declared => ⟨fun fault isEarly => ?_, fun _ => ?_⟩⟩
    · rw [failed left, failed right, Context.head?_faults, Context.head?_faults,
        if_neg alsoUndeclared, if_neg undeclared, same]
    · exact ⟨fun first => absurd first (late left fault isEarly),
        fun first => absurd first (late right fault isEarly)⟩
    · rw [failed left, failed right, Context.head?_faults, Context.head?_faults,
        if_pos declared, if_neg undeclared, same, Option.none_or]

/-- A read of no colour output where nothing is rendered, and a saturation of nothing. -/
def strayRead : Shader :=
  let void := Ty.ofBase .void
  [.function ⟨"main", void, none, []⟩
    [.declare ⟨"unused", Ty.ofBase .texture, none, none, [.ofCall fetchCallee [] void]⟩,
    .evaluate (.ofCall "Saturate" [] void)]]

/-- The read that nothing renders ends the generation of a modern fragment on a mobile platform. The
other targets fail at the saturation. -/
theorem strayRead_fails :
    failure? (generate strayRead ⟨.mobileA, .modern, .fragment⟩ "main") =
        some (.fetch (.count 0)) ∧
      failure? (generate strayRead ⟨.desktopMac, .modern, .fragment⟩ "main") =
        some (.arity "saturate" 1 0) ∧
      failure? (generate strayRead ⟨.mobileA, .modern, .vertex⟩ "main") =
        some (.arity "saturate" 1 0) := by
  have vertex : failure? (generate strayRead ⟨.mobileA, .modern, .vertex⟩ "main") =
      some (.arity "saturate" 1 0) := by
    decide +kernel
  have read : (Shader.walk strayRead).findSome? Expr.readFault? = some (.fetch (.count 0)) := rfl
  have undeclared : ¬Profile.IsModernFragment ⟨.mobileA, .modern, .vertex⟩ := by decide
  have mac := (failures_portable strayRead "main" ⟨.desktopMac, .modern, .fragment⟩ undeclared).1
    (by decide)
  have modern := ((failures_portable strayRead "main" ⟨.mobileA, .modern, .fragment⟩
    undeclared).2 (by decide)).2
  rw [vertex] at mac modern
  refine ⟨?_, mac, vertex⟩
  rw [modern fun fault first => Option.some.inj first ▸ rfl, read]
  rfl

end GlslText
