import GlslText.Proofs.Aliases
import GlslText.Proofs.ColorOutputs

/-!
# Faults of a program

A fault stands in the program where it was found: at the term of a faulty expression, in place of
a global sampler without a texture unit, or among the reads of colour outputs that a modern
fragment text looks through. So a program is free of faults exactly when no expression that it
renders is faulty by itself, every global sampler has its texture unit, and, where colour outputs
are declared, every read of the shader names one. Together with the entry and the aliases this is
all that generation asks for.
-/

namespace GlslText

/-! ## Faulty expressions -/

/-- What is wrong with an expression by itself, whatever its operands are. -/
inductive Expr.Faulty (shader : Shader) : Expr → Fault → Prop where
  | product {callee : String} {arguments : List Expr} {parameters : List Ty} {ty : Ty}
      (isProduct : alike callee "mul" = true) (count : arguments.length ≠ 2) :
      Faulty shader (.call callee arguments parameters ty) (.arity "mul" 2 arguments.length)
  | saturation {callee : String} {arguments : List Expr} {parameters : List Ty} {ty : Ty}
      (isSaturation : alike callee "saturate" = true) (count : arguments.length ≠ 1) :
      Faulty shader (.call callee arguments parameters ty) (.arity "saturate" 1 arguments.length)
  | read {arguments : List Expr} {parameters : List Ty} {ty : Ty} {cause : FetchFault}
      (target : fetchTarget arguments = .error cause) :
      Faulty shader (.call fetchCallee arguments parameters ty) (.fetch cause)
  | sampler {name : String} {ty : Ty} {found : Declaration} {fault : Fault}
      (sampled : ty.base.isSampler = true) (declared : shader.declaration? name = some found)
      (isSampler : found.ty.base.isSampler = true) (unbound : found.textureUnit = .error fault) :
      Faulty shader (.identifier name ty) fault

/-- A call is faulty as a product, a saturation or a read of a colour output. -/
theorem Expr.faulty_call_iff {shader : Shader} {callee : String} {arguments : List Expr}
    {parameters : List Ty} {ty : Ty} {fault : Fault} :
    (Expr.call callee arguments parameters ty).Faulty shader fault ↔
      (alike callee "mul" = true ∧ arguments.length ≠ 2 ∧
        fault = .arity "mul" 2 arguments.length) ∨
      (alike callee "saturate" = true ∧ arguments.length ≠ 1 ∧
        fault = .arity "saturate" 1 arguments.length) ∨
      callee = fetchCallee ∧ ∃ cause, fetchTarget arguments = .error cause ∧
        fault = .fetch cause := by
  constructor
  · intro faulty
    cases faulty with
    | product isProduct count => exact Or.inl ⟨isProduct, count, rfl⟩
    | saturation isSaturation count => exact Or.inr (Or.inl ⟨isSaturation, count, rfl⟩)
    | read target => exact Or.inr (Or.inr ⟨rfl, _, target, rfl⟩)
  · rintro (⟨isProduct, count, rfl⟩ | ⟨isSaturation, count, rfl⟩ | ⟨rfl, cause, target, rfl⟩)
    · exact .product isProduct count
    · exact .saturation isSaturation count
    · exact .read target

/-- A read of a colour output is neither a product nor a saturation. -/
theorem alike_fetchCallee :
    alike fetchCallee "mul" = false ∧ alike fetchCallee "saturate" = false := by
  decide

/-- A product is no saturation. -/
theorem not_saturation_of_product {callee : String} (isProduct : alike callee "mul" = true) :
    alike callee "saturate" = false := by
  have folded : foldCase callee = foldCase "mul" := (alike_iff _ _).1 isProduct
  rw [alike, folded]
  decide

/-- A fault is in the terms of a list exactly when it is in one of them. -/
theorem Glsl.Term.mem_faultsAll {fault : Fault} {terms : List Glsl.Term} :
    fault ∈ faultsAll terms ↔ ∃ term ∈ terms, fault ∈ term.faults := by
  rw [faultsAll_eq_flatMap, List.mem_flatMap]

/-- The faults of a call, given those of each of its arguments. A sound read of a colour output has
none, since its argument is a literal. -/
def callFaults (callee : String) (arguments : List Expr) (inner : List (List Fault)) :
    List Fault :=
  if callee = fetchCallee then
    match fetchTarget arguments with
    | .ok _ => []
    | .error cause => .fetch cause :: inner.flatten
  else if alike callee "mul" then
    match inner with
    | [left, right] => right ++ left
    | _ => [.arity "mul" 2 inner.length]
  else if alike callee "saturate" then
    match inner with
    | [value] => value
    | _ => [.arity "saturate" 1 inner.length]
  else
    inner.flatten

namespace Context

variable {c : Context} {fault : Fault}

/-- An identifier has a fault only as a sampler without a texture unit. -/
theorem mem_faults_identifier {name : String} {ty : Ty} :
    fault ∈ (c.identifier name ty).faults ↔ (Expr.identifier name ty).Faulty c.shader fault := by
  constructor
  · intro found
    simp only [identifier] at found
    split at found
    · rename_i sampled
      split at found
      · cases found
      · rename_i declaration resolved
        obtain ⟨declared, isSampler⟩ := Option.filter_eq_some_iff.1 resolved
        split at found
        · cases found
        · rename_i unbound
          obtain rfl := List.mem_singleton.1 found
          exact .sampler sampled declared isSampler unbound
    · cases found
  · intro faulty
    cases faulty with
    | @sampler _ _ found _ sampled declared isSampler unbound =>
      have resolved : (c.shader.declaration? name).filter (fun found => found.ty.base.isSampler) =
          some found := by
        rw [declared, Option.filter_some, if_pos isSampler]
      simp only [identifier, sampled, if_true, resolved, unbound]
      exact List.mem_cons_self

/-- The variable of a bound field has no faults. -/
theorem faults_boundField (field : Field) (binding : Binding) :
    (c.boundField field binding).faults = [] := by
  cases binding <;> rfl

/-- A selection has the faults of its object, unless a variable stands for it. -/
theorem faults_member (c : Context) (object : Ty) (field : String) (term : Glsl.Term) :
    (c.member object field term).faults =
      if (c.stageField? object field).isSome then [] else term.faults := by
  unfold member
  cases bound : c.stageField? object field with
  | some variableTerm =>
    obtain ⟨struct, declared, binding, -, -, -, rfl⟩ := stageField?_eq_some_iff.1 bound
    simp [faults_boundField]
  | none =>
    by_cases scalar : object.base.isNumericScalar = true
    · cases Helper.ofSwizzle? field.utf8ByteSize with
      | some helper => simp [scalar, Glsl.Term.faults, Glsl.Term.faultsAll]
      | none => simp [scalar, Glsl.Term.faults]
    · simp [scalar, Glsl.Term.faults]

/-- A fault of a selection is one of its object, which no variable stands for. -/
theorem mem_faults_member {object : Ty} {field : String} {term : Glsl.Term} :
    fault ∈ (c.member object field term).faults ↔
      (c.stageField? object field).isSome = false ∧ fault ∈ term.faults := by
  rw [faults_member]
  cases (c.stageField? object field).isSome <;> simp

/-- The faults of a call come from its arguments and its callee, whatever the target. -/
theorem faults_call (c : Context) (callee : String) (arguments : List Expr)
    {terms : List Glsl.Term}
    (literal : ∀ slot, fetchTarget arguments = .ok slot → ∀ term ∈ terms, term.faults = []) :
    (c.call callee arguments terms).faults =
      callFaults callee arguments (terms.map Glsl.Term.faults) := by
  have all : Glsl.Term.faultsAll terms = (terms.map Glsl.Term.faults).flatten := by
    rw [Glsl.Term.faultsAll_eq_flatMap, List.flatMap_def]
  have form := c.callForm_call callee arguments terms
  generalize c.call callee arguments terms = whole at form ⊢
  cases form with
  | ordinary noRead noProduct noSaturation =>
    simp [callFaults, noRead, noProduct, noSaturation, Glsl.Term.faults, all]
  | legacyRead slot read target legacy =>
    simpa [callFaults, read, target, Glsl.Term.faults, all] using literal slot target
  | modernRead slot read target modern =>
    simp [callFaults, read, target, Glsl.Term.faults]
  | faultyRead cause read target =>
    simp [callFaults, read, target, Glsl.Term.faults, all]
  | product left right noRead isProduct two =>
    simp [callFaults, noRead, isProduct, two, Glsl.Term.faults]
  | faultyProduct noRead isProduct count =>
    simp only [callFaults, noRead, isProduct, ↓reduceIte, Glsl.Term.faults, List.length_map]
    split
    · rename_i pair
      exact absurd (by simpa using congrArg List.length pair) count
    · rfl
  | saturation value noRead noProduct isSaturation one =>
    simp [callFaults, noRead, noProduct, isSaturation, one, Glsl.Term.faults,
      Glsl.Term.faultsAll, Glsl.Term.ofWord]
  | faultySaturation noRead noProduct isSaturation count =>
    simp only [callFaults, noRead, noProduct, isSaturation, ↓reduceIte, Bool.false_eq_true,
      Glsl.Term.faults, List.length_map]
    split
    · rename_i single
      exact absurd (by simpa using congrArg List.length single) count
    · rfl

/-- A call has the faults it has by itself, and those of its arguments if it renders them. -/
theorem mem_faults_call {callee : String} {arguments : List Expr} (parameters : List Ty) (ty : Ty)
    {terms : List Glsl.Term} (counted : terms.length = arguments.length)
    (literal : ∀ slot, fetchTarget arguments = .ok slot → ∀ term ∈ terms, term.faults = []) :
    fault ∈ (c.call callee arguments terms).faults ↔
      (Expr.call callee arguments parameters ty).Faulty c.shader fault ∨
        c.rendersArguments callee arguments = true ∧ ∃ term ∈ terms, fault ∈ term.faults := by
  rw [c.faults_call callee arguments literal, Expr.faulty_call_iff]
  unfold callFaults rendersArguments
  by_cases read : callee = fetchCallee
  · cases target : fetchTarget arguments with
    | ok slot =>
      -- Whether or not the target renders the argument, it is a literal.
      have sound : ¬∃ term ∈ terms, fault ∈ term.faults := by
        rintro ⟨term, listed, faulty⟩
        rw [literal slot target term listed] at faulty
        cases faulty
      simp [read, alike_fetchCallee, sound]
    | error cause => simp [read, alike_fetchCallee, Except.toOption]
  by_cases isProduct : alike callee "mul" = true
  · have notSaturation := not_saturation_of_product isProduct
    rcases terms with _ | ⟨left, _ | ⟨right, _ | ⟨third, rest⟩⟩⟩
    · simp [read, isProduct, notSaturation, ← counted]
    · simp [read, isProduct, notSaturation, ← counted]
    · simp [read, isProduct, notSaturation, ← counted, or_comm]
    · simp [read, isProduct, notSaturation, ← counted]
  by_cases isSaturation : alike callee "saturate" = true
  · rcases terms with _ | ⟨value, _ | ⟨second, rest⟩⟩ <;>
      simp [read, isProduct, isSaturation, ← counted]
  · simp [read, isProduct, isSaturation]

end Context

/-- The argument of a sound read is a literal, which has no faults. -/
theorem faults_lowerAll_of_target {c : Context} {arguments : List Expr} {slot : Fin slotCount}
    (target : fetchTarget arguments = .ok slot) (parameters : List Ty) :
    ∀ term ∈ Expr.lowerAll c parameters arguments, term.faults = [] := by
  obtain ⟨ty, rfl | rfl⟩ := fetchTarget_eq_ok_iff.1 target <;>
    simp [Expr.lowerAll, Expr.lower, faults_castTo, Glsl.Term.faults]

namespace Site

variable {c : Context} {fault : Fault}

/-- A fault of one of the terms of several sites is a fault of one of the sites. -/
theorem mem_faults_map {sites : List Site} :
    (∃ term ∈ sites.map (lower c), fault ∈ term.faults) ↔
      ∃ site ∈ sites, fault ∈ (site.lower c).faults := by
  simp

/-- The faults of terms that stand for sites are those of the sites. -/
theorem mem_flatMap_faults {sites : List Site} :
    fault ∈ (sites.map (lower c)).flatMap Glsl.Term.faults ↔
      ∃ site ∈ sites, fault ∈ (site.lower c).faults := by
  rw [List.mem_flatMap, mem_faults_map]

/-- The faults of a site's term are those of its expression by itself and those of its
operands. -/
theorem mem_faults_lower_step {site : Site} :
    fault ∈ (site.lower c).faults ↔
      site.expr.Faulty c.shader fault ∨
        ∃ inner ∈ site.expr.operands c, fault ∈ (inner.lower c).faults := by
  obtain ⟨hint, e⟩ := site
  change fault ∈ (e.lower c hint).faults ↔ _
  -- Only identifiers and calls are faulty by themselves.
  have sound {whole : Glsl.Term} {below : Prop} (noFault : ¬e.Faulty c.shader fault)
      (same : fault ∈ whole.faults ↔ below) :
      fault ∈ whole.faults ↔ e.Faulty c.shader fault ∨ below := by
    rw [same]
    exact (or_iff_right noFault).symm
  rw [Expr.lower.eq_def, faults_castTo]
  cases e with
  | identifier name ty =>
    simp [Context.mem_faults_identifier, Expr.operands]
  | call callee arguments parameters ty =>
    simp only [Expr.operands]
    rw [Context.mem_faults_call parameters ty (by simp [lowerAll_eq_map])
      (fun _ target => faults_lowerAll_of_target target parameters), lowerAll_eq_map,
      mem_faults_map]
    by_cases renders : c.rendersArguments callee arguments = true <;> simp [renders]
  | literal value ty => exact sound (by rintro ⟨⟩) (by simp [Expr.operands, Glsl.Term.faults])
  | unary op operand ty =>
    exact sound (by rintro ⟨⟩) (by simp [Expr.operands, Glsl.Term.faults, lower])
  | binary op left right ty =>
    exact sound (by rintro ⟨⟩) (by simp [Expr.operands, Glsl.Term.faults, lower])
  | conditional condition whenTrue whenFalse ty =>
    exact sound (by rintro ⟨⟩) (by simp [Expr.operands, Glsl.Term.faults, lower])
  | member object field ty =>
    refine sound (by rintro ⟨⟩) ?_
    rw [Context.mem_faults_member, Expr.operands]
    by_cases bound : (c.stageField? object.ty field).isSome = true <;> simp [bound, lower]
  | index array position ty =>
    exact sound (by rintro ⟨⟩) (by simp [Expr.operands, Glsl.Term.faults, lower])
  | construct arguments ty =>
    refine sound (by rintro ⟨⟩) ?_
    simp only [Expr.operands, Glsl.Term.faults]
    rw [Glsl.Term.mem_faultsAll, lowerAll_eq_map, mem_faults_map]
  | cast operand ty =>
    exact sound (by rintro ⟨⟩)
      (by simp [Expr.operands, Glsl.Term.faults, Glsl.Term.faultsAll, lower])

/-- Every fault of a site's term is one of its parts' own. -/
theorem mem_faults_lower {site : Site} :
    fault ∈ (site.lower c).faults ↔ ∃ part ∈ site.parts c, part.expr.Faulty c.shader fault := by
  induction site using operandInduction c with
  | step site ih =>
    rw [mem_faults_lower_step]
    constructor
    · rintro (own | ⟨inner, operand, below⟩)
      · exact ⟨site, mem_parts_self c site, own⟩
      · obtain ⟨part, inside, faulty⟩ := (ih inner operand).1 below
        exact ⟨part, mem_parts.2 (Or.inr ⟨inner, operand, inside⟩), faulty⟩
    · rintro ⟨part, inside, faulty⟩
      rcases mem_parts.1 inside with rfl | ⟨inner, operand, deeper⟩
      · exact Or.inl faulty
      · exact Or.inr ⟨inner, operand, (ih inner operand).2 ⟨part, deeper, faulty⟩⟩

end Site

/-! ## Faulty statements -/

namespace Glsl

/-- The faults of an array literal are those of its terms, in their order. -/
theorem ArrayLiteral.faults_eq_flatMap (literal : ArrayLiteral) :
    literal.faults = literal.terms.flatMap Term.faults := by
  simp [faults, terms, Brackets.faults, Brackets.terms, Term.faultsAll_eq_flatMap]

/-- The faults of an initial value are those of its terms, in their order. -/
theorem Initial.faults_eq_flatMap (initial : Initial) :
    initial.faults = initial.terms.flatMap Term.faults := by
  cases initial with
  | value term => simp [faults, terms]
  | array literal => exact literal.faults_eq_flatMap

/-- The faults of a declarator are those of its terms, in their order. -/
theorem Declarator.faults_eq_flatMap (declarator : Declarator) :
    declarator.faults = declarator.terms.flatMap Term.faults := by
  have brackets : Brackets.faults = fun brackets => brackets.terms.flatMap Term.faults := rfl
  have initial : Initial.faults = fun initial => initial.terms.flatMap Term.faults :=
    funext Initial.faults_eq_flatMap
  simp [faults, terms, brackets, initial, List.flatMap_assoc]

/-- The faults of the head of a function are those of its terms, in their order. -/
theorem Prototype.faults_eq_flatMap (prototype : Prototype) :
    prototype.faults = prototype.terms.flatMap Term.faults := by
  simp [faults, terms, Declarator.faults_eq_flatMap, List.flatMap_assoc]

/-- The faults of the replacement of a macro are those of its terms, in their order. -/
theorem Replacement.faults_eq_flatMap (replacement : Replacement) :
    replacement.faults = replacement.terms.flatMap Term.faults := by
  cases replacement with
  | array literal => exact literal.faults_eq_flatMap
  | name target => rfl

/-- The faults of an effect are those of its terms, in their order. -/
theorem Effect.faults_eq_flatMap (done : Effect) :
    done.faults = done.terms.flatMap Term.faults := by
  cases done <;> simp [faults, terms]

end Glsl

/-- A global sampler that is no property and whose register names no texture unit. -/
inductive Statement.Unbound : Statement → Fault → Prop where
  | sampler {declaration : Declaration} {fault : Fault}
      (noProperty : declaration.ty.isProperty = false)
      (isSampler : declaration.ty.base.isSampler = true)
      (unbound : declaration.textureUnit = .error fault) : Unbound (.declare declaration) fault

/-- A sampler leaves a trace. -/
theorem Declaration.isSuppressed_sampler {c : Context} {declaration : Declaration}
    (isSampler : declaration.ty.base.isSampler = true) : declaration.isSuppressed c = false := by
  have apart : declaration.ty.base ≠ .texture ∧ declaration.ty.base ≠ .userDefined := by
    constructor <;> intro same <;> simp [same, BaseType.isSampler] at isSampler
  simp [isSuppressed, Interface.roleOf, Ty.structName, apart]

section Statements

variable {c : Context} {fault : Fault}

/-- The faults of a lowered declaration are those of its sites and, at global level, that of a
sampler without a texture unit. -/
theorem Declaration.mem_faults_lower {scope : Scope} {declaration : Declaration} :
    fault ∈ Glsl.Stmt.faultsAll (declaration.lower c scope) ↔
      (∃ site ∈ declaration.sitesIn c scope, fault ∈ (site.lower c).faults) ∨
        scope.isGlobal = true ∧ (Statement.declare declaration).Unbound fault := by
  -- Apart from a sampler without a unit all faults are those of the sites.
  have sound {stmts : List Glsl.Stmt} {sites : List Site}
      (bound : ¬(scope.isGlobal = true ∧ (Statement.declare declaration).Unbound fault))
      (same : Glsl.Stmt.faultsAll stmts = (sites.map (Site.lower c)).flatMap Glsl.Term.faults) :
      fault ∈ Glsl.Stmt.faultsAll stmts ↔
        (∃ site ∈ sites, fault ∈ (site.lower c).faults) ∨
          scope.isGlobal = true ∧ (Statement.declare declaration).Unbound fault := by
    rw [same, Site.mem_flatMap_faults]
    exact (or_iff_left bound).symm
  have declared (storage : Glsl.Storage) :
      Glsl.Stmt.faultsAll [.declare storage (declaration.declarator c)] =
        (declaration.sites.map (Site.lower c)).flatMap Glsl.Term.faults := by
    simp [Glsl.Stmt.faultsAll, Glsl.Stmt.faults, Glsl.Declarator.faults_eq_flatMap,
      terms_declarator]
  unfold lower sitesIn
  by_cases suppressed : declaration.isSuppressed c = true
  · rw [if_pos suppressed, if_pos suppressed]
    refine sound ?_ rfl
    rintro ⟨-, ⟨-, isSampler, -⟩⟩
    rw [isSuppressed_sampler isSampler] at suppressed
    cases suppressed
  rw [if_neg suppressed, if_neg suppressed]
  by_cases isGlobal : scope.isGlobal = true
  · rw [if_pos isGlobal, if_pos isGlobal, lowerGlobal, globalSites]
    by_cases property : declaration.ty.isProperty = true
    · rw [if_pos property, if_pos property]
      have bound : ¬(scope.isGlobal = true ∧ (Statement.declare declaration).Unbound fault) := by
        rintro ⟨-, ⟨noProperty, -, -⟩⟩
        rw [property] at noProperty
        cases noProperty
      split
      · refine sound bound ?_
        simp [Glsl.Stmt.faultsAll, Glsl.Stmt.faults, Glsl.Replacement.faults_eq_flatMap,
          Glsl.Replacement.terms, terms_arrayLiteral]
      · exact sound bound rfl
    rw [if_neg property, if_neg property]
    by_cases isSampler : declaration.ty.base.isSampler = true
    · rw [if_pos isSampler, if_pos isSampler]
      cases unit : declaration.textureUnit with
      | ok found =>
        refine sound ?_ rfl
        rintro ⟨-, ⟨-, -, unbound⟩⟩
        rw [unit] at unbound
        cases unbound
      | error cause =>
        simp only [Glsl.Stmt.faultsAll, Glsl.Stmt.faults, List.append_nil, List.mem_singleton]
        constructor
        · rintro rfl
          rw [Bool.not_eq_true] at property
          exact Or.inr ⟨isGlobal, .sampler property isSampler unit⟩
        · rintro (⟨site, listed, -⟩ | ⟨-, ⟨-, -, unbound⟩⟩)
          · cases listed
          · exact Except.error.inj (unbound.symm.trans unit)
    · rw [if_neg isSampler, if_neg isSampler]
      refine sound ?_ (declared _)
      rintro ⟨-, ⟨-, sampler, -⟩⟩
      exact isSampler sampler
  · rw [if_neg isGlobal, if_neg isGlobal]
    exact sound (fun unbound => isGlobal unbound.1) (declared _)

/-- The variable that returned values are stored in has no faults. -/
theorem Context.faults_returnVariable? {place : Glsl.Term}
    (stored : c.returnVariable? = some place) : place.faults = [] := by
  rcases returnVariable?_eq_some stored with ⟨-, variableName, -, rfl⟩ | ⟨slot, rfl⟩
  · rfl
  · rfl

/-- The faults of a returned value are those of its site. -/
theorem Expr.faults_lowerResult (c : Context) (scope : Scope) (value : Expr) :
    Glsl.Stmt.faultsAll (value.lowerResult c scope) =
      ((value.resultSites c scope).map (Site.lower c)).flatMap Glsl.Term.faults := by
  unfold lowerResult resultSites
  split
  · split
    · rfl
    · cases stored : c.returnVariable? with
      | none => simp [Glsl.Stmt.faultsAll, Glsl.Stmt.faults, Site.lower]
      | some place =>
        simp [Glsl.Stmt.faultsAll, Glsl.Stmt.faults, Glsl.Effect.faults, Site.lower,
          Context.faults_returnVariable? stored]
  · simp [Glsl.Stmt.faultsAll, Glsl.Stmt.faults, Site.lower]

/-- A fault of a returned value is one of its site. -/
theorem Expr.mem_faults_lowerResult {scope : Scope} {value : Expr} :
    fault ∈ Glsl.Stmt.faultsAll (value.lowerResult c scope) ↔
      ∃ site ∈ value.resultSites c scope, fault ∈ (site.lower c).faults := by
  rw [faults_lowerResult, Site.mem_flatMap_faults]

namespace Statement

/-- The faults of a list of statements are those of its sites and of its global samplers when this
holds of each of the statements. -/
theorem mem_faults_lowerAll {scope : Scope} {body : List Statement}
    (each : ∀ s ∈ body, fault ∈ Glsl.Stmt.faultsAll (s.lower c scope) ↔
      (∃ site ∈ s.sites c scope, fault ∈ (site.lower c).faults) ∨
        scope.isGlobal = true ∧ s.Unbound fault) :
    fault ∈ Glsl.Stmt.faultsAll (lowerAll c scope body) ↔
      (∃ site ∈ sitesAll c scope body, fault ∈ (site.lower c).faults) ∨
        scope.isGlobal = true ∧ ∃ s ∈ body, s.Unbound fault := by
  have found : fault ∈ Glsl.Stmt.faultsAll (lowerAll c scope body) ↔
      ∃ s ∈ body, fault ∈ Glsl.Stmt.faultsAll (s.lower c scope) := by
    rw [lowerAll_eq_flatMap, Glsl.Stmt.faultsAll_eq_flatMap, List.flatMap_assoc, List.mem_flatMap]
    simp only [Glsl.Stmt.faultsAll_eq_flatMap]
  rw [found, sitesAll_eq_flatMap]
  constructor
  · rintro ⟨s, listed, faulty⟩
    rcases (each s listed).1 faulty with ⟨site, inside, own⟩ | ⟨isGlobal, unbound⟩
    · exact Or.inl ⟨site, List.mem_flatMap.2 ⟨s, listed, inside⟩, own⟩
    · exact Or.inr ⟨isGlobal, s, listed, unbound⟩
  · rintro (⟨site, inside, own⟩ | ⟨isGlobal, s, listed, unbound⟩)
    · obtain ⟨s, listed, inside⟩ := List.mem_flatMap.1 inside
      exact ⟨s, listed, (each s listed).2 (Or.inl ⟨site, inside, own⟩)⟩
    · exact ⟨s, listed, (each s listed).2 (Or.inr ⟨isGlobal, unbound⟩)⟩

/-- Inside a body there is no global sampler, so its faults are those of its sites. -/
theorem mem_faults_body (scope : Scope) {body : List Statement} (inner : scope.isGlobal = false)
    (each : ∀ s ∈ body, fault ∈ Glsl.Stmt.faultsAll (s.lower c scope) ↔
      (∃ site ∈ s.sites c scope, fault ∈ (site.lower c).faults) ∨
        scope.isGlobal = true ∧ s.Unbound fault) :
    fault ∈ Glsl.Stmt.faultsAll (lowerAll c scope body) ↔
      ∃ site ∈ sitesAll c scope body, fault ∈ (site.lower c).faults := by
  rw [mem_faults_lowerAll each]
  simp [inner]

/-- A statement that is no global sampler has the faults of its sites. -/
theorem mem_faults_of_sites {scope : Scope} {s : Statement} (bound : ¬s.Unbound fault)
    (same : fault ∈ Glsl.Stmt.faultsAll (s.lower c scope) ↔
      ∃ site ∈ s.sites c scope, fault ∈ (site.lower c).faults) :
    fault ∈ Glsl.Stmt.faultsAll (s.lower c scope) ↔
      (∃ site ∈ s.sites c scope, fault ∈ (site.lower c).faults) ∨
        scope.isGlobal = true ∧ s.Unbound fault := by
  rw [same]
  exact (or_iff_left fun unbound => bound unbound.2).symm

/-- The faults of a lowered statement are those of its sites, and that of a global sampler without
a texture unit. -/
theorem mem_faults_lower {scope : Scope} {s : Statement} :
    fault ∈ Glsl.Stmt.faultsAll (s.lower c scope) ↔
      (∃ site ∈ s.sites c scope, fault ∈ (site.lower c).faults) ∨
        scope.isGlobal = true ∧ s.Unbound fault := by
  induction s using bodyInduction generalizing scope with
  | declare declaration => exact Declaration.mem_faults_lower
  | struct definition =>
    refine mem_faults_of_sites (by rintro ⟨⟩) ?_
    simp only [lower, Struct.lower, sites]
    split
    · rw [← Site.mem_flatMap_faults, List.map_flatMap, List.flatMap_assoc]
      simp [Glsl.Stmt.faultsAll, Glsl.Stmt.faults, Glsl.Declarator.faults_eq_flatMap,
        Ty.terms_declarator, List.flatMap_map]
    · simp [Glsl.Stmt.faultsAll]
  | buffer name content =>
    refine mem_faults_of_sites (by rintro ⟨⟩) ?_
    simp only [lower, sites, Declaration.lowerBuffer]
    split <;>
      simp [Glsl.Stmt.faultsAll, Glsl.Stmt.faults, Glsl.Declarator.faults_eq_flatMap,
        Glsl.Declarator.terms, Glsl.Replacement.faults, Ty.terms_lowerBrackets]
  | function signature body ih =>
    refine mem_faults_of_sites (by rintro ⟨⟩) ?_
    have inside := mem_faults_body (scope.ofFunction signature) rfl fun s member =>
      ih s member
    simp only [lower, sites]
    split
    · simp [Glsl.Stmt.faultsAll]
    · simp only [Glsl.Stmt.faultsAll, Glsl.Stmt.faults, List.append_nil, List.mem_append, inside,
        Glsl.Prototype.faults_eq_flatMap, Signature.terms_prototype, Site.mem_flatMap_faults,
        or_and_right, exists_or]
  | branch condition whenTrue ih =>
    refine mem_faults_of_sites (by rintro ⟨⟩) ?_
    have inside := mem_faults_body scope.inner rfl fun s member => ih s member
    simp [lower, sites, Glsl.Stmt.faultsAll, Glsl.Stmt.faults, inside, Site.lower]
  | branchElse condition whenTrue whenFalse ihTrue ihFalse =>
    refine mem_faults_of_sites (by rintro ⟨⟩) ?_
    have insideTrue := mem_faults_body scope.inner rfl fun s member => ihTrue s member
    have insideFalse := mem_faults_body scope.inner rfl fun s member => ihFalse s member
    simp [lower, sites, Glsl.Stmt.faultsAll, Glsl.Stmt.faults, insideTrue, insideFalse, Site.lower,
      or_and_right, exists_or]
  | loop start condition step body ih =>
    refine mem_faults_of_sites (by rintro ⟨⟩) ?_
    have inside := mem_faults_body scope.inner rfl fun s member => ih s member
    have head : (start.map (Declaration.declarator c)).toList.flatMap Glsl.Declarator.faults =
        ((start.toList.flatMap Declaration.sites).map (Site.lower c)).flatMap
          Glsl.Term.faults := by
      cases start <;> simp [Glsl.Declarator.faults_eq_flatMap, Declaration.terms_declarator]
    have test : (condition.map (Expr.lower c (some boolTy))).toList.flatMap Glsl.Term.faults =
        ((condition.toList.map fun e => (⟨some boolTy, e⟩ : Site)).map (Site.lower c)).flatMap
          Glsl.Term.faults := by
      cases condition <;> simp [Site.lower]
    have effect : (step.map (Expr.lowerEffect c)).toList.flatMap Glsl.Effect.faults =
        ((step.toList.flatMap Expr.effectSites).map (Site.lower c)).flatMap Glsl.Term.faults := by
      cases step <;> simp [Glsl.Effect.faults_eq_flatMap, Expr.terms_lowerEffect]
    simp only [lower, sites, Glsl.Stmt.faultsAll, Glsl.Stmt.faults, List.append_nil,
      List.mem_append, head, test, effect, inside, Site.mem_flatMap_faults, or_and_right, exists_or]
  | block body ih =>
    refine mem_faults_of_sites (by rintro ⟨⟩) ?_
    have inside := mem_faults_body scope.inner rfl fun s member => ih s member
    simp [lower, sites, Glsl.Stmt.faultsAll, Glsl.Stmt.faults, inside]
  | result value =>
    refine mem_faults_of_sites (by rintro ⟨⟩) ?_
    cases value with
    | none => simp [lower, sites, Glsl.Stmt.faultsAll, Glsl.Stmt.faults]
    | some value => exact Expr.mem_faults_lowerResult
  | discard =>
    refine mem_faults_of_sites (by rintro ⟨⟩) ?_
    simp only [lower, sites]
    split <;> simp [Glsl.Stmt.faultsAll, Glsl.Stmt.faults]
  | leave =>
    refine mem_faults_of_sites (by rintro ⟨⟩) ?_
    simp [lower, sites, Glsl.Stmt.faultsAll, Glsl.Stmt.faults]
  | next =>
    refine mem_faults_of_sites (by rintro ⟨⟩) ?_
    simp [lower, sites, Glsl.Stmt.faultsAll, Glsl.Stmt.faults]
  | evaluate expr =>
    refine mem_faults_of_sites (by rintro ⟨⟩) ?_
    simp [lower, sites, Glsl.Stmt.faultsAll, Glsl.Stmt.faults, Glsl.Effect.faults_eq_flatMap,
      Expr.terms_lowerEffect]

end Statement

/-- The faults of a whole program: those of the reads that declaring colour outputs looks through,
those of rendered expressions, and those of global samplers. -/
theorem Context.mem_faults_program :
    fault ∈ c.program.faults ↔
      (c.declaresOutputs = true ∧ fault ∈ c.shader.fetchFaults) ∨
      (∃ site ∈ c.rendered, site.expr.Faulty c.shader fault) ∨
      ∃ s ∈ c.shader, s.Unbound fault := by
  have reads : fault ∈ c.program.outputFaults ↔
      c.declaresOutputs = true ∧ fault ∈ c.shader.fetchFaults := by
    simp [program]
  have globals : fault ∈ Glsl.Stmt.faultsAll c.program.globals ↔
      (∃ site ∈ Statement.sitesAll c Scope.global c.shader, fault ∈ (site.lower c).faults) ∨
        ∃ s ∈ c.shader, s.Unbound fault := by
    refine (Statement.mem_faults_lowerAll fun s _ => Statement.mem_faults_lower).trans ?_
    simp [Scope.global]
  have properties : fault ∈ c.program.properties.flatMap Glsl.Declarator.faults ↔
      ∃ site ∈ c.shader.localProperties.flatMap Declaration.sites,
        fault ∈ (site.lower c).faults := by
    rw [← Site.mem_flatMap_faults, List.map_flatMap, List.flatMap_assoc]
    simp [program, List.flatMap_map, Glsl.Declarator.faults_eq_flatMap,
      Declaration.terms_declarator]
  have body : fault ∈ Glsl.Stmt.faultsAll c.program.body ↔
      ∃ site ∈ Statement.sitesAll c c.mainScope c.entry.body, fault ∈ (site.lower c).faults :=
    Statement.mem_faults_body c.mainScope rfl fun s _ => Statement.mem_faults_lower
  have rendered : (∃ site ∈ c.rendered, site.expr.Faulty c.shader fault) ↔
      ∃ site ∈ c.roots, fault ∈ (site.lower c).faults := by
    simp only [rendered, Site.mem_faults_lower, List.mem_flatMap]
    constructor
    · rintro ⟨part, ⟨root, started, inside⟩, faulty⟩
      exact ⟨root, started, part, inside, faulty⟩
    · rintro ⟨root, started, part, inside, faulty⟩
      exact ⟨part, ⟨root, started, inside⟩, faulty⟩
  simp only [rendered, roots, Glsl.Program.faults, List.mem_append, reads, globals, properties,
    body, or_and_right, exists_or]
  simp only [or_assoc, or_comm, or_left_comm]

end Statements

/-! ## Registers of samplers -/

/-- A register of a sampler: the letter `s` in either case, and a number in decimal digits that fits
in thirty-two bits. -/
def IsSamplerRegister (register : String) : Prop :=
  ∃ letter digits, register.toList = letter :: digits ∧ (letter = 's' ∨ letter = 'S') ∧
    digits ≠ [] ∧ (∀ digit ∈ digits, digit.isDigit = true) ∧
    Nat.ofDigitChars 10 digits 0 < UInt32.size

/-- A declaration that is bound to a register of a sampler. -/
def Declaration.HasUnit (declaration : Declaration) : Prop :=
  ∃ register, declaration.register = some register ∧ IsSamplerRegister register

/-- Only the letter `s` in either case has the small letter `s`. -/
theorem toLower_eq_s_iff {letter : Char} :
    letter.toLower = 's' ↔ letter = 's' ∨ letter = 'S' := by
  unfold Char.toLower
  split
  · rename_i capital
    obtain ⟨low, high⟩ := capital
    change (65 : UInt32) ≤ letter.val at low
    change letter.val ≤ (90 : UInt32) at high
    rw [Char.ext_iff, Char.ext_iff, Char.ext_iff]
    change letter.val + 32 = 115 ↔ letter.val = 115 ∨ letter.val = 83
    rw [UInt32.le_iff_toNat_le, UInt32.toNat_ofNat] at low high
    rw [← UInt32.toNat_inj, ← UInt32.toNat_inj, ← UInt32.toNat_inj, UInt32.toNat_add]
    simp only [UInt32.toNat_ofNat] at low high ⊢
    omega
  · rename_i other
    constructor
    · exact Or.inl
    · rintro (rfl | rfl)
      · rfl
      · exact absurd (by decide) other

/-- A register names a texture unit exactly when it is one of a sampler. -/
theorem exists_textureUnit?_iff {register : String} :
    (∃ unit, textureUnit? register = some unit) ↔ IsSamplerRegister register := by
  unfold textureUnit? IsSamplerRegister
  cases register.toList with
  | nil => simp
  | cons letter digits =>
    by_cases isLetter : letter.toLower = 's'
    · have either := toLower_eq_s_iff.1 isLetter
      simp [isLetter, readDigits, either, Option.filter_eq_some_iff, and_assoc]
    · have neither : ¬(letter = 's' ∨ letter = 'S') := fun either =>
        isLetter (toLower_eq_s_iff.2 either)
      rw [not_or] at neither
      simp [isLetter, neither]

/-- A sampler is free of faults exactly when it is bound to a register of a sampler. -/
theorem Declaration.hasUnit_iff {declaration : Declaration} :
    declaration.HasUnit ↔ ∀ fault, declaration.textureUnit ≠ .error fault := by
  unfold HasUnit textureUnit
  cases declaration.register with
  | none => simp
  | some register =>
    simp only [Option.some.injEq, exists_eq_left', ← exists_textureUnit?_iff]
    cases textureUnit? register <;> simp

/-! ## When a text is generated -/

/-- An expression that is rendered for an entry of a shader, whether or not the text comes about. -/
def Shader.Renders (shader : Shader) (profile : Profile) (entryName : String) (e : Expr) : Prop :=
  ∃ entry, shader.function? entryName = some entry ∧
    ∃ site ∈ (Context.ofEntry shader profile entry).rendered, site.expr = e

/-- The arguments of a read that names a colour output: one integer literal from zero to seven. -/
def NamesOutput (arguments : List Expr) : Prop :=
  ∃ n < 8, ReadsOutput n arguments

/-- Arguments name a colour output exactly when a read finds its target in them. -/
theorem namesOutput_iff {arguments : List Expr} :
    NamesOutput arguments ↔ ∃ slot, fetchTarget arguments = .ok slot := by
  constructor
  · rintro ⟨n, below, reads⟩
    exact ⟨⟨n, below⟩, fetchTarget_eq_ok_iff.2 reads⟩
  · rintro ⟨slot, target⟩
    exact ⟨slot, slot.isLt, fetchTarget_eq_ok_iff.1 target⟩

/-- A function is found by its name exactly when one of the global functions has it. -/
theorem Shader.exists_function?_iff {shader : Shader} {name : String} :
    (∃ entry, shader.function? name = some entry) ↔
      ∃ signature body, .function signature body ∈ shader ∧ signature.name = name := by
  constructor
  · rintro ⟨entry, found⟩
    exact ⟨entry.toSignature, entry.body, mem_of_function? found⟩
  · rintro ⟨signature, body, listed, named⟩
    rw [← Option.isSome_iff_exists, function?, List.findSome?_isSome_iff]
    exact ⟨_, listed, by simp [named]⟩

/-- The reads of a shader are free of faults exactly when each names a colour output. -/
theorem Shader.fetchFaults_eq_nil_iff {shader : Shader} :
    shader.fetchFaults = [] ↔ ∀ arguments parameters ty,
      .call fetchCallee arguments parameters ty ∈ shader.walk → NamesOutput arguments := by
  constructor
  · intro faultless arguments parameters ty walked
    exact namesOutput_iff.2 (fetchTarget_of_fetchFaults faultless walked)
  · intro sound
    refine List.filterMap_eq_nil_iff.2 fun call called => ?_
    obtain ⟨named, ty, walked⟩ := mem_calls.1 called
    rw [named] at walked
    obtain ⟨slot, target⟩ := namesOutput_iff.1 (sound _ _ _ walked)
    rw [target]

/-- An expression is free of faults by itself exactly when products have two factors, saturations
one value, reads name a colour output and samplers are bound to a register. -/
theorem Expr.not_faulty_iff {shader : Shader} {e : Expr} :
    (∀ fault, ¬e.Faulty shader fault) ↔
      (∀ callee arguments parameters ty, e = .call callee arguments parameters ty →
        (alike callee "mul" = true → arguments.length = 2) ∧
        (alike callee "saturate" = true → arguments.length = 1) ∧
        (callee = fetchCallee → NamesOutput arguments)) ∧
      ∀ name ty found, e = .identifier name ty → ty.base.isSampler = true →
        shader.declaration? name = some found → found.ty.base.isSampler = true →
        found.HasUnit := by
  constructor
  · intro sound
    constructor
    · rintro callee arguments parameters ty rfl
      refine ⟨fun isProduct => ?_, fun isSaturation => ?_, ?_⟩
      · by_contra count
        exact sound _ (.product isProduct count)
      · by_contra count
        exact sound _ (.saturation isSaturation count)
      · rintro rfl
        cases target : fetchTarget arguments with
        | error cause => exact absurd (.read target) (sound _)
        | ok slot => exact namesOutput_iff.2 ⟨slot, target⟩
    · rintro name ty found rfl sampled declared isSampler
      exact Declaration.hasUnit_iff.2 fun fault unbound =>
        sound fault (.sampler sampled declared isSampler unbound)
  · rintro ⟨calls, identifiers⟩ fault faulty
    cases faulty with
    | product isProduct count => exact count ((calls _ _ _ _ rfl).1 isProduct)
    | saturation isSaturation count => exact count ((calls _ _ _ _ rfl).2.1 isSaturation)
    | read target =>
      obtain ⟨slot, named⟩ := namesOutput_iff.1 ((calls _ _ _ _ rfl).2.2 rfl)
      rw [named] at target
      cases target
    | sampler sampled declared isSampler unbound =>
      exact Declaration.hasUnit_iff.1 (identifiers _ _ _ rfl sampled declared isSampler) _ unbound

/-- A program is free of faults exactly when its reads, its rendered expressions and its global
samplers are. -/
theorem Context.faults_program_eq_nil_iff {c : Context} :
    c.program.faults = [] ↔
      (c.declaresOutputs = true → c.shader.fetchFaults = []) ∧
      (∀ site ∈ c.rendered, ∀ fault, ¬site.expr.Faulty c.shader fault) ∧
      ∀ s ∈ c.shader, ∀ fault, ¬s.Unbound fault := by
  simp only [List.eq_nil_iff_forall_not_mem, mem_faults_program]
  constructor
  · intro faultless
    exact ⟨fun declares fault read => faultless fault (Or.inl ⟨declares, read⟩),
      fun site rendered fault faulty => faultless fault (Or.inr (Or.inl ⟨site, rendered, faulty⟩)),
      fun s listed fault unbound => faultless fault (Or.inr (Or.inr ⟨s, listed, unbound⟩))⟩
  · rintro ⟨reads, sites, samplers⟩ fault
      (⟨declares, read⟩ | ⟨site, rendered, faulty⟩ | ⟨s, listed, unbound⟩)
    · exact reads declares fault read
    · exact sites site rendered fault faulty
    · exact samplers s listed fault unbound

/-- A text is generated exactly when the entry is found, aliases are chosen and the program of the
entry has no faults. -/
theorem exists_generate_eq_ok_iff {shader : Shader} {profile : Profile} {entryName : String} :
    (∃ output, generate shader profile entryName = .ok output) ↔
      (∃ entry, shader.function? entryName = some entry) ∧
      (∃ names, Renaming.ofTokens shader.tokens = .ok names) ∧
      ∀ entry, shader.function? entryName = some entry →
        (Context.ofEntry shader profile entry).program.faults = [] := by
  constructor
  · rintro ⟨output, generated⟩
    obtain ⟨entry, names, run⟩ := generate_eq_ok_iff.1 generated
    refine ⟨⟨entry, run.found⟩, ⟨names, run.chosen⟩, fun other found => ?_⟩
    obtain rfl := Option.some.inj (run.found.symm.trans found)
    exact run.faultless
  · rintro ⟨⟨entry, found⟩, ⟨names, chosen⟩, faultless⟩
    have generated := generate_eq_ok_iff.2
      (⟨entry, names, found, chosen, faultless entry found, rfl, rfl, rfl⟩ :
        ∃ entry names, Generated shader profile entryName ⟨_, _, _⟩ entry names)
    exact ⟨_, generated⟩

/-- A text is generated exactly when a global function has the name of the entry; each of the
words that need an alias has a numbered form that is tried and is no token; every rendered product
has two factors and every rendered saturation one value; every rendered read names a colour output
by a literal, and for a modern fragment text so does every read of the shader; every global sampler
that is no property is bound to a register of a sampler; and so is every global sampler that a
rendered identifier stands for. -/
theorem generation_succeeds_iff (shader : Shader) (profile : Profile) (entryName : String) :
    (∃ output, generate shader profile entryName = .ok output) ↔
      (∃ signature body, .function signature body ∈ shader ∧ signature.name = entryName) ∧
      (∀ base ∈ aliasBases, ∃ n < 1024, numbered base n ∉ shader.tokens) ∧
      (∀ callee arguments parameters ty,
        shader.Renders profile entryName (.call callee arguments parameters ty) →
        (alike callee "mul" = true → arguments.length = 2) ∧
        (alike callee "saturate" = true → arguments.length = 1) ∧
        (callee = "FramebufferFetch" → NamesOutput arguments)) ∧
      (profile.stage = .fragment → profile.generation = .modern →
        ∀ arguments parameters ty,
          .call "FramebufferFetch" arguments parameters ty ∈ shader.walk →
          NamesOutput arguments) ∧
      (∀ declaration, .declare declaration ∈ shader → declaration.ty.isProperty = false →
        declaration.ty.base.isSampler = true → declaration.HasUnit) ∧
      ∀ name ty found, shader.Renders profile entryName (.identifier name ty) →
        ty.base.isSampler = true → shader.declaration? name = some found →
        found.ty.base.isSampler = true → found.HasUnit := by
  rw [exists_generate_eq_ok_iff, Renaming.exists_ofTokens_iff, ← Shader.exists_function?_iff]
  simp only [Context.faults_program_eq_nil_iff, Shader.fetchFaults_eq_nil_iff]
  constructor
  · rintro ⟨⟨entry, found⟩, chosen, faultless⟩
    refine ⟨⟨entry, found⟩, chosen, ?_, fun fragment modern => ?_, ?_, ?_⟩
    · rintro callee arguments parameters ty ⟨other, named, site, rendered, same⟩
      obtain ⟨-, sites, -⟩ := faultless other named
      exact (Expr.not_faulty_iff.1 (sites site rendered)).1 _ _ _ _ same
    · exact (faultless entry found).1 (Context.declaresOutputs_iff.2 ⟨fragment, modern⟩)
    · intro declaration listed noProperty isSampler
      exact Declaration.hasUnit_iff.2 fun fault unbound =>
        (faultless entry found).2.2 _ listed fault (.sampler noProperty isSampler unbound)
    · rintro name ty declaration ⟨other, named, site, rendered, same⟩
      obtain ⟨-, sites, -⟩ := faultless other named
      exact (Expr.not_faulty_iff.1 (sites site rendered)).2 _ _ _ same
  · rintro ⟨⟨entry, found⟩, chosen, calls, reads, samplers, identifiers⟩
    refine ⟨⟨entry, found⟩, chosen, fun other named => ⟨fun declares => ?_, ?_, ?_⟩⟩
    · obtain ⟨fragment, modern⟩ := Context.declaresOutputs_iff.1 declares
      exact reads fragment modern
    · intro site rendered
      refine Expr.not_faulty_iff.2 ⟨fun callee arguments parameters ty same => ?_,
        fun name ty declaration same => ?_⟩
      · exact calls callee arguments parameters ty ⟨other, named, site, rendered, same⟩
      · exact identifiers name ty declaration ⟨other, named, site, rendered, same⟩
    · rintro s listed fault ⟨noProperty, isSampler, unbound⟩
      exact Declaration.hasUnit_iff.1 (samplers _ listed noProperty isSampler) fault unbound

end GlslText
