import GlslText.Proofs.Nesting

/-!
# What an emission visits

An emission lowers a shader and keeps the expressions it visits on the way: those it renders, and
those it takes up for their effect. Its value is the program that the shader becomes. Every rendered
expression is visited, and whatever is visited is listed by the walk over the shader.
-/

namespace GlslText

/-! ## Values with visits -/

/-- A value with the expressions visited on the way to it, in the order of the visits. -/
structure Traced (α : Type) where
  value : α
  visits : List Expr

namespace Traced

variable {α β : Type}

instance : Monad Traced where
  pure value := ⟨value, []⟩
  bind first next := ⟨(next first.value).value, first.visits ++ (next first.value).visits⟩

/-- A value on the way to which an expression is visited first. -/
def visiting (e : Expr) (next : Traced α) : Traced α :=
  ⟨next.value, e :: next.visits⟩

/-- One after the other. -/
def all : List (Traced α) → Traced (List α)
  | [] => pure []
  | first :: rest => do
    let value ← first
    let others ← all rest
    return value :: others

/-- What may be absent. -/
def optional : Option (Traced α) → Traced (Option α)
  | none => pure none
  | some traced => some <$> traced

end Traced

/-! ## Emission of expressions -/

/-- A call, which visits just the arguments that it renders. -/
def Context.emitCall (c : Context) (callee : String) (arguments : List Expr)
    (emitted : List (Traced Glsl.Term)) : Traced Glsl.Term :=
  let plain := Glsl.Term.apply (calleeName c.profile callee) <$> Traced.all emitted
  if callee = fetchCallee then
    match fetchTarget arguments with
    | .ok slot => if c.profile.isLegacy then plain else pure (.named (.color .modern true slot) "")
    | .error cause => .faulty (.fetch cause) <$> plain
  else if alike callee "mul" then
    match emitted with
    | [left, right] => do
      let second ← right
      let first ← left
      return .product second first
    | _ => pure (.faulty (.arity "mul" 2 emitted.length) .missing)
  else if alike callee "saturate" then
    match emitted with
    | [value] => (.apply (.word "clamp") [·, .ofWord "0.0", .ofWord "1.0"]) <$> value
    | _ => pure (.faulty (.arity "saturate" 1 emitted.length) .missing)
  else
    plain

mutual

/-- The emission of an expression under a hint. The expression is visited before its operands. -/
def Expr.emit (c : Context) (hint : Option Ty) (e : Expr) : Traced Glsl.Term :=
  Traced.visiting e <| castTo hint e <$>
    match e with
    | .identifier name ty => pure (c.identifier name ty)
    | .literal value _ => pure (.literal value)
    | .unary op operand ty => .unary op <$> operand.emit c (if op = .not then some ty else none)
    | .binary op left right ty => do
      let first ← left.emit c (op.leftHint ty)
      let second ← right.emit c (op.rightHint ty)
      return .binary op first second
    | .conditional condition whenTrue whenFalse ty => do
      let test ← condition.emit c (some boolTy)
      let chosen ← whenTrue.emit c (some ty)
      let other ← whenFalse.emit c (some ty)
      return .conditional test chosen other
    | .member object field _ =>
      match c.stageField? object.ty field with
      | some bound => pure bound
      | none => c.member object.ty field <$> object.emit c none
    | .index array position _ => do
      let indexed ← array.emit c none
      let place ← position.emit c none
      return .index indexed place
    | .call callee arguments parameters _ =>
      c.emitCall callee arguments (Expr.emitAll c parameters arguments)
    | .construct arguments ty => .apply ty.glslName <$> Traced.all (Expr.emitAll c [] arguments)
    | .cast operand ty => (.apply ty.glslName [·]) <$> operand.emit c none

/-- The emissions of arguments under the types of their parameters, each by itself. -/
def Expr.emitAll (c : Context) (parameters : List Ty) : List Expr → List (Traced Glsl.Term)
  | [] => []
  | e :: rest => e.emit c parameters.head? :: Expr.emitAll c parameters.tail rest

end

/-- The emission of a site. -/
def Site.emit (c : Context) (site : Site) : Traced Glsl.Term :=
  site.expr.emit c site.hint

/-- Arguments are emitted site by site. -/
theorem Site.emitAll_eq_map (c : Context) (parameters : List Ty) (es : List Expr) :
    Expr.emitAll c parameters es = (arguments parameters es).map (emit c) := by
  induction es generalizing parameters with
  | nil => rfl
  | cons e rest ih => rw [Expr.emitAll, ih, arguments, List.map_cons, emit]

/-! ## Emission of statements -/

/-- An expression that is done for its effect is visited as such, and then what is rendered of
it. -/
def Expr.emitEffect (c : Context) (e : Expr) : Traced Glsl.Effect :=
  Traced.visiting e <|
    match e with
    | .binary op left right ty =>
      if op.isAssignment then do
        let target ← left.emit c none
        let value ← right.emit c (some ty)
        return .store op target value
      else
        .evaluate <$> e.emit c none
    | _ => .evaluate <$> e.emit c none

/-- The emission of the brackets of a type. -/
def Ty.emitBrackets (c : Context) (ty : Ty) : Traced Glsl.Brackets :=
  Glsl.Brackets.mk <$> Traced.optional (ty.size.map (Expr.emit c none))

/-- The emission of a name with its type. -/
def Ty.emitDeclarator (c : Context) (ty : Ty) (name : String) : Traced Glsl.Declarator :=
  (⟨ty.glslName, .source name, ·, none⟩) <$>
    Traced.optional (if ty.isArray then some (ty.emitBrackets c) else none)

namespace Declaration

/-- The emission of the initial values as an array. -/
def emitArrayLiteral (c : Context) (declaration : Declaration) : Traced Glsl.ArrayLiteral := do
  let brackets ← declaration.ty.emitBrackets c
  let values ← Traced.all (Expr.emitAll c [] declaration.initializer)
  return ⟨declaration.ty.glslName, brackets, values⟩

/-- The emission of what a variable starts with. -/
def emitInitial (c : Context) (declaration : Declaration) : Traced (Option Glsl.Initial) :=
  match declaration.initializer with
  | [] => pure none
  | first :: _ =>
    if declaration.ty.isArray then (some <| .array ·) <$> declaration.emitArrayLiteral c
    else (some <| .value ·) <$> first.emit c (some declaration.ty)

/-- The emission of a declared variable. -/
def emitDeclarator (c : Context) (declaration : Declaration) : Traced Glsl.Declarator := do
  let declarator ← declaration.ty.emitDeclarator c declaration.name
  let initial ← declaration.emitInitial c
  return { declarator with initial }

/-- The emission of a declaration among the shader's own statements. -/
def emitGlobal (c : Context) (declaration : Declaration) : Traced (List Glsl.Stmt) :=
  if declaration.ty.isProperty then
    if declaration.ty.isArray && !declaration.initializer.isEmpty then
      (fun literal => [.define (.source declaration.name) (.array literal)]) <$>
        declaration.emitArrayLiteral c
    else
      pure []
  else if declaration.ty.base.isSampler then
    match declaration.textureUnit with
    | .ok unit =>
      pure [.sampler c.profile.isMobile declaration.ty.base (.texture c.profile.stage unit)]
    | .error fault => pure [.faulty fault]
  else
    ([.declare (if declaration.ty.isConst then .const else .uniform) ·]) <$>
      declaration.emitDeclarator c

/-- The emission of a declaration at any place. -/
def emit (c : Context) (scope : Scope) (declaration : Declaration) : Traced (List Glsl.Stmt) :=
  if declaration.isSuppressed c then pure []
  else if scope.isGlobal then declaration.emitGlobal c
  else ([.declare .plain ·]) <$> declaration.emitDeclarator c

/-- The emission of a buffer. -/
def emitBuffer (c : Context) (content : Declaration) : Traced (List Glsl.Stmt) :=
  let uniform (name : Glsl.Name) (brackets : Glsl.Brackets) : Glsl.Stmt :=
    .declare .uniform ⟨content.ty.glslName, name, some brackets, none⟩
  match content.bigArrayRegister? with
  | none => ([uniform (.source content.name) ·]) <$> content.ty.emitBrackets c
  | some register =>
    ([uniform (.verbatim register) ·, .define (.source content.name) (.name (.verbatim register))])
      <$> content.ty.emitBrackets c

end Declaration

/-- The emission of a structure. -/
def Struct.emit (c : Context) (struct : Struct) : Traced (List Glsl.Stmt) :=
  if c.interface.role struct.name = .generic then
    ([.struct (.source struct.name) ·]) <$>
      Traced.all (struct.fields.map fun field => field.ty.emitDeclarator c field.name)
  else
    pure []

/-- The emission of the head of a function. -/
def Signature.emit (c : Context) (signature : Signature) : Traced Glsl.Prototype :=
  (⟨signature.result.glslName, .source signature.name, ·⟩) <$>
    Traced.all (signature.arguments.map fun argument =>
      (⟨argument.passing, ·⟩) <$> argument.ty.emitDeclarator c argument.name)

/-- The emission of a value that is returned. -/
def Expr.emitResult (c : Context) (scope : Scope) (value : Expr) : Traced (List Glsl.Stmt) :=
  let plain : Traced (List Glsl.Stmt) :=
    (fun term => [.result (some term)]) <$> value.emit c scope.result
  if scope.inMain then
    if c.interface.roleOf value.ty = .output then
      pure [.result none]
    else
      match c.returnVariable? with
      | some place =>
        (fun term => [.effect (.store .assign place term), .result none]) <$>
          value.emit c (some c.entry.result)
      | none => plain
  else
    plain

namespace Statement

mutual

/-- The emission of a statement. -/
def emit (c : Context) (scope : Scope) : Statement → Traced (List Glsl.Stmt)
  | declare declaration => declaration.emit c scope
  | struct definition => definition.emit c
  | buffer _ content => content.emitBuffer c
  | function signature body =>
    if signature.name = c.entry.name then pure []
    else do
      let prototype ← signature.emit c
      let inner ← emitAll c (scope.ofFunction signature) body
      return [.function prototype inner]
  | branch condition whenTrue none => do
    let test ← condition.emit c (some boolTy)
    let chosen ← emitAll c scope.inner whenTrue
    return [.branch test chosen none]
  | branch condition whenTrue (some whenFalse) => do
    let test ← condition.emit c (some boolTy)
    let chosen ← emitAll c scope.inner whenTrue
    let other ← emitAll c scope.inner whenFalse
    return [.branch test chosen (some other)]
  | loop start condition step body => do
    let first ← Traced.optional (start.map (Declaration.emitDeclarator c))
    let test ← Traced.optional (condition.map (Expr.emit c (some boolTy)))
    let repeated ← Traced.optional (step.map (Expr.emitEffect c))
    let inner ← emitAll c scope.inner body
    return [.loop first test repeated inner]
  | block body => ([.block ·]) <$> emitAll c scope.inner body
  | result none => pure [.result none]
  | result (some value) => value.emitResult c scope
  | discard => pure (if c.profile.isFragment then [.discard] else [])
  | leave => pure [.leave]
  | next => pure [.next]
  | evaluate expr => ([.effect ·]) <$> expr.emitEffect c

/-- The emission of a list of statements. -/
def emitAll (c : Context) (scope : Scope) : List Statement → Traced (List Glsl.Stmt)
  | [] => pure []
  | s :: rest => do
    let first ← s.emit c scope
    let others ← emitAll c scope rest
    return first ++ others

end

end Statement

/-- The emission of the whole shader: the global statements, the properties and the body of the
entry. -/
def Context.emission (c : Context) : Traced Glsl.Program := do
  let globals ← Statement.emitAll c Scope.global c.shader
  let properties ← Traced.all (c.shader.localProperties.map (Declaration.emitDeclarator c))
  let body ← Statement.emitAll c c.mainScope c.entry.body
  return { c.program with globals, properties, body }

/-! ## What is emitted -/

/-- A trace that comes to what is lowered. It visits all parts of the given sites, and nothing but
expressions of the given walk. -/
structure Traced.Emits {α : Type} (c : Context) (sites : List Site) (walk : List Expr)
    (traced : Traced α) (lowered : α) : Prop where
  value : traced.value = lowered
  parts : ∀ site ∈ sites, ∀ part ∈ site.parts c, part.expr ∈ traced.visits
  walked : traced.visits ⊆ walk

namespace Traced.Emits

variable {α β ι : Type} {c : Context} {sites : List Site} {walk : List Expr}

/-- What is put together from nothing visits nothing. -/
theorem pure (lowered : α) : Emits c [] walk (Pure.pure lowered) lowered :=
  ⟨rfl, List.forall_mem_nil _, List.nil_subset _⟩

/-- Emissions follow each other, and the second may use the value of the first. -/
theorem bind {first : Traced α} {next : α → Traced β} {value : α} {lowered : β}
    {later : List Site} (front : Emits c sites walk first value)
    (back : Emits c later walk (next value) lowered) :
    Emits c (sites ++ later) walk (first >>= next) lowered := by
  obtain ⟨rfl, parts, walked⟩ := front
  refine ⟨back.value, List.forall_mem_append.2 ⟨?_, ?_⟩, List.append_subset.2 ⟨walked, back.walked⟩⟩
  · intro site listed part inside
    exact List.mem_append_left _ (parts site listed part inside)
  · intro site listed part inside
    exact List.mem_append_right _ (back.parts site listed part inside)

/-- What is emitted last is put together without a visit. -/
theorem last {traced : Traced α} {value : α} {make : α → β}
    (emits : Emits c sites walk traced value) :
    Emits c sites walk (traced >>= fun value => Pure.pure (make value)) (make value) := by
  have whole : Emits c (sites ++ []) walk (traced >>= fun value => Pure.pure (make value))
      (make value) := emits.bind (pure (make value))
  rwa [List.append_nil] at whole

/-- The value of an emission may be changed without further visits. -/
theorem map {traced : Traced α} {value : α} (make : α → β)
    (emits : Emits c sites walk traced value) :
    Emits c sites walk (make <$> traced) (make value) :=
  emits.last

/-- The walk that the visits stay in may be larger. -/
theorem mono {traced : Traced α} {lowered : α} {wider : List Expr}
    (emits : Emits c sites walk traced lowered) (inside : walk ⊆ wider) :
    Emits c sites wider traced lowered :=
  ⟨emits.value, emits.parts, List.Subset.trans emits.walked inside⟩

/-- The order of the sites does not matter, nor do further ones. -/
theorem restrict {traced : Traced α} {lowered : α} {fewer : List Site}
    (emits : Emits c sites walk traced lowered) (listed : fewer ⊆ sites) :
    Emits c fewer walk traced lowered :=
  ⟨emits.value, fun site member => emits.parts site (listed member), emits.walked⟩

/-- A visit by itself renders nothing. -/
theorem visiting {traced : Traced α} {lowered : α} {e : Expr} (inside : e ∈ walk)
    (emits : Emits c sites walk traced lowered) :
    Emits c sites walk (Traced.visiting e traced) lowered := by
  refine ⟨emits.value, fun site listed part below => ?_, List.cons_subset.2 ⟨inside, emits.walked⟩⟩
  exact List.mem_cons_of_mem _ (emits.parts site listed part below)

/-- The emissions of a list follow each other in its order. -/
theorem all {items : List ι} {places : ι → List Site} {lowered : ι → α} {traced : ι → Traced α}
    (each : ∀ item ∈ items, Emits c (places item) walk (traced item) (lowered item)) :
    Emits c (items.flatMap places) walk (Traced.all (items.map traced)) (items.map lowered) := by
  induction items with
  | nil => exact pure []
  | cons item rest ih =>
    obtain ⟨first, later⟩ := List.forall_mem_cons.1 each
    rw [List.flatMap_cons]
    exact first.bind (ih later).last

/-- What is optional is emitted where it is present. -/
theorem optional {item : Option ι} {places : ι → List Site} {walks : ι → List Expr}
    {lowered : ι → α} {traced : ι → Traced α}
    (each : ∀ present, Emits c (places present) (walks present) (traced present) (lowered present))
    (walked : item.toList.flatMap walks ⊆ walk) :
    Emits c (item.toList.flatMap places) walk (Traced.optional (item.map traced))
      (item.map lowered) := by
  cases item with
  | none => exact pure none
  | some present =>
    simp only [Option.toList_some, List.flatMap_cons, List.flatMap_nil, List.append_nil] at walked ⊢
    exact ((each present).mono walked).map some

end Traced.Emits

open Traced (Emits)

/-! ## Expressions -/

namespace Site

variable {c : Context}

/-- The emission of a site, given that of its operands. -/
theorem emits_of_operands {hint : Option Ty} {e : Expr} {core : Glsl.Term}
    {traced : Traced Glsl.Term}
    (operands : Emits c (e.operands c) (e.children.flatMap Expr.walk) traced core) :
    Emits c [⟨hint, e⟩] e.walk (Traced.visiting e (castTo hint e <$> traced))
      (castTo hint e core) := by
  have inner := (operands.mono (List.subset_cons_self e _)).map (castTo hint e)
  rw [← e.walk_eq] at inner
  have whole := inner.visiting e.mem_walk_self
  refine ⟨whole.value, List.forall_mem_singleton.2 fun part inside => ?_, whole.walked⟩
  rcases mem_parts.1 inside with rfl | ⟨operand, direct, below⟩
  · exact List.mem_cons_self
  · exact whole.parts operand direct part below

/-- The sites of arguments come to the terms of the arguments. -/
theorem emits_all {sites : List Site} {walk : List Expr}
    (each : ∀ site ∈ sites, Emits c [site] walk (site.emit c) (site.lower c)) :
    Emits c sites walk (Traced.all (sites.map (emit c))) (sites.map (lower c)) := by
  simpa using Emits.all each

end Site

namespace Context

variable {c : Context} {callee : String}

/-- A product of other than two factors visits none of them. -/
theorem emitCall_faultyProduct (arguments : List Expr) {emitted : List (Traced Glsl.Term)}
    (noRead : callee ≠ fetchCallee) (isProduct : alike callee "mul" = true)
    (count : emitted.length ≠ 2) :
    c.emitCall callee arguments emitted =
      pure (.faulty (.arity "mul" 2 emitted.length) .missing) := by
  simp only [emitCall, noRead, isProduct, ↓reduceIte]
  split
  · simp at count
  · rfl

/-- A saturation of other than one value visits none of them. -/
theorem emitCall_faultySaturation (arguments : List Expr) {emitted : List (Traced Glsl.Term)}
    (noRead : callee ≠ fetchCallee) (noProduct : alike callee "mul" = false)
    (isSaturation : alike callee "saturate" = true) (count : emitted.length ≠ 1) :
    c.emitCall callee arguments emitted =
      pure (.faulty (.arity "saturate" 1 emitted.length) .missing) := by
  simp only [emitCall, noRead, noProduct, isSaturation, ↓reduceIte, Bool.false_eq_true]
  split
  · simp at count
  · rfl

/-- A call visits its arguments if it renders them, and else none of them. -/
theorem emits_call {arguments : List Expr} {sites : List Site} {walk : List Expr}
    (counted : sites.length = arguments.length)
    (each : ∀ site ∈ if c.rendersArguments callee arguments then sites else [],
      Emits c [site] walk (site.emit c) (site.lower c)) :
    Emits c (if c.rendersArguments callee arguments then sites else []) walk
      (c.emitCall callee arguments (sites.map (Site.emit c)))
      (c.call callee arguments (sites.map (Site.lower c))) := by
  have plain (renders : c.rendersArguments callee arguments = true) (name : Glsl.Name) :
      Emits c (if c.rendersArguments callee arguments then sites else []) walk
        (Glsl.Term.apply name <$> Traced.all (sites.map (Site.emit c)))
        (Glsl.Term.apply name (sites.map (Site.lower c))) := by
    rw [if_pos renders] at each ⊢
    exact (Site.emits_all each).map (Glsl.Term.apply name)
  have nothing (skips : c.rendersArguments callee arguments = false) (term : Glsl.Term) :
      Emits c (if c.rendersArguments callee arguments then sites else []) walk (pure term)
        term := by
    rw [if_neg (Bool.eq_false_iff.1 skips)]
    exact .pure term
  by_cases read : callee = fetchCallee
  · cases target : fetchTarget arguments with
    | ok slot =>
      by_cases legacy : c.profile.isLegacy = true
      · have renders : c.rendersArguments callee arguments = true := by
          simp [rendersArguments, read, legacy]
        simpa only [call, emitCall, if_pos read, target, if_pos legacy] using plain renders _
      · have skips : c.rendersArguments callee arguments = false := by
          simp [rendersArguments, read, legacy, target, Except.toOption]
        simpa only [call, emitCall, if_pos read, target, if_neg legacy] using nothing skips _
    | error cause =>
      have renders : c.rendersArguments callee arguments = true := by
        simp [rendersArguments, read, target, Except.toOption]
      simpa only [call, emitCall, if_pos read, target] using (plain renders _).map _
  by_cases isProduct : alike callee "mul" = true
  · have renders : c.rendersArguments callee arguments = (sites.length == 2) := by
      simp [rendersArguments, read, isProduct, counted]
    by_cases count : sites.length = 2
    · obtain ⟨left, right, rfl⟩ := List.length_eq_two.1 count
      have rendered : c.rendersArguments callee arguments = true := renders
      rw [if_pos rendered] at each ⊢
      simp only [call, emitCall, if_neg read, if_pos isProduct, List.map_cons, List.map_nil]
      -- The right factor is written, and so visited, before the left one.
      have second := each right (by simp)
      have first := each left (by simp)
      exact (second.bind first.last).restrict (by simp)
    · rw [call_faultyProduct arguments read isProduct (by simpa using count),
        emitCall_faultyProduct arguments read isProduct (by simpa using count), List.length_map,
        List.length_map]
      exact nothing (by simpa [renders] using count) _
  rw [Bool.not_eq_true] at isProduct
  by_cases isSaturation : alike callee "saturate" = true
  · have renders : c.rendersArguments callee arguments = (sites.length == 1) := by
      simp [rendersArguments, read, isProduct, isSaturation, counted]
    by_cases count : sites.length = 1
    · obtain ⟨value, rfl⟩ := List.length_eq_one_iff.1 count
      have rendered : c.rendersArguments callee arguments = true := renders
      rw [if_pos rendered] at each ⊢
      simp only [call, emitCall, if_neg read, isProduct, Bool.false_eq_true, ↓reduceIte,
        isSaturation, List.map_cons, List.map_nil]
      exact .map _ (each value List.mem_cons_self)
    · rw [call_faultySaturation arguments read isProduct isSaturation (by simpa using count),
        emitCall_faultySaturation arguments read isProduct isSaturation (by simpa using count),
        List.length_map, List.length_map]
      exact nothing (by simpa [renders] using count) _
  · have renders : c.rendersArguments callee arguments = true := by
      simp [rendersArguments, read, isProduct, isSaturation]
    simpa only [call, emitCall, if_neg read, isProduct, Bool.false_eq_true, ↓reduceIte,
      isSaturation] using plain renders _

end Context

/-- The emission of a site comes to its term. -/
theorem Site.emits (c : Context) (site : Site) :
    Emits c [site] site.expr.walk (site.emit c) (site.lower c) := by
  induction site using operandInduction c with
  | step site ih =>
    obtain ⟨hint, e⟩ := site
    have inner {operand : Site} (listed : operand ∈ e.operands c) :
        Emits c [operand] (e.children.flatMap Expr.walk) (operand.emit c) (operand.lower c) := by
      refine (ih operand listed).mono fun x walked => ?_
      exact List.mem_flatMap.2 ⟨operand.expr, (Expr.child_of_operand listed).1, walked⟩
    change Emits c [⟨hint, e⟩] e.walk (e.emit c hint) (e.lower c hint)
    -- Both recursions cast what they make of the operands, so only that is left to compare.
    rw [Expr.emit.eq_def, Expr.lower.eq_def]
    refine emits_of_operands ?_
    cases e with
    | identifier name ty => exact .pure _
    | literal value ty => exact .pure _
    | unary op operand ty => exact (inner List.mem_cons_self).map (Glsl.Term.unary op)
    | binary op left right ty =>
      have first := inner List.mem_cons_self
      have second := inner (List.mem_cons_of_mem _ List.mem_cons_self)
      exact first.bind second.last
    | conditional condition whenTrue whenFalse ty =>
      have test := inner List.mem_cons_self
      have chosen := inner (List.mem_cons_of_mem _ List.mem_cons_self)
      have other := inner (List.mem_cons_of_mem _ (List.mem_cons_of_mem _ List.mem_cons_self))
      exact test.bind (chosen.bind other.last)
    | member object field ty =>
      simp only [Expr.operands] at inner ⊢
      cases bound : c.stageField? object.ty field with
      | some term =>
        rw [Context.member, bound]
        exact .pure term
      | none =>
        simp only [bound, Option.isSome_none, Bool.false_eq_true, ↓reduceIte] at inner ⊢
        exact (inner List.mem_cons_self).map (c.member object.ty field)
    | index array position ty =>
      have indexed := inner List.mem_cons_self
      have place := inner (List.mem_cons_of_mem _ List.mem_cons_self)
      exact indexed.bind place.last
    | call callee arguments parameters ty =>
      simp only [lowerAll_eq_map, emitAll_eq_map]
      exact Context.emits_call (by simp) fun operand listed => inner listed
    | construct arguments ty =>
      simp only [lowerAll_eq_map, emitAll_eq_map]
      exact (emits_all fun operand listed => inner listed).map (Glsl.Term.apply ty.glslName)
    | cast operand ty => exact (inner List.mem_cons_self).map (Glsl.Term.apply ty.glslName [·])

/-- The emission of an expression, where all of its expressions are walked. -/
theorem Expr.emits (c : Context) (hint : Option Ty) {e : Expr} {walk : List Expr}
    (walked : e.walk ⊆ walk) : Emits c [⟨hint, e⟩] walk (e.emit c hint) (e.lower c hint) :=
  (Site.emits c ⟨hint, e⟩).mono walked

/-! ## Statements -/

/-- An effect is emitted as it is lowered, with the sites of its expression. -/
theorem Expr.emits_effect (c : Context) (e : Expr) :
    Emits c e.effectSites e.walk (e.emitEffect c) (e.lowerEffect c) := by
  have whole : Emits c [⟨none, e⟩] e.walk (Glsl.Effect.evaluate <$> e.emit c none)
      (.evaluate (e.lower c none)) :=
    (e.emits c none (List.Subset.refl _)).map Glsl.Effect.evaluate
  refine Emits.visiting e.mem_walk_self ?_
  unfold effectSites lowerEffect
  cases e with
  | binary op left right ty =>
    dsimp only
    split
    · have target : Emits c [⟨none, left⟩] (binary op left right ty).walk (left.emit c none)
          (left.lower c none) := left.emits c none fun x inside => by simp [walk, inside]
      have value : Emits c [⟨some ty, right⟩] (binary op left right ty).walk
          (right.emit c (some ty)) (right.lower c (some ty)) :=
        right.emits c (some ty) fun x inside => by simp [walk, inside]
      exact target.bind value.last
    · exact whole
  | _ => exact whole

namespace Ty

/-- The size of an array type is emitted as it is lowered. -/
theorem emits_brackets (c : Context) (ty : Ty) :
    Emits c ty.sizeSites ty.walk (ty.emitBrackets c) (ty.lowerBrackets c) := by
  have size : Emits c (ty.size.toList.flatMap fun size => [⟨none, size⟩]) ty.walk
      (Traced.optional (ty.size.map (Expr.emit c none))) (ty.size.map (Expr.lower c none)) :=
    .optional (fun size => size.emits c none (List.Subset.refl _)) (List.Subset.refl _)
  rw [sizeSites, ← List.flatMap_pure_eq_map]
  exact size.map Glsl.Brackets.mk

/-- A declarator of a type is emitted as it is lowered, with the size of the array. -/
theorem emits_declarator (c : Context) (ty : Ty) (name : String) :
    Emits c ty.bracketSites ty.walk (ty.emitDeclarator c name) (ty.declarator c name) := by
  unfold bracketSites declarator emitDeclarator
  by_cases isArray : ty.isArray = true
  · simp only [if_pos isArray]
    exact .map _ (.map some (ty.emits_brackets c))
  · simp only [if_neg isArray]
    exact .pure _

end Ty

namespace Declaration

variable (c : Context) (declaration : Declaration)

/-- The size of a declared array is emitted within the walk of the declaration. -/
theorem emits_brackets : Emits c declaration.ty.sizeSites declaration.walk
    (declaration.ty.emitBrackets c) (declaration.ty.lowerBrackets c) :=
  (declaration.ty.emits_brackets c).mono (List.subset_append_left _ _)

/-- The initial values, each by itself. -/
theorem emits_values : Emits c (Site.arguments [] declaration.initializer) declaration.walk
    (Traced.all (Expr.emitAll c [] declaration.initializer))
    (Expr.lowerAll c [] declaration.initializer) := by
  rw [Site.emitAll_eq_map, Site.lowerAll_eq_map]
  refine Site.emits_all fun site listed => (site.emits c).mono fun x inside => ?_
  refine List.mem_append_right _ (List.mem_flatMap.2 ⟨site.expr, ?_, inside⟩)
  exact Site.expr_mem_of_mem_arguments listed

/-- The array literal of a declaration is emitted as it is lowered, item by item. -/
theorem emits_arrayLiteral : Emits c declaration.literalSites declaration.walk
    (declaration.emitArrayLiteral c) (declaration.arrayLiteral c) :=
  (declaration.emits_brackets c).bind (declaration.emits_values c).last

/-- The initial value of a declaration is emitted as it is lowered. -/
theorem emits_initial : Emits c declaration.initialSites declaration.walk
    (declaration.emitInitial c) (declaration.initial? c) := by
  have values := declaration.emits_arrayLiteral c
  unfold initialSites emitInitial initial?
  cases starts : declaration.initializer with
  | nil => exact .pure none
  | cons first rest =>
    dsimp only
    split
    · exact .map _ values
    · refine .map _ (first.emits c (some declaration.ty) fun x inside => ?_)
      refine List.mem_append_right _ (List.mem_flatMap.2 ⟨first, ?_, inside⟩)
      rw [starts]
      exact List.mem_cons_self

/-- A declarator is emitted as it is lowered, its size in front of its initial value. -/
theorem emits_declarator : Emits c declaration.sites declaration.walk
    (declaration.emitDeclarator c) (declaration.declarator c) := by
  have named : Emits c declaration.ty.bracketSites declaration.walk
      (declaration.ty.emitDeclarator c declaration.name)
      (declaration.ty.declarator c declaration.name) :=
    (declaration.ty.emits_declarator c declaration.name).mono (List.subset_append_left _ _)
  exact named.bind (declaration.emits_initial c).last

/-- A global declaration is emitted as it is lowered, as a macro, a sampler or a variable. -/
theorem emits_global : Emits c declaration.globalSites declaration.walk
    (declaration.emitGlobal c) (declaration.lowerGlobal c) := by
  unfold globalSites emitGlobal lowerGlobal
  split
  · split
    · exact .map _ (declaration.emits_arrayLiteral c)
    · exact .pure []
  · split
    · cases declaration.textureUnit with
      | ok unit => exact .pure _
      | error fault => exact .pure _
    · exact .map _ (declaration.emits_declarator c)

/-- The emission of a declaration comes to its statements, wherever it stands. -/
theorem emits (scope : Scope) : Emits c (declaration.sitesIn c scope) declaration.walk
    (declaration.emit c scope) (declaration.lower c scope) := by
  unfold sitesIn emit lower
  split
  · exact .pure []
  · split
    · exact declaration.emits_global c
    · exact .map _ (declaration.emits_declarator c)

/-- The content of a buffer is emitted as it is lowered, with no more than the size of its type. -/
theorem emits_buffer : Emits c declaration.ty.sizeSites declaration.walk
    (declaration.emitBuffer c) (declaration.lowerBuffer c) := by
  unfold emitBuffer lowerBuffer
  cases declaration.bigArrayRegister? with
  | none => exact .map _ (declaration.emits_brackets c)
  | some register => exact .map _ (declaration.emits_brackets c)

end Declaration

/-- The emission of a returned value comes to the statements that return it. -/
theorem Expr.emits_result (c : Context) (scope : Scope) (value : Expr) :
    Emits c (value.resultSites c scope) value.walk (value.emitResult c scope)
      (value.lowerResult c scope) := by
  have plain := value.emits c scope.result (List.Subset.refl _)
  unfold resultSites emitResult lowerResult
  split
  · split
    · exact .pure _
    · cases c.returnVariable? with
      | some place => exact .map _ (value.emits c (some c.entry.result) (List.Subset.refl _))
      | none => exact .map _ plain
  · exact .map _ plain

/-- The emission of a structure comes to its statements. -/
theorem Struct.emits (c : Context) (scope : Scope) (struct : Struct) :
    Emits c ((Statement.struct struct).sites c scope) (Statement.struct struct).walk
      (struct.emit c) (struct.lower c) := by
  unfold Struct.emit Struct.lower
  simp only [Statement.sites]
  split
  · refine .map _ (.all fun field listed => ?_)
    refine (field.ty.emits_declarator c field.name).mono fun x inside => ?_
    exact List.mem_flatMap.2 ⟨field, listed, inside⟩
  · exact .pure []

/-- The emission of the head of a function comes to its prototype. -/
theorem Signature.emits (c : Context) (signature : Signature) :
    Emits c (signature.arguments.flatMap fun argument => argument.ty.bracketSites) signature.walk
      (signature.emit c) (signature.prototype c) := by
  refine .map _ (.all fun argument listed => .map _ ?_)
  refine (argument.ty.emits_declarator c argument.name).mono fun x inside => ?_
  exact List.mem_append_right _ (List.mem_flatMap.2 ⟨argument, listed, inside⟩)

namespace Statement

variable (c : Context)

/-- The statements of a body, given the emission of each. -/
theorem emits_body {scope : Scope} {statements : List Statement} {walk : List Expr}
    (each : ∀ s ∈ statements, Emits c (s.sites c scope) s.walk (s.emit c scope) (s.lower c scope))
    (walked : walkAll statements ⊆ walk) :
    Emits c (sitesAll c scope statements) walk (emitAll c scope statements)
      (lowerAll c scope statements) := by
  induction statements with
  | nil => exact .pure []
  | cons s rest ih =>
    obtain ⟨first, later⟩ := List.forall_mem_cons.1 each
    obtain ⟨inFirst, inRest⟩ := List.append_subset.1 walked
    exact (first.mono inFirst).bind (ih later inRest).last

/-- The emission of a statement comes to what the statement is lowered to. -/
theorem emits (scope : Scope) (s : Statement) :
    Emits c (s.sites c scope) s.walk (s.emit c scope) (s.lower c scope) := by
  induction s using bodyInduction generalizing scope with
  | declare declaration => exact declaration.emits c scope
  | struct definition => exact definition.emits c scope
  | buffer name content => exact content.emits_buffer c
  | function signature body ih =>
    simp only [sites, emit, lower]
    split
    · exact .pure []
    · have head := (signature.emits c).mono (List.subset_append_left _ (walkAll body))
      have inner := emits_body c (fun s listed => ih s listed (scope.ofFunction signature))
        (List.subset_append_right signature.walk (walkAll body))
      exact head.bind inner.last
  | branch condition whenTrue ih =>
    have test := condition.emits c (some boolTy)
      (List.subset_append_left condition.walk (walkAll whenTrue))
    have chosen := emits_body c (fun s listed => ih s listed scope.inner)
      (List.subset_append_right condition.walk (walkAll whenTrue))
    exact test.bind chosen.last
  | branchElse condition whenTrue whenFalse ihTrue ihFalse =>
    have inside := List.Subset.refl (branch condition whenTrue (some whenFalse)).walk
    obtain ⟨inHead, inElse⟩ := List.append_subset.1 inside
    obtain ⟨inCondition, inThen⟩ := List.append_subset.1 inHead
    have test := condition.emits c (some boolTy) inCondition
    have chosen := emits_body c (fun s listed => ihTrue s listed scope.inner) inThen
    have other := emits_body c (fun s listed => ihFalse s listed scope.inner) inElse
    exact test.bind (chosen.bind other.last)
  | loop start condition step body ih =>
    have inside := List.Subset.refl (loop start condition step body).walk
    obtain ⟨inHead, inBody⟩ := List.append_subset.1 inside
    obtain ⟨inTest, inStep⟩ := List.append_subset.1 inHead
    obtain ⟨inStart, inCondition⟩ := List.append_subset.1 inTest
    have first : Emits c (start.toList.flatMap Declaration.sites) _
        (Traced.optional (start.map (Declaration.emitDeclarator c)))
        (start.map (Declaration.declarator c)) :=
      .optional (Declaration.emits_declarator c) inStart
    have test : Emits c (condition.toList.flatMap fun e => [⟨some boolTy, e⟩]) _
        (Traced.optional (condition.map (Expr.emit c (some boolTy))))
        (condition.map (Expr.lower c (some boolTy))) :=
      .optional (fun e => e.emits c (some boolTy) (List.Subset.refl _)) inCondition
    have repeated : Emits c (step.toList.flatMap Expr.effectSites) _
        (Traced.optional (step.map (Expr.emitEffect c))) (step.map (Expr.lowerEffect c)) :=
      .optional (Expr.emits_effect c) inStep
    have inner := emits_body c (fun s listed => ih s listed scope.inner) inBody
    -- The sites of a loop are grouped from the left, its emission goes on to the right.
    rw [sites, ← List.flatMap_pure_eq_map, List.append_assoc, List.append_assoc]
    exact first.bind (test.bind (repeated.bind inner.last))
  | block body ih =>
    exact .map _ (emits_body c (fun s listed => ih s listed scope.inner) (List.Subset.refl _))
  | result value =>
    cases value with
    | none => exact .pure _
    | some value =>
      refine (value.emits_result c scope).mono fun x inside => ?_
      exact List.mem_flatMap.2 ⟨value, List.mem_cons_self, inside⟩
  | discard => exact .pure _
  | leave => exact .pure _
  | next => exact .pure _
  | evaluate expr => exact .map _ (expr.emits_effect c)

/-- The emission of a list of statements comes to what the list is lowered to. -/
theorem emits_all (scope : Scope) {statements : List Statement} {walk : List Expr}
    (walked : walkAll statements ⊆ walk) :
    Emits c (sitesAll c scope statements) walk (emitAll c scope statements)
      (lowerAll c scope statements) :=
  emits_body c (fun s _ => s.emits c scope) walked

end Statement

/-! ## Shaders -/

namespace Context

/-- The emission of a shader comes to its program, where the body of the entry is walked. -/
theorem emits_emission {c : Context} (walked : Statement.walkAll c.entry.body ⊆ c.shader.walk) :
    Emits c c.roots c.shader.walk c.emission c.program := by
  have globals := Statement.emits_all c Scope.global (List.Subset.refl c.shader.walk)
  have properties : Emits c (c.shader.localProperties.flatMap Declaration.sites) c.shader.walk
      (Traced.all (c.shader.localProperties.map (Declaration.emitDeclarator c)))
      (c.shader.localProperties.map (Declaration.declarator c)) :=
    .all fun declaration listed =>
      (declaration.emits_declarator c).mono (Shader.localProperty_belongs listed).walked
  have body := Statement.emits_all c c.mainScope walked
  rw [roots, List.append_assoc]
  exact globals.bind (properties.bind body.last)

/-- The program of a shader is emitted on visits to its rendered expressions, and all that is
visited is walked. The entry may be any function of the shader, at any depth, and the interface any
at all; the program is the same for every choice of names. -/
theorem emission_visits_walked {c : Context}
    (taken : (Statement.function c.entry.toSignature c.entry.body).Occurs c.shader) :
    c.emission.value = c.program ∧ (∀ site ∈ c.rendered, site.expr ∈ c.emission.visits) ∧
      c.emission.visits ⊆ c.shader.walk := by
  have walked : Statement.walkAll c.entry.body ⊆ c.shader.walk :=
    List.Subset.trans (List.subset_append_right _ _)
      (taken.belongs fun _ listed => Shader.belongsTo_of_mem listed).walked
  have emits := emits_emission walked
  refine ⟨emits.value, fun site rendered => ?_, emits.walked⟩
  obtain ⟨root, listed, inside⟩ := List.mem_flatMap.1 rendered
  exact emits.parts root listed site inside

end Context

/-- An entry that stores a product. -/
def weighingEntry : Function :=
  let number := Ty.ofBase .float
  let factors : List Expr := [.identifier "left" number, .identifier "right" number]
  ⟨⟨"main", Ty.ofBase .void, none, []⟩,
    [.evaluate (.ofAssign (.identifier "wide" number) (.ofCall "mul" factors number))]⟩

/-- A shader with an array of weights for a property, and one function, which is its entry. -/
def weighedProduct : Shader :=
  let count : Expr := .identifier "count" (Ty.ofBase .int)
  [.declare ⟨"weights", ⟨.float, none, true, some count, false, true⟩, none, none,
    [.identifier "gain" (Ty.ofBase .float)]⟩,
  .function weighingEntry.toSignature weighingEntry.body]

/-- The size and the value of the macro are visited, then the assignment with its two sides, and the
factors in the order in which they are written. -/
theorem weighedProduct_visits :
    let c := Context.ofEntry weighedProduct ⟨.mobileA, .legacy, .vertex⟩ weighingEntry
    let number := Ty.ofBase .float
    let left : Expr := .identifier "left" number
    let right : Expr := .identifier "right" number
    let wide : Expr := .identifier "wide" number
    let product : Expr := .ofCall "mul" [left, right] number
    (Statement.function weighingEntry.toSignature weighingEntry.body).Occurs weighedProduct ∧
      c.emission.visits = [.identifier "count" (Ty.ofBase .int), .identifier "gain" number,
        .ofAssign wide product, wide, product, right, left] ∧
      c.emission.value = c.program ∧ right ∈ Shader.walk weighedProduct := by
  intro c number left right wide product
  have taken : (Statement.function weighingEntry.toSignature weighingEntry.body).Occurs
      weighedProduct := .here (List.mem_cons_of_mem _ List.mem_cons_self)
  have visits : c.emission.visits = [.identifier "count" (Ty.ofBase .int),
      .identifier "gain" number, .ofAssign wide product, wide, product, right, left] := rfl
  obtain ⟨value, -, walked⟩ := Context.emission_visits_walked (c := c) taken
  refine ⟨taken, visits, value, walked ?_⟩
  rw [visits]
  simp

end GlslText
