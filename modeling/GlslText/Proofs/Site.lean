import GlslText.Lowering.Term
import Mathlib.Data.List.Basic

/-!
# Sites of expressions

A site is a place where an expression is rendered: the expression together with the type its
surroundings expect. The operands of a site are sites again, and the parts of a site are all the
sites below it. Not every operand of an expression is rendered: a field of a stage structure
stands for a variable, and so does a read of a colour output in the modern generation.
-/

namespace GlslText

/-- An expression where it is rendered, with the type expected there. -/
structure Site where
  hint : Option Ty
  expr : Expr

namespace Site

/-- The term of a site. -/
def lower (c : Context) (site : Site) : Glsl.Term :=
  site.expr.lower c site.hint

/-- The sites of arguments, each under the type of its parameter. -/
def arguments : List Ty → List Expr → List Site
  | _, [] => []
  | parameters, e :: rest => ⟨parameters.head?, e⟩ :: arguments parameters.tail rest

/-- Arguments are lowered site by site. -/
theorem lowerAll_eq_map (c : Context) (parameters : List Ty) (es : List Expr) :
    Expr.lowerAll c parameters es = (arguments parameters es).map (lower c) := by
  induction es generalizing parameters with
  | nil => rfl
  | cons e rest ih => rw [Expr.lowerAll, ih, arguments, List.map_cons, lower]

/-- There are as many sites as arguments. -/
@[simp]
theorem length_arguments (parameters : List Ty) (es : List Expr) :
    (arguments parameters es).length = es.length := by
  induction es generalizing parameters with
  | nil => rfl
  | cons e rest ih => simp [arguments, ih]

/-- The expressions of the sites are the arguments in order. -/
@[simp]
theorem map_expr_arguments (parameters : List Ty) (es : List Expr) :
    (arguments parameters es).map expr = es := by
  induction es generalizing parameters with
  | nil => rfl
  | cons e rest ih => simp [arguments, ih]

/-- The expression of an argument's site is an argument. -/
theorem expr_mem_of_mem_arguments {parameters : List Ty} {es : List Expr} {site : Site}
    (listed : site ∈ arguments parameters es) : site.expr ∈ es := by
  rw [← map_expr_arguments parameters es]
  exact List.mem_map_of_mem listed

/-- The type expected of an argument is the type of a parameter. -/
theorem hint_mem_of_mem_arguments {parameters : List Ty} {es : List Expr} {site : Site} {ty : Ty}
    (listed : site ∈ arguments parameters es) (hinted : site.hint = some ty) :
    ty ∈ parameters := by
  induction es generalizing parameters with
  | nil => simp [arguments] at listed
  | cons e rest ih =>
    rcases List.mem_cons.1 listed with rfl | later
    · exact List.mem_of_mem_head? hinted
    · exact List.mem_of_mem_tail (ih later)

end Site

/-- A cast adds no fault. -/
theorem faults_castTo (hint : Option Ty) (e : Expr) (term : Glsl.Term) :
    (castTo hint e term).faults = term.faults := by
  unfold castTo
  split
  · split
    · simp [Glsl.Term.faults, Glsl.Term.faultsAll]
    · rfl
  · rfl

/-! ## Operands and parts -/

/-- A member is a stage field when its object is a stage structure with a bound field of that
name. -/
theorem Context.stageField?_eq_some_iff {c : Context} {object : Ty} {name : String}
    {term : Glsl.Term} :
    c.stageField? object name = some term ↔
      ∃ struct field binding, c.interface.struct? (c.interface.roleOf object) = some struct ∧
        struct.field? name = some field ∧
        field.binding? c.profile.stage (c.interface.roleOf object) = some binding ∧
        c.boundField field binding = term := by
  simp [stageField?, Option.bind_eq_some_iff]

/-- What a call with its arguments as terms comes to, and when. -/
inductive Context.CallForm (c : Context) (callee : String) (arguments : List Expr)
    (terms : List Glsl.Term) : Glsl.Term → Prop where
  | ordinary (noRead : callee ≠ fetchCallee) (noProduct : alike callee "mul" = false)
      (noSaturation : alike callee "saturate" = false) :
      CallForm c callee arguments terms (.apply (calleeName c.profile callee) terms)
  | legacyRead (slot : Fin slotCount) (read : callee = fetchCallee)
      (target : fetchTarget arguments = .ok slot) (legacy : c.profile.isLegacy = true) :
      CallForm c callee arguments terms (.apply (calleeName c.profile callee) terms)
  | modernRead (slot : Fin slotCount) (read : callee = fetchCallee)
      (target : fetchTarget arguments = .ok slot) (modern : c.profile.isLegacy = false) :
      CallForm c callee arguments terms (.named (.color .modern true slot) "")
  | faultyRead (cause : FetchFault) (read : callee = fetchCallee)
      (target : fetchTarget arguments = .error cause) :
      CallForm c callee arguments terms
        (.faulty (.fetch cause) (.apply (calleeName c.profile callee) terms))
  | product (left right : Glsl.Term) (noRead : callee ≠ fetchCallee)
      (isProduct : alike callee "mul" = true) (two : terms = [left, right]) :
      CallForm c callee arguments terms (.product right left)
  | faultyProduct (noRead : callee ≠ fetchCallee) (isProduct : alike callee "mul" = true)
      (count : terms.length ≠ 2) :
      CallForm c callee arguments terms (.faulty (.arity "mul" 2 terms.length) .missing)
  | saturation (value : Glsl.Term) (noRead : callee ≠ fetchCallee)
      (noProduct : alike callee "mul" = false) (isSaturation : alike callee "saturate" = true)
      (one : terms = [value]) :
      CallForm c callee arguments terms
        (.apply (.word "clamp") [value, .ofWord "0.0", .ofWord "1.0"])
  | faultySaturation (noRead : callee ≠ fetchCallee) (noProduct : alike callee "mul" = false)
      (isSaturation : alike callee "saturate" = true) (count : terms.length ≠ 1) :
      CallForm c callee arguments terms (.faulty (.arity "saturate" 1 terms.length) .missing)

namespace Context

/-- A product of other than two factors comes to nothing. -/
theorem call_faultyProduct {c : Context} {callee : String} (arguments : List Expr)
    {terms : List Glsl.Term} (noRead : callee ≠ fetchCallee)
    (isProduct : alike callee "mul" = true) (count : terms.length ≠ 2) :
    c.call callee arguments terms = .faulty (.arity "mul" 2 terms.length) .missing := by
  simp only [call, noRead, isProduct, ↓reduceIte]
  split
  · simp at count
  · rfl

/-- A saturation of other than one value comes to nothing. -/
theorem call_faultySaturation {c : Context} {callee : String} (arguments : List Expr)
    {terms : List Glsl.Term} (noRead : callee ≠ fetchCallee)
    (noProduct : alike callee "mul" = false) (isSaturation : alike callee "saturate" = true)
    (count : terms.length ≠ 1) :
    c.call callee arguments terms = .faulty (.arity "saturate" 1 terms.length) .missing := by
  simp only [call, noRead, noProduct, isSaturation, ↓reduceIte, Bool.false_eq_true]
  split
  · simp at count
  · rfl

/-- Every call has one of these forms. -/
theorem callForm_call (c : Context) (callee : String) (arguments : List Expr)
    (terms : List Glsl.Term) :
    c.CallForm callee arguments terms (c.call callee arguments terms) := by
  by_cases read : callee = fetchCallee
  · cases target : fetchTarget arguments with
    | ok slot =>
      by_cases legacy : c.profile.isLegacy = true
      · simpa [call, read, target, legacy] using CallForm.legacyRead slot read target legacy
      · rw [Bool.not_eq_true] at legacy
        simpa [call, read, target, legacy] using CallForm.modernRead slot read target legacy
    | error cause => simpa [call, read, target] using CallForm.faultyRead cause read target
  by_cases isProduct : alike callee "mul" = true
  · by_cases count : terms.length = 2
    · obtain ⟨left, right, rfl⟩ := List.length_eq_two.1 count
      simpa [call, read, isProduct] using CallForm.product left right read isProduct rfl
    · rw [call_faultyProduct arguments read isProduct count]
      exact .faultyProduct read isProduct count
  rw [Bool.not_eq_true] at isProduct
  by_cases isSaturation : alike callee "saturate" = true
  · by_cases count : terms.length = 1
    · obtain ⟨value, rfl⟩ := List.length_eq_one_iff.1 count
      simpa [call, read, isProduct, isSaturation] using
        CallForm.saturation value read isProduct isSaturation rfl
    · rw [call_faultySaturation arguments read isProduct isSaturation count]
      exact .faultySaturation read isProduct isSaturation count
  · rw [Bool.not_eq_true] at isSaturation
    simpa [call, read, isProduct, isSaturation] using
      CallForm.ordinary read isProduct isSaturation

end Context

/-- Whether a call renders its arguments. A read of a colour output is a variable in the modern
generation, and a product or a saturation with the wrong number of arguments comes to nothing. -/
def Context.rendersArguments (c : Context) (callee : String) (arguments : List Expr) : Bool :=
  if callee = fetchCallee then c.profile.isLegacy || (fetchTarget arguments).toOption.isNone
  else if alike callee "mul" then arguments.length == 2
  else if alike callee "saturate" then arguments.length == 1
  else true

/-- The sites of the operands that an expression renders. -/
def Expr.operands (c : Context) : Expr → List Site
  | identifier _ _ => []
  | literal _ _ => []
  | unary op operand ty => [⟨if op = .not then some ty else none, operand⟩]
  | binary op left right ty => [⟨op.leftHint ty, left⟩, ⟨op.rightHint ty, right⟩]
  | conditional condition whenTrue whenFalse ty =>
    [⟨some boolTy, condition⟩, ⟨some ty, whenTrue⟩, ⟨some ty, whenFalse⟩]
  | member object field _ =>
    if (c.stageField? object.ty field).isSome then [] else [⟨none, object⟩]
  | index array position _ => [⟨none, array⟩, ⟨none, position⟩]
  | call callee arguments parameters _ =>
    if c.rendersArguments callee arguments then Site.arguments parameters arguments else []
  | construct arguments _ => Site.arguments [] arguments
  | cast operand _ => [⟨none, operand⟩]

namespace Expr

/-- The expressions directly inside an expression. -/
def children : Expr → List Expr
  | identifier _ _ => []
  | literal _ _ => []
  | unary _ operand _ => [operand]
  | binary _ left right _ => [left, right]
  | conditional condition whenTrue whenFalse _ => [condition, whenTrue, whenFalse]
  | member object _ _ => [object]
  | index array position _ => [array, position]
  | call _ arguments _ _ => arguments
  | construct arguments _ => arguments
  | cast operand _ => [operand]

/-- Whether an expression selects a field that a variable of the interface stands for. -/
def isStageField (c : Context) : Expr → Bool
  | member object field _ => (c.stageField? object.ty field).isSome
  | _ => false

/-- An operand that is rendered stands directly inside its expression, which no variable stands
for. -/
theorem child_of_operand {c : Context} {e : Expr} {inner : Site} (operand : inner ∈ e.operands c) :
    inner.expr ∈ e.children ∧ e.isStageField c = false := by
  cases e with
  | identifier name ty => cases operand
  | literal value ty => cases operand
  | unary op arg ty => simp_all [operands, children, isStageField]
  | binary op left right ty =>
    simp only [operands, List.mem_cons, List.not_mem_nil, or_false] at operand
    rcases operand with rfl | rfl <;> simp [children, isStageField]
  | conditional condition whenTrue whenFalse ty =>
    simp only [operands, List.mem_cons, List.not_mem_nil, or_false] at operand
    rcases operand with rfl | rfl | rfl <;> simp [children, isStageField]
  | member object field ty =>
    simp only [operands] at operand
    split at operand
    · cases operand
    · simp_all [children, isStageField]
  | index array position ty =>
    simp only [operands, List.mem_cons, List.not_mem_nil, or_false] at operand
    rcases operand with rfl | rfl <;> simp [children, isStageField]
  | call callee args parameters ty =>
    simp only [operands] at operand
    split at operand
    · exact ⟨Site.expr_mem_of_mem_arguments operand, rfl⟩
    · cases operand
  | construct args ty => exact ⟨Site.expr_mem_of_mem_arguments operand, rfl⟩
  | cast arg ty => simp_all [operands, children, isStageField]

/-- What stands directly inside an expression is smaller. -/
theorem sizeOf_child_lt {e child : Expr} (listed : child ∈ e.children) :
    sizeOf child < sizeOf e := by
  cases e with
  | call callee arguments parameters ty =>
    have smaller : sizeOf child < sizeOf arguments := List.sizeOf_lt_of_mem listed
    simp
    omega
  | construct arguments ty =>
    have smaller : sizeOf child < sizeOf arguments := List.sizeOf_lt_of_mem listed
    simp
    omega
  | conditional condition whenTrue whenFalse ty =>
    simp only [children, List.mem_cons, List.not_mem_nil, or_false] at listed
    rcases listed with rfl | rfl | rfl <;> simp <;> omega
  | binary op left right ty =>
    simp only [children, List.mem_cons, List.not_mem_nil, or_false] at listed
    rcases listed with rfl | rfl <;> simp <;> omega
  | index array position ty =>
    simp only [children, List.mem_cons, List.not_mem_nil, or_false] at listed
    rcases listed with rfl | rfl <;> simp <;> omega
  | identifier name ty => cases listed
  | literal value ty => cases listed
  | _ =>
    obtain rfl := List.mem_singleton.1 listed
    simp
    omega

/-- The walk over an expression goes over what stands directly inside it. -/
theorem walk_eq (e : Expr) : e.walk = e :: e.children.flatMap walk := by
  cases e <;> simp [walk, children, walkAll_eq_flatMap]

end Expr

namespace Site

/-- An operand is smaller than the expression it belongs to. -/
theorem sizeOf_operand_lt {c : Context} {e : Expr} {inner : Site} (operand : inner ∈ e.operands c) :
    sizeOf inner.expr < sizeOf e :=
  Expr.sizeOf_child_lt (Expr.child_of_operand operand).1

/-- What passes from the operands of a site to the site itself holds at every site. -/
@[elab_as_elim]
theorem operandInduction (c : Context) {motive : Site → Prop}
    (step : ∀ site : Site, (∀ inner ∈ site.expr.operands c, motive inner) → motive site)
    (site : Site) : motive site := by
  induction size : sizeOf site.expr using Nat.strongRecOn generalizing site with
  | ind bound ih =>
    refine step site fun inner operand => ?_
    have smaller := sizeOf_operand_lt operand
    exact ih (sizeOf inner.expr) (size ▸ smaller) inner rfl

/-- A site and all sites below it, parents first. -/
def parts (c : Context) (site : Site) : List Site :=
  site :: (site.expr.operands c).attach.flatMap fun ⟨inner, _⟩ => parts c inner
termination_by sizeOf site.expr
decreasing_by exact sizeOf_operand_lt ‹_›

/-- The parts of a site are the site itself and the parts of its operands. -/
theorem parts_eq (c : Context) (site : Site) :
    site.parts c = site :: (site.expr.operands c).flatMap (parts c) := by
  rw [parts]
  simp [List.flatMap_subtype]

/-- A part is the site itself or a part of an operand. -/
theorem mem_parts {c : Context} {part site : Site} :
    part ∈ site.parts c ↔ part = site ∨ ∃ inner ∈ site.expr.operands c, part ∈ inner.parts c := by
  rw [parts_eq, List.mem_cons, List.mem_flatMap]

/-- Every site is a part of itself. -/
theorem mem_parts_self (c : Context) (site : Site) : site ∈ site.parts c :=
  mem_parts.2 (Or.inl rfl)

end Site

/-! ## Parts are walked, and their hints are named by tokens -/

namespace BinaryOp

/-- The left operand is expected to have the type of the operation, if any. -/
theorem leftHint_eq {op : BinaryOp} {ty hint : Ty} (hinted : op.leftHint ty = some hint) :
    hint = ty := by
  unfold leftHint at hinted
  split at hinted <;> simp_all

/-- The right operand is expected to have the type of the operation, if any. -/
theorem rightHint_eq {op : BinaryOp} {ty hint : Ty} (hinted : op.rightHint ty = some hint) :
    hint = ty := by
  unfold rightHint at hinted
  split at hinted
  · exact (Option.some.inj hinted).symm
  · exact leftHint_eq hinted

end BinaryOp

namespace Expr

/-- The name in the type of an expression is one of its tokens. -/
theorem tokens_ty_subset (e : Expr) : e.ty.tokens ⊆ e.tokens := by
  intro word named
  cases e <;> simp_all [tokens, ty]

/-- What is walked below an operand is walked below the expression. -/
theorem walk_operand_subset {c : Context} {e : Expr} {inner : Site}
    (operand : inner ∈ e.operands c) : inner.expr.walk ⊆ e.walk := by
  intro x walked
  rw [walk_eq e]
  exact List.mem_cons_of_mem _
    (List.mem_flatMap.2 ⟨inner.expr, (child_of_operand operand).1, walked⟩)

/-- The type expected of an operand is named by tokens of the expression. -/
theorem tokens_operand_hint_subset {c : Context} {e : Expr} {inner : Site} {hint : Ty}
    (operand : inner ∈ e.operands c) (hinted : inner.hint = some hint) :
    hint.tokens ⊆ e.tokens := by
  have ofOwn (same : hint = e.ty) : hint.tokens ⊆ e.tokens := same ▸ e.tokens_ty_subset
  have ofBool (same : hint = boolTy) : hint.tokens ⊆ e.tokens := by
    subst same
    exact List.nil_subset _
  cases e with
  | identifier name ty => simp [operands] at operand
  | literal value ty => simp [operands] at operand
  | unary op arg ty =>
    simp only [operands, List.mem_singleton] at operand
    subst operand
    simp only [Option.ite_none_right_eq_some, Option.some.injEq] at hinted
    exact ofOwn hinted.2.symm
  | binary op left right ty =>
    simp only [operands, List.mem_cons, List.not_mem_nil, or_false] at operand
    rcases operand with rfl | rfl
    · exact ofOwn (BinaryOp.leftHint_eq hinted)
    · exact ofOwn (BinaryOp.rightHint_eq hinted)
  | conditional condition whenTrue whenFalse ty =>
    simp only [operands, List.mem_cons, List.not_mem_nil, or_false] at operand
    rcases operand with rfl | rfl | rfl
    · exact ofBool (Option.some.inj hinted).symm
    · exact ofOwn (Option.some.inj hinted).symm
    · exact ofOwn (Option.some.inj hinted).symm
  | member object field ty =>
    simp only [operands] at operand
    split at operand <;> simp_all
  | index array position ty =>
    simp only [operands, List.mem_cons, List.not_mem_nil, or_false] at operand
    rcases operand with rfl | rfl <;> simp at hinted
  | call callee args parameters ty =>
    simp only [operands] at operand
    split at operand
    · have parameter := Site.hint_mem_of_mem_arguments operand hinted
      intro word named
      simp only [tokens, List.mem_cons, List.mem_append, List.mem_flatMap]
      exact Or.inr (Or.inr ⟨hint, parameter, named⟩)
    · simp at operand
  | construct args ty =>
    simpa using Site.hint_mem_of_mem_arguments operand hinted
  | cast arg ty =>
    simp only [operands, List.mem_singleton] at operand
    subst operand
    simp at hinted

end Expr

namespace Site

/-- What is walked below a part is walked below the site. -/
theorem walk_part_subset {c : Context} {part site : Site} (inside : part ∈ site.parts c) :
    part.expr.walk ⊆ site.expr.walk := by
  induction site using operandInduction c with
  | step site ih =>
    rcases mem_parts.1 inside with rfl | ⟨inner, operand, deeper⟩
    · exact List.Subset.refl _
    · exact List.Subset.trans (ih inner operand deeper) (Expr.walk_operand_subset operand)

/-- The type expected of a part is the one expected of the site, or is named by tokens of the
expressions below it. -/
theorem tokens_part_hint {c : Context} {part site : Site} {hint : Ty}
    (inside : part ∈ site.parts c) (hinted : part.hint = some hint) :
    site.hint = some hint ∨ ∃ e ∈ site.expr.walk, hint.tokens ⊆ e.tokens := by
  induction site using operandInduction c with
  | step site ih =>
    rcases mem_parts.1 inside with rfl | ⟨inner, operand, deeper⟩
    · exact Or.inl hinted
    · right
      rcases ih inner operand deeper with expected | ⟨e, walked, named⟩
      · exact ⟨site.expr, site.expr.mem_walk_self,
          Expr.tokens_operand_hint_subset operand expected⟩
      · exact ⟨e, Expr.walk_operand_subset operand walked, named⟩

end Site

end GlslText
