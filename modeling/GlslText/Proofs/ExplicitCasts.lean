import GlslText.Proofs.Site

/-!
# Casts made explicit

Lowering inserts a cast wherever the expected type has another base than an expression that is no
cast itself. The same casts can be written into the expression: each of them at a site that is
rendered, with the type that is expected there. What comes out asks for no cast any more, and it is
lowered to the same term, so that writing the casts out once more changes nothing.

A read of a colour output is left out: it takes a literal, and a cast of a literal is none.
-/

namespace GlslText

/-- Whether lowering inserts a cast at a site. -/
def Site.insertsCast (site : Site) : Bool :=
  match site.hint with
  | some target => site.expr.needsCast target
  | none => false

/-- A form of an expression, in an explicit cast where lowering inserts one around it. -/
def Expr.inCast (hint : Option Ty) (e form : Expr) : Expr :=
  match hint with
  | some target => if e.needsCast target then .cast form target else form
  | none => form

mutual

/-- An expression with every cast that lowering inserts into it written out. -/
def Expr.withCasts (c : Context) (hint : Option Ty) (e : Expr) : Expr :=
  e.inCast hint <|
    match e with
    | .identifier name ty => .identifier name ty
    | .literal value ty => .literal value ty
    | .unary op operand ty =>
      .unary op (operand.withCasts c (if op = .not then some ty else none)) ty
    | .binary op left right ty =>
      .binary op (left.withCasts c (op.leftHint ty)) (right.withCasts c (op.rightHint ty)) ty
    | .conditional condition whenTrue whenFalse ty =>
      .conditional (condition.withCasts c (some boolTy)) (whenTrue.withCasts c (some ty))
        (whenFalse.withCasts c (some ty)) ty
    | .member object field ty =>
      .member (if (c.stageField? object.ty field).isSome then object else object.withCasts c none)
        field ty
    | .index array position ty => .index (array.withCasts c none) (position.withCasts c none) ty
    | .call callee arguments parameters ty =>
      .call callee
        (if c.rendersArguments callee arguments then Expr.withCastsAll c parameters arguments
          else arguments)
        parameters ty
    | .construct arguments ty => .construct (Expr.withCastsAll c [] arguments) ty
    | .cast operand ty => .cast (operand.withCasts c none) ty

/-- Arguments with the casts to the types of their parameters written out. -/
def Expr.withCastsAll (c : Context) (parameters : List Ty) : List Expr → List Expr
  | [] => []
  | e :: rest => e.withCasts c parameters.head? :: Expr.withCastsAll c parameters.tail rest

end

/-- A site with its casts written out. -/
def Site.withCasts (c : Context) (site : Site) : Site :=
  ⟨site.hint, site.expr.withCasts c site.hint⟩

/-! ## The form inside the cast -/

namespace Expr

variable {c : Context}

/-- The cast at the root stands around the form that an expression has without a hint. -/
theorem withCasts_eq (hint : Option Ty) (e : Expr) :
    e.withCasts c hint = e.inCast hint (e.withCasts c none) := by
  rw [withCasts.eq_def c hint e, withCasts.eq_def c none e]
  rfl

/-- Lowering under a hint inserts a cast around the term without one. -/
theorem lower_eq_castTo (hint : Option Ty) (e : Expr) :
    e.lower c hint = castTo hint e (e.lower c none) := by
  rw [lower.eq_def c hint e, lower.eq_def c none e]
  rfl

/-- Without a hint the type of an expression stays. -/
theorem ty_withCasts_none (e : Expr) : (e.withCasts c none).ty = e.ty := by
  cases e <;> rfl

/-- Without a hint a cast stays a cast, and nothing else becomes one. -/
theorem isCast_withCasts_none (e : Expr) : (e.withCasts c none).isCast = e.isCast := by
  cases e <;> rfl

/-- Writing out the casts inside an expression does not change whether it needs one itself. -/
theorem needsCast_withCasts_none (e : Expr) (target : Ty) :
    (e.withCasts c none).needsCast target = e.needsCast target := by
  rw [needsCast, needsCast, ty_withCasts_none, isCast_withCasts_none]

/-- Arguments get their casts one by one. -/
theorem withCastsAll_eq_map (parameters : List Ty) (es : List Expr) :
    withCastsAll c parameters es =
      (Site.arguments parameters es).map fun site => site.expr.withCasts c site.hint := by
  induction es generalizing parameters with
  | nil => rfl
  | cons e rest ih => rw [withCastsAll, ih, Site.arguments, List.map_cons]

/-- The sites of arguments with casts are the sites of the arguments, with casts. -/
theorem arguments_withCastsAll (parameters : List Ty) (es : List Expr) :
    Site.arguments parameters (withCastsAll c parameters es) =
      (Site.arguments parameters es).map (Site.withCasts c) := by
  induction es generalizing parameters with
  | nil => rfl
  | cons e rest ih =>
    rw [withCastsAll, Site.arguments, ih, Site.arguments, List.map_cons, Site.withCasts]

/-- Writing out casts keeps the number of arguments. -/
theorem length_withCastsAll (parameters : List Ty) (es : List Expr) :
    (withCastsAll c parameters es).length = es.length := by
  simp [withCastsAll_eq_map]

/-- Whether a call that reads no colour output renders its arguments hangs on their number. -/
theorem rendersArguments_congr {callee : String} (noRead : callee ≠ fetchCallee)
    {first second : List Expr} (counted : first.length = second.length) :
    c.rendersArguments callee first = c.rendersArguments callee second := by
  simp only [Context.rendersArguments, noRead, if_false, counted]

/-- An expression that is no read of a colour output. -/
def IsNoRead (e : Expr) : Prop :=
  ∀ call, e.call? = some call → call.callee ≠ fetchCallee

/-- The operands that are rendered are those of the expression, with their casts. -/
theorem operands_withCasts_none {e : Expr} (noRead : e.IsNoRead) :
    (e.withCasts c none).operands c = (e.operands c).map (Site.withCasts c) := by
  cases e with
  | identifier name ty => rfl
  | literal value ty => rfl
  | unary op operand ty => rfl
  | binary op left right ty => rfl
  | conditional condition whenTrue whenFalse ty => rfl
  | member object field ty =>
    by_cases bound : (c.stageField? object.ty field).isSome = true
    · simp [withCasts, inCast, operands, bound]
    · simp [withCasts, inCast, operands, bound, ty_withCasts_none, Site.withCasts]
  | index array position ty => rfl
  | call callee arguments parameters ty =>
    have other : callee ≠ fetchCallee := noRead _ rfl
    by_cases renders : c.rendersArguments callee arguments = true
    · have stays : c.rendersArguments callee (withCastsAll c parameters arguments) = true := by
        rw [rendersArguments_congr other (length_withCastsAll parameters arguments), renders]
      simp only [withCasts, inCast, operands, renders, stays, if_true, arguments_withCastsAll]
    · simp [withCasts, inCast, operands, renders]
  | construct arguments ty =>
    simp only [withCasts, inCast, operands, arguments_withCastsAll]
  | cast operand ty => rfl

/-- A call that reads no colour output comes to the same term with other arguments of the same
terms. -/
theorem call_congr {callee : String} (noRead : callee ≠ fetchCallee) (first second : List Expr)
    (terms : List Glsl.Term) : c.call callee first terms = c.call callee second terms := by
  simp only [Context.call, noRead, if_false]

end Expr

/-! ## Same term, no casts -/

namespace Site

variable {c : Context}

/-- A site without reads of colour outputs, at any depth. -/
def NoReads (site : Site) : Prop :=
  ∀ part ∈ site.expr.walk, part.IsNoRead

/-- The expression of a site without reads is no read. -/
theorem NoReads.own {site : Site} (noReads : site.NoReads) : site.expr.IsNoRead :=
  noReads site.expr site.expr.mem_walk_self

/-- No operand of a site without reads has any. -/
theorem NoReads.operand {site inner : Site} (noReads : site.NoReads)
    (operand : inner ∈ site.expr.operands c) : inner.NoReads :=
  fun part walked => noReads part (Expr.walk_operand_subset operand walked)

/-- Arguments with casts are lowered to the same terms when each of them is. -/
theorem lowerAll_withCastsAll (parameters : List Ty) (es : List Expr)
    (each : ∀ inner ∈ arguments parameters es, (inner.withCasts c).lower c = inner.lower c) :
    Expr.lowerAll c parameters (Expr.withCastsAll c parameters es) =
      Expr.lowerAll c parameters es := by
  rw [lowerAll_eq_map, lowerAll_eq_map, Expr.arguments_withCastsAll, List.map_map]
  exact List.map_congr_left each

/-- The form inside the cast is lowered to the same term when the operands are. -/
theorem lower_withCasts_none {e : Expr} (noRead : e.IsNoRead)
    (each : ∀ inner ∈ e.operands c, (inner.withCasts c).lower c = inner.lower c) :
    (e.withCasts c none).lower c none = e.lower c none := by
  have same (hint : Option Ty) (operand : Expr) (listed : ⟨hint, operand⟩ ∈ e.operands c) :
      (operand.withCasts c hint).lower c hint = operand.lower c hint :=
    each ⟨hint, operand⟩ listed
  cases e with
  | identifier name ty => rfl
  | literal value ty => rfl
  | unary op operand ty =>
    have inner := same _ operand List.mem_cons_self
    simp only [Expr.withCasts, Expr.inCast, Expr.lower, inner]
    rfl
  | binary op left right ty =>
    have first := same _ left List.mem_cons_self
    have second := same _ right (List.mem_cons_of_mem _ List.mem_cons_self)
    simp only [Expr.withCasts, Expr.inCast, Expr.lower, first, second]
    rfl
  | conditional condition whenTrue whenFalse ty =>
    have test := same (some boolTy) condition (by simp [Expr.operands])
    have first := same (some ty) whenTrue (by simp [Expr.operands])
    have second := same (some ty) whenFalse (by simp [Expr.operands])
    simp only [Expr.withCasts, Expr.inCast, Expr.lower, test, first, second]
    rfl
  | member object field ty =>
    by_cases bound : (c.stageField? object.ty field).isSome = true
    · simp only [Expr.withCasts, Expr.inCast, bound, if_true]
    · have inner := same none object (by simp [Expr.operands, bound])
      simp only [Expr.withCasts, Expr.inCast, bound, if_false, Bool.false_eq_true, Expr.lower,
        inner, Expr.ty_withCasts_none]
      rfl
  | index array position ty =>
    have first := same none array List.mem_cons_self
    have second := same none position (List.mem_cons_of_mem _ List.mem_cons_self)
    simp only [Expr.withCasts, Expr.inCast, Expr.lower, first, second]
    rfl
  | call callee arguments parameters ty =>
    by_cases renders : c.rendersArguments callee arguments = true
    · have terms := lowerAll_withCastsAll parameters arguments
        fun inner listed => each inner (by simpa [Expr.operands, renders] using listed)
      simp only [Expr.withCasts, Expr.inCast, renders, if_true, Expr.lower, terms]
      exact Expr.call_congr (noRead _ rfl) _ _ _
    · simp only [Expr.withCasts, Expr.inCast, renders, if_false, Bool.false_eq_true]
  | construct arguments ty =>
    have terms := lowerAll_withCastsAll [] arguments each
    simp only [Expr.withCasts, Expr.inCast, Expr.lower, terms]
    rfl
  | cast operand ty =>
    have inner := same none operand List.mem_cons_self
    simp only [Expr.withCasts, Expr.inCast, Expr.lower, inner]
    rfl

/-- A site with its casts written out is lowered to the same term. -/
theorem lower_withCasts {site : Site} (noReads : site.NoReads) :
    (site.withCasts c).lower c = site.lower c := by
  induction site using operandInduction c with
  | step site ih =>
    have inside : (site.expr.withCasts c none).lower c none = site.expr.lower c none :=
      lower_withCasts_none noReads.own fun inner operand =>
        ih inner operand (noReads.operand operand)
    obtain ⟨hint, e⟩ := site
    change (e.withCasts c hint).lower c hint = e.lower c hint
    rw [Expr.withCasts_eq hint e, e.lower_eq_castTo hint, ← inside]
    cases hint with
    | none => rfl
    | some target =>
      by_cases needed : e.needsCast target = true
      · -- The explicit cast is lowered to the constructor that would have been inserted.
        have settled : (Expr.cast (e.withCasts c none) target).needsCast target = false := by
          simp [Expr.needsCast, Expr.isCast]
        simp only [Expr.inCast, needed, if_true, Expr.lower, castTo, settled, Bool.false_eq_true,
          if_false]
      · have settled : ¬ (e.withCasts c none).needsCast target = true := by
          rwa [Expr.needsCast_withCasts_none]
        simp only [Expr.inCast, needed, if_false, Bool.false_eq_true]
        rw [Expr.lower_eq_castTo]
        simp only [castTo, needed, settled, if_false, Bool.false_eq_true]

/-- Lowering inserts no cast into a site with its casts written out. -/
theorem insertsCast_of_mem_parts {site : Site} (noReads : site.NoReads) :
    ∀ part ∈ (site.withCasts c).parts c, part.insertsCast = false := by
  induction site using operandInduction c with
  | step site ih =>
    obtain ⟨hint, e⟩ := site
    -- Below the root there are the operands of the expression, with their casts.
    have below : ∀ inner ∈ (e.withCasts c none).operands c, ∀ part ∈ inner.parts c,
        part.insertsCast = false := by
      intro inner listed
      rw [Expr.operands_withCasts_none noReads.own] at listed
      obtain ⟨operand, present, rfl⟩ := List.mem_map.1 listed
      exact ih operand present (noReads.operand present)
    have inside (expected : Option Ty) (settled : insertsCast ⟨expected, e⟩ = false) :
        ∀ part ∈ parts c ⟨expected, e.withCasts c none⟩, part.insertsCast = false := by
      intro part listed
      rcases mem_parts.1 listed with rfl | ⟨inner, operand, deeper⟩
      · cases expected with
        | none => rfl
        | some target => exact (e.needsCast_withCasts_none target).trans settled
      · exact below inner operand part deeper
    change ∀ part ∈ parts c ⟨hint, e.withCasts c hint⟩, part.insertsCast = false
    rw [Expr.withCasts_eq]
    cases hint with
    | none => exact inside none rfl
    | some target =>
      by_cases needed : e.needsCast target = true
      · intro part listed
        simp only [Expr.inCast, needed, if_true] at listed
        rcases mem_parts.1 listed with rfl | ⟨inner, operand, deeper⟩
        · simp [insertsCast, Expr.needsCast, Expr.isCast]
        · obtain rfl := List.mem_singleton.1 operand
          exact inside none rfl part deeper
      · simp only [Expr.inCast, needed, if_false, Bool.false_eq_true]
        exact inside (some target) (Bool.eq_false_iff.2 needed)

/-- The form inside the cast is the expression itself when its operands stay. -/
theorem withCasts_none_eq_self {e : Expr}
    (each : ∀ inner ∈ e.operands c, inner.expr.withCasts c inner.hint = inner.expr) :
    e.withCasts c none = e := by
  have stays (hint : Option Ty) (operand : Expr) (listed : ⟨hint, operand⟩ ∈ e.operands c) :
      operand.withCasts c hint = operand :=
    each ⟨hint, operand⟩ listed
  have allStay {parameters : List Ty} {es : List Expr}
      (listed : ∀ inner ∈ arguments parameters es, inner ∈ e.operands c) :
      Expr.withCastsAll c parameters es = es := by
    have same : (arguments parameters es).map (fun inner => inner.expr.withCasts c inner.hint) =
        (arguments parameters es).map expr :=
      List.map_congr_left fun inner among => each inner (listed inner among)
    rw [Expr.withCastsAll_eq_map, same, map_expr_arguments]
  cases e with
  | identifier name ty => rfl
  | literal value ty => rfl
  | unary op operand ty =>
    have inner := stays _ operand List.mem_cons_self
    simp only [Expr.withCasts, Expr.inCast, inner]
  | binary op left right ty =>
    have first := stays _ left List.mem_cons_self
    have second := stays _ right (List.mem_cons_of_mem _ List.mem_cons_self)
    simp only [Expr.withCasts, Expr.inCast, first, second]
  | conditional condition whenTrue whenFalse ty =>
    have test := stays (some boolTy) condition (by simp [Expr.operands])
    have first := stays (some ty) whenTrue (by simp [Expr.operands])
    have second := stays (some ty) whenFalse (by simp [Expr.operands])
    simp only [Expr.withCasts, Expr.inCast, test, first, second]
  | member object field ty =>
    by_cases bound : (c.stageField? object.ty field).isSome = true
    · simp only [Expr.withCasts, Expr.inCast, bound, if_true]
    · have inner := stays none object (by simp [Expr.operands, bound])
      simp only [Expr.withCasts, Expr.inCast, inner, ite_self]
  | index array position ty =>
    have first := stays none array List.mem_cons_self
    have second := stays none position (List.mem_cons_of_mem _ List.mem_cons_self)
    simp only [Expr.withCasts, Expr.inCast, first, second]
  | call callee args parameters ty =>
    by_cases renders : c.rendersArguments callee args = true
    · have inner : Expr.withCastsAll c parameters args = args :=
        allStay fun inner listed => by simpa [Expr.operands, renders] using listed
      simp only [Expr.withCasts, Expr.inCast, inner, ite_self]
    · simp only [Expr.withCasts, Expr.inCast, renders, if_false, Bool.false_eq_true]
  | construct args ty =>
    have inner : Expr.withCastsAll c [] args = args := allStay fun inner listed => listed
    simp only [Expr.withCasts, Expr.inCast, inner]
  | cast operand ty =>
    have inner := stays none operand List.mem_cons_self
    simp only [Expr.withCasts, Expr.inCast, inner]

/-- Where no cast is inserted there is none to write out. -/
theorem withCasts_eq_self {site : Site}
    (settled : ∀ part ∈ site.parts c, part.insertsCast = false) :
    site.expr.withCasts c site.hint = site.expr := by
  induction site using operandInduction c with
  | step site ih =>
    have inside : site.expr.withCasts c none = site.expr :=
      withCasts_none_eq_self fun inner operand => ih inner operand fun part deeper =>
        settled part (mem_parts.2 (.inr ⟨inner, operand, deeper⟩))
    have root : site.insertsCast = false := settled site (mem_parts_self c site)
    rw [Expr.withCasts_eq, inside]
    cases hinted : site.hint with
    | none => rfl
    | some target =>
      rw [insertsCast, hinted] at root
      simp only [Expr.inCast, root, Bool.false_eq_true, if_false]

end Site

/-- Writing out the casts of an expression without reads of colour outputs settles them: under the
same hint no cast is inserted any more, at no site that is rendered, the text is the same and so are
the faults in their order, and writing the casts out again changes nothing. -/
theorem casts_settled (c : Context) (names : Renaming) (hint : Option Ty) (e : Expr)
    (noReads : ∀ call ∈ e.walk.filterMap Expr.call?, call.callee ≠ fetchCallee) :
    (∀ part ∈ Site.parts c ⟨hint, e.withCasts c hint⟩, part.insertsCast = false) ∧
      ((e.withCasts c hint).lower c hint).text names = (e.lower c hint).text names ∧
      ((e.withCasts c hint).lower c hint).faults = (e.lower c hint).faults ∧
      (e.withCasts c hint).withCasts c hint = e.withCasts c hint := by
  have free : Site.NoReads ⟨hint, e⟩ := fun part walked call isCall =>
    noReads call (List.mem_filterMap.2 ⟨part, walked, isCall⟩)
  have settled := Site.insertsCast_of_mem_parts (c := c) free
  have same : (e.withCasts c hint).lower c hint = e.lower c hint := Site.lower_withCasts free
  exact ⟨settled, by rw [same], by rw [same], Site.withCasts_eq_self settled⟩

/-- A choice between an integer and a product that has a type for its first factor only. -/
def mixedChoice : Expr :=
  .conditional (.identifier "n" (Ty.ofBase .int)) (.ofLiteral (.int 2))
    (.call "mul" [.identifier "n" (Ty.ofBase .int), .identifier "x" (Ty.ofBase .float)]
      [Ty.ofBase .float] (Ty.ofBase .float))
    (Ty.ofBase .float)

/-- The cast to a vector around the choice and the casts in its condition, its first branch and its
product are all written out, and the text stays the same. -/
theorem mixedChoice_settled :
    let c := Context.ofEntry [] ⟨.desktopOther, .modern, .fragment⟩
      ⟨⟨"main", Ty.ofBase .void, none, []⟩, []⟩
    let hint := some (Ty.ofBase (.vector (.float .full) .two))
    let explicit := mixedChoice.withCasts c hint
    (∀ call ∈ mixedChoice.walk.filterMap Expr.call?, call.callee ≠ fetchCallee) ∧
      (mixedChoice.lower c hint).text ⟨[]⟩ = "vec2(((bool(n))?(float(2)):(((x) * (float(n))))))" ∧
      (∀ part ∈ Site.parts c ⟨hint, explicit⟩, part.insertsCast = false) ∧
      (explicit.lower c hint).text ⟨[]⟩ = (mixedChoice.lower c hint).text ⟨[]⟩ ∧
      (explicit.lower c hint).faults = (mixedChoice.lower c hint).faults ∧
      explicit.withCasts c hint = explicit := by
  intro c hint explicit
  have noReads : ∀ call ∈ mixedChoice.walk.filterMap Expr.call?, call.callee ≠ fetchCallee := by
    decide
  exact ⟨noReads, by decide +kernel, casts_settled c ⟨[]⟩ hint mixedChoice noReads⟩

end GlslText
