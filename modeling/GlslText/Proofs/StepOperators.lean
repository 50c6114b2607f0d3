import GlslText.Proofs.ExplicitCasts
import GlslText.Proofs.StepTokens

/-!
# Increments and decrements of an expression

The text of an expression has a token for every increment and every decrement that is rendered. It
has a decrement more for every negation of an operand whose own text starts with a minus: a negative
literal, or an element of one. Nothing else in a text is read as one of the two.
-/

namespace GlslText

open LongestMatch

/-! ## Operators and signs of expressions -/

namespace Expr

/-- Whether the text of an expression starts with a minus: it is that of a literal, or of an element
of what starts with one. -/
def isSigned : Expr → Bool
  | literal value _ => value.isSigned
  | index array _ _ => array.isSigned
  | _ => false

/-- A decrement in front of its operand or behind it. -/
def isDecrement : Expr → Bool
  | unary .preDecrement _ _ => true
  | unary .postDecrement _ _ => true
  | _ => false

/-- An increment in front of its operand or behind it. -/
def isIncrement : Expr → Bool
  | unary .preIncrement _ _ => true
  | unary .postIncrement _ _ => true
  | _ => false

/-- A negation of what starts with a minus. -/
def negatesSigned : Expr → Bool
  | unary .negative operand _ => operand.isSigned
  | _ => false

end Expr

/-! ## Names of the text -/

/-- A number in decimal digits has only characters of names. -/
theorem isNameChar_toString (n : Nat) : ∀ ch ∈ (toString n).toList, isNameChar ch = true :=
  fun ch inside => isNameChar_of_isDigit (allDigits_toString n ch inside)

namespace Renaming

variable {tokens : List String} {names : Renaming} (chosen : ofTokens tokens = .ok names)

include chosen

/-- An alias is a name. -/
theorem isName_aliasOf {base : String} (needed : base ∈ aliasBases) :
    isName (names.aliasOf base).toList = true := by
  obtain ⟨-, n, numbering⟩ := aliasOf_mem chosen needed
  have bases : aliasBases.all (fun base => isName base.toList) = true := by decide +kernel
  rw [numbering, numbered, String.toList_append]
  exact isName_append (List.all_eq_true.1 bases base needed) (isNameChar_toString n)

/-- A name stays a name when it is replaced by its alias. -/
theorem isName_source {name : String} (isOne : isName name.toList = true) :
    isName (names.source name).toList = true := by
  by_cases reserved : name ∈ reservedWords
  · rw [source_of_reserved reserved]
    exact isName_aliasOf chosen (List.mem_append_right _ reserved)
  · rwa [source_of_not_reserved names name reserved]

/-- A callee is written as a name, whether it is kept or a built-in function. -/
theorem isName_calleeName (profile : Profile) {callee : String}
    (isOne : isName callee.toList = true) :
    isName ((calleeName profile callee).text names).toList = true := by
  unfold calleeName
  cases recognised : intrinsic? callee with
  | none => exact isName_source chosen isOne
  | some intrinsic =>
    have table : intrinsics.all (fun entry => entry.2.words.all fun word => isName word.toList) =
        true := by
      decide +kernel
    obtain ⟨entry, found, rfl⟩ := Option.map_eq_some_iff.1 recognised
    have words := List.all_eq_true.1 table entry (List.mem_of_find?_eq_some found)
    rcases entry.2.name_eq profile with ⟨word, possible, named⟩ | ⟨which, named⟩
    · simp only [named]
      exact List.all_eq_true.1 words word possible
    · simp only [named]
      exact isName_aliasOf chosen which.base_mem_aliasBases

/-- The name of a type is a name, or nothing if the shader gives it none. -/
theorem glslName_text {ty : Ty} (words : ∀ word ∈ ty.tokens, isName word.toList = true) :
    ty.glslName.text names = "" ∨ isName (ty.glslName.text names).toList = true := by
  unfold Ty.glslName
  split
  · cases named : ty.name with
    | none => exact Or.inl rfl
    | some name => exact Or.inr (isName_source chosen (words name (by simp [Ty.tokens, named])))
  · right
    change isName ty.base.spelling.toList = true
    unfold BaseType.spelling
    split <;> decide

end Renaming

/-! ## Lowered expressions -/

section Lowered

variable {step : List Char} (isStep : step ∈ [decrement, increment]) {tokens : List String}
  {names : Renaming} (chosen : Renaming.ofTokens tokens = .ok names) {c : Context}

include isStep

/-- The variable of a colour output, with the components selected from it. -/
theorem operand_color (generation : Generation) (several : Bool) (slot : Nat) {selection : String}
    (narrows : selection ∈ narrowings) :
    IsOperand step 0 false (colorVariable generation several slot ++ selection).toList := by
  rw [String.toList_append]
  cases generation with
  | modern =>
    refine operand_narrowed isStep ?_ narrows
    cases several with
    | false => exact (by decide : isName "out_FragColor0".toList = true)
    | true =>
      have start : isName "out_FragColor".toList = true := by decide
      unfold colorVariable
      rw [String.toList_append]
      exact isName_append start (isNameChar_toString slot)
  | legacy =>
    cases several with
    | false =>
      exact operand_narrowed isStep (by decide : isName "gl_FragColor".toList = true) narrows
    | true =>
      have array : isName "gl_FragData".toList = true := by decide
      have whole : (colorVariable .legacy true slot).toList ++ selection.toList =
          "gl_FragData".toList ++ '[' :: ((toString slot).toList ++ ']' :: selection.toList) := by
        unfold colorVariable
        simp
      rw [whole]
      have closed := ((operand_toString isStep slot).brings isStep).append
        (.mark isStep (by decide : ']' ∈ _) (brings_narrowing isStep narrows)) (by decide)
      exact (operand_name isStep array).append (.mark isStep (by decide) closed) (by decide)

/-- The type of a cast or of a constructor. -/
theorem operand_glslName (chosen : Renaming.ofTokens tokens = .ok names) {ty : Ty}
    (words : ∀ word ∈ ty.tokens, isName word.toList = true) :
    IsOperand step 0 false (ty.glslName.text names).toList := by
  rcases Renaming.glslName_text chosen words with nothing | isOne
  · rw [nothing]
    exact operand_nothing
  · exact operand_name isStep isOne

include chosen

/-- An identifier, or the texture unit in its place, is an operand without steps. -/
theorem operand_identifier {name : String} (ty : Ty) (isOne : isName name.toList = true) :
    IsOperand step 0 false ((c.identifier name ty).text names).toList := by
  have named {written : Glsl.Name} (isOne : isName (written.text names).toList = true) :
      IsOperand step 0 false ((Glsl.Term.named written "").text names).toList := by
    rw [Glsl.Term.text, String.append_empty]
    exact operand_name isStep isOne
  have plain : IsOperand step 0 false ((Glsl.Term.named (.source name) "").text names).toList :=
    named (Renaming.isName_source chosen isOne)
  unfold Context.identifier
  dsimp only
  split
  · split
    · exact plain
    · split
      · rename_i unit _
        refine named ?_
        have start : isName (c.profile.stage.word ++ "Texture").toList = true := by
          cases c.profile.stage <;> decide
        rw [Glsl.Name.text, String.toList_append]
        exact isName_append start (isNameChar_toString unit)
      · exact plain
  · exact plain

omit chosen in
/-- The variable that a field is bound to. -/
theorem operand_boundField {field : Field} {role : Role} {binding : Binding}
    (isOne : isName field.name.toList = true)
    (binds : field.binding? c.profile.stage role = some binding) :
    IsOperand step 0 false ((c.boundField field binding).text names).toList := by
  have letters := nameChars_of_isName isOne
  have carried {start : String} (starts : isName start.toList = true) {selection : String}
      (narrows : selection ∈ narrowings) :
      IsOperand step 0 false (start ++ field.name ++ selection).toList := by
    rw [String.toList_append, String.toList_append]
    exact operand_narrowed isStep (isName_append starts letters) narrows
  cases binding with
  | builtIn variableName =>
    obtain ⟨semantic, named⟩ := Field.builtIn?_of_binding? binds
    obtain ⟨entry, found, rfl⟩ := Option.map_eq_some_iff.1 named
    have table : builtInSemantics.all (fun entry => isName entry.2.toList) = true := by decide
    rw [Context.boundField, Glsl.Term.text, Glsl.Name.text, String.append_empty]
    exact operand_name isStep (List.all_eq_true.1 table entry (List.mem_of_find?_eq_some found))
  | vertexInput isWidened =>
    refine carried (by decide : isName "attr_".toList = true) ?_
    split
    · exact field.ty.base.narrowing_mem
    · decide
  | varying => exact carried (by decide : isName "var_".toList = true) (by decide)
  | color slot => exact operand_color isStep _ _ _ field.ty.base.narrowing_mem

/-- A selection brings what its object brings, unless a variable stands for it. -/
theorem operand_member {object : Ty} {field : String} {term : Glsl.Term} {n : Nat}
    (isOne : isName field.toList = true)
    (inner : c.stageField? object field = none → Brings step n (term.text names).toList) :
    IsOperand step (if (c.stageField? object field).isSome then 0 else n) false
      ((c.member object field term).text names).toList := by
  unfold Context.member
  cases bound : c.stageField? object field with
  | some variableTerm =>
    obtain ⟨struct, declared, binding, -, selected, binds, rfl⟩ :=
      Context.stageField?_eq_some_iff.1 bound
    have sameName : declared.name = field := by simpa using List.find?_some selected
    simp only [Option.isSome_some, ↓reduceIte]
    exact operand_boundField isStep (sameName ▸ isOne) binds
  | none =>
    have inner := inner bound
    simp only [Option.isSome_none, Bool.false_eq_true, ↓reduceIte]
    split
    · split
      · rename_i helper _
        have isHelper : isName (names.helper helper).toList = true :=
          Renaming.isName_aliasOf chosen helper.base_mem_aliasBases
        exact Glsl.Term.operand_apply_one isStep (operand_name isStep isHelper) inner
      · have whole : ((Glsl.Term.group term).text names).toList =
            '(' :: ((term.text names).toList ++ [')']) := by
          simp [Glsl.Term.text]
        rw [whole]
        exact Glsl.Term.operand_round isStep inner
    · exact Glsl.Term.operand_select isStep inner (Renaming.isName_source chosen isOne)

/-- A call brings what its arguments bring, if it renders them. -/
theorem operand_call {α : Type} {term : α → Glsl.Term} {count : α → Nat} {callee : String}
    {arguments : List Expr} {items : List α} (counted : items.length = arguments.length)
    (isOne : isName callee.toList = true)
    (each : c.rendersArguments callee arguments = true →
      ∀ item ∈ items, Brings step (count item) ((term item).text names).toList) :
    IsOperand step (if c.rendersArguments callee arguments then (items.map count).sum else 0) false
      ((c.call callee arguments (items.map term)).text names).toList := by
  have called := operand_name isStep (Renaming.isName_calleeName chosen c.profile isOne)
  have plain (renders : c.rendersArguments callee arguments = true) :=
    Glsl.Term.operand_apply isStep called (each renders)
  have form := c.callForm_call callee arguments (items.map term)
  generalize c.call callee arguments (items.map term) = whole at form ⊢
  cases form with
  | ordinary noRead noProduct noSaturation =>
    have renders : c.rendersArguments callee arguments = true := by
      simp [Context.rendersArguments, noRead, noProduct, noSaturation]
    rw [if_pos renders]
    exact plain renders
  | legacyRead slot read target legacy =>
    have renders : c.rendersArguments callee arguments = true := by
      simp [Context.rendersArguments, read, legacy]
    rw [if_pos renders]
    exact plain renders
  | modernRead slot read target modern =>
    have renders : c.rendersArguments callee arguments = false := by
      simp [Context.rendersArguments, read, target, modern, Except.toOption]
    rw [renders, if_neg Bool.false_ne_true]
    exact operand_color isStep .modern true slot (by decide : "" ∈ narrowings)
  | faultyRead cause read target =>
    have renders : c.rendersArguments callee arguments = true := by
      simp [Context.rendersArguments, read, target, Except.toOption]
    rw [if_pos renders]
    exact plain renders
  | product left right noRead isProduct two =>
    obtain ⟨first, second, rfl⟩ : ∃ first second, items = [first, second] :=
      List.length_eq_two.1 (by simpa using congrArg List.length two)
    have renders : c.rendersArguments callee arguments = true := by
      simp [Context.rendersArguments, noRead, isProduct, ← counted]
    rw [if_pos renders]
    obtain ⟨rfl, rfl⟩ : term first = left ∧ term second = right := by simpa using two
    have factors := Glsl.Term.operand_product isStep (each renders second (by simp))
      (each renders first (by simp))
    simpa [Nat.add_comm] using factors
  | faultyProduct noRead isProduct count =>
    have renders : c.rendersArguments callee arguments = false := by
      simpa [Context.rendersArguments, noRead, isProduct, ← counted] using count
    rw [renders, if_neg Bool.false_ne_true]
    exact operand_nothing
  | saturation value noRead noProduct isSaturation one =>
    obtain ⟨first, rfl⟩ : ∃ first, items = [first] :=
      List.length_eq_one_iff.1 (by simpa using congrArg List.length one)
    have renders : c.rendersArguments callee arguments = true := by
      simp [Context.rendersArguments, noRead, noProduct, isSaturation, ← counted]
    rw [if_pos renders]
    obtain rfl : term first = value := by simpa using one
    have bound {digit : Char} (isDigit : digit.isDigit = true) {word : String}
        (written : word.toList = [digit, '.', '0']) :
        Brings step 0 ((Glsl.Term.ofWord word).text names).toList := by
      rw [Glsl.Term.ofWord, Glsl.Term.text, Glsl.Name.text, String.append_empty, written]
      exact (operand_pointZero isStep isDigit).brings isStep
    have bounded : ∀ item ∈ [(term first, count first), (.ofWord "0.0", 0), (.ofWord "1.0", 0)],
        Brings step item.2 (item.1.text names).toList := by
      simp only [List.forall_mem_cons, List.not_mem_nil, false_imp_iff, implies_true, and_true]
      exact ⟨each renders first (by simp), bound (by decide : '0'.isDigit = true) (by decide),
        bound (by decide : '1'.isDigit = true) (by decide)⟩
    have clamp : IsOperand step 0 false ((Glsl.Name.word "clamp").text names).toList :=
      operand_name isStep (by decide : isName "clamp".toList = true)
    simpa using Glsl.Term.operand_apply isStep clamp bounded
  | faultySaturation noRead noProduct isSaturation count =>
    have renders : c.rendersArguments callee arguments = false := by
      simpa [Context.rendersArguments, noRead, noProduct, isSaturation, ← counted] using count
    rw [renders, if_neg Bool.false_ne_true]
    exact operand_nothing

/-- A cast inserted around an expression hides its sign. -/
theorem operand_castTo {hint : Option Ty} {e : Expr} {term : Glsl.Term} {n : Nat} {signed : Bool}
    (words : ∀ ty, hint = some ty → ∀ word ∈ ty.tokens, isName word.toList = true)
    (inner : IsOperand step n signed (term.text names).toList) :
    IsOperand step n (!(Site.mk hint e).insertsCast && signed)
      ((castTo hint e term).text names).toList := by
  unfold castTo Site.insertsCast
  cases hint with
  | none => exact inner
  | some target =>
    dsimp only
    by_cases needed : e.needsCast target = true
    · rw [if_pos needed, needed, Bool.not_true, Bool.false_and]
      exact Glsl.Term.operand_apply_one isStep (operand_glslName isStep chosen (words target rfl))
        (inner.brings isStep)
    · rw [if_neg needed, Bool.eq_false_iff.2 needed, Bool.not_false, Bool.true_and]
      exact inner

end Lowered

/-! ## Steps of an expression -/

/-- The steps that an expression writes by itself. -/
def Expr.steps : Expr → List (List Char)
  | .unary op operand _ => op.steps operand.isSigned
  | _ => []

namespace Site

/-- The names in an expression and in the type expected of it. -/
def words (site : Site) : List String :=
  site.expr.walk.flatMap Expr.tokens ++ site.hint.toList.flatMap Ty.tokens

/-- How often the parts of a site write a step. -/
def stepCount (c : Context) (step : List Char) (site : Site) : Nat :=
  ((site.parts c).flatMap fun part => part.expr.steps).count step

/-- The steps of a site are those of its operands and those that it writes by itself. -/
theorem stepCount_eq (c : Context) (step : List Char) (site : Site) :
    site.stepCount c step =
      ((site.expr.operands c).map (stepCount c step)).sum + site.expr.steps.count step := by
  rw [stepCount, parts_eq, List.flatMap_cons, List.count_append, List.flatMap_assoc,
    List.count_flatMap, Nat.add_comm]
  rfl

/-- The names in an operand are among those of the whole. -/
theorem words_operand_subset {c : Context} {site inner : Site}
    (operand : inner ∈ site.expr.operands c) : inner.words ⊆ site.words := by
  intro word used
  rcases List.mem_append.1 used with own | hinted
  · obtain ⟨e, walked, named⟩ := List.mem_flatMap.1 own
    exact List.mem_append_left _
      (List.mem_flatMap.2 ⟨e, Expr.walk_operand_subset operand walked, named⟩)
  · obtain ⟨ty, expected, named⟩ := List.mem_flatMap.1 hinted
    refine List.mem_append_left _ (List.mem_flatMap.2 ⟨site.expr, site.expr.mem_walk_self, ?_⟩)
    exact Expr.tokens_operand_hint_subset operand (by simpa using expected) named

/-- What an expression brings by itself is added to what its operands bring. -/
theorem operand_lower_step {step : List Char} (isStep : step ∈ [decrement, increment])
    {tokens : List String} {names : Renaming} (chosen : Renaming.ofTokens tokens = .ok names)
    {c : Context} {e : Expr} (own : ∀ word ∈ e.tokens, isName word.toList = true)
    (inner : ∀ operand ∈ e.operands c, IsOperand step (operand.stepCount c step)
      (!operand.insertsCast && operand.expr.isSigned) ((operand.lower c).text names).toList) :
    IsOperand step (((e.operands c).map (stepCount c step)).sum + e.steps.count step) e.isSigned
      ((e.lower c none).text names).toList := by
  have typed : ∀ word ∈ e.ty.tokens, isName word.toList = true := fun word used =>
    own word (e.tokens_ty_subset used)
  have below (operand : Site) (rendered : operand ∈ e.operands c) :=
    (inner operand rendered).brings isStep
  cases e with
  | identifier name ty =>
    rw [Expr.lower]
    exact operand_identifier isStep chosen ty (own name List.mem_cons_self)
  | literal value ty =>
    rw [Expr.lower]
    exact operand_literal isStep value
  | unary op operand ty =>
    have whole := Glsl.Term.operand_unary isStep op
      (inner ⟨if op = .not then some ty else none, operand⟩ List.mem_cons_self)
    have same : op.steps (!(Site.mk (if op = .not then some ty else none) operand).insertsCast
        && operand.isSigned) = op.steps operand.isSigned := by
      cases op <;> simp [UnaryOp.steps, insertsCast]
    rw [same] at whole
    simpa [Expr.lower, castTo, lower, Expr.operands, Expr.steps, Expr.isSigned] using whole
  | binary op left right ty =>
    have whole := Glsl.Term.operand_binary isStep op
      (below ⟨op.leftHint ty, left⟩ List.mem_cons_self)
      (below ⟨op.rightHint ty, right⟩ (List.mem_cons_of_mem _ List.mem_cons_self))
    simpa [Expr.lower, castTo, lower, Expr.operands, Expr.steps, Expr.isSigned] using whole
  | conditional condition whenTrue whenFalse ty =>
    have whole := Glsl.Term.operand_conditional isStep
      (below ⟨some boolTy, condition⟩ (by simp [Expr.operands]))
      (below ⟨some ty, whenTrue⟩ (by simp [Expr.operands]))
      (below ⟨some ty, whenFalse⟩ (by simp [Expr.operands]))
    simpa [Expr.lower, castTo, lower, Expr.operands, Expr.steps, Expr.isSigned] using whole
  | member object field ty =>
    have whole := operand_member isStep chosen (own field List.mem_cons_self)
      fun unbound : c.stageField? object.ty field = none =>
        below ⟨none, object⟩ (by simp [Expr.operands, unbound])
    cases bound : c.stageField? object.ty field with
    | none =>
      simpa [Expr.lower, castTo, lower, Expr.operands, Expr.steps, Expr.isSigned, bound] using whole
    | some variableTerm =>
      simpa [Expr.lower, castTo, lower, Expr.operands, Expr.steps, Expr.isSigned, bound] using whole
  | index array position ty =>
    have whole := Glsl.Term.operand_index isStep (inner ⟨none, array⟩ (by simp [Expr.operands]))
      (below ⟨none, position⟩ (by simp [Expr.operands]))
    simpa [Expr.lower, castTo, lower, Expr.operands, Expr.steps, Expr.isSigned,
      insertsCast] using whole
  | call callee arguments parameters ty =>
    have whole := operand_call isStep chosen (length_arguments parameters arguments)
      (own callee List.mem_cons_self)
      fun (renders : c.rendersArguments callee arguments = true) argument listed =>
        below argument (by simpa [Expr.operands, renders] using listed)
    by_cases renders : c.rendersArguments callee arguments = true
    · simpa [Expr.lower, castTo, lowerAll_eq_map, Expr.operands, Expr.steps, Expr.isSigned,
        renders] using whole
    · simpa [Expr.lower, castTo, lowerAll_eq_map, Expr.operands, Expr.steps, Expr.isSigned,
        renders] using whole
  | construct arguments ty =>
    have whole := Glsl.Term.operand_apply isStep (operand_glslName isStep chosen typed) below
    simpa [Expr.lower, castTo, lowerAll_eq_map, Expr.operands, Expr.steps, Expr.isSigned,
      Expr.ty] using whole
  | cast operand ty =>
    have whole := Glsl.Term.operand_apply_one isStep (operand_glslName isStep chosen typed)
      (below ⟨none, operand⟩ List.mem_cons_self)
    simpa [Expr.lower, castTo, lower, Expr.operands, Expr.steps, Expr.isSigned, Expr.ty] using whole

/-- The text of a site brings the steps of its parts. -/
theorem operand_lower {step : List Char} (isStep : step ∈ [decrement, increment])
    {tokens : List String} {names : Renaming} (chosen : Renaming.ofTokens tokens = .ok names)
    (c : Context) (site : Site) (named : ∀ word ∈ site.words, isName word.toList = true) :
    IsOperand step (site.stepCount c step) (!site.insertsCast && site.expr.isSigned)
      ((site.lower c).text names).toList := by
  induction site using operandInduction c with
  | step site ih =>
    have own : ∀ word ∈ site.expr.tokens, isName word.toList = true := fun word used =>
      named word (List.mem_append_left _
        (List.mem_flatMap.2 ⟨site.expr, site.expr.mem_walk_self, used⟩))
    have hinted : ∀ ty, site.hint = some ty → ∀ word ∈ ty.tokens, isName word.toList = true :=
      fun ty expected word used =>
        named word (List.mem_append_right _ (List.mem_flatMap.2 ⟨ty, by simp [expected], used⟩))
    have inner := operand_lower_step isStep chosen own fun operand rendered =>
      ih operand rendered fun word used => named word (words_operand_subset rendered used)
    rw [stepCount_eq, lower, Expr.lower_eq_castTo]
    exact operand_castTo isStep chosen hinted inner

/-- The steps of expressions are their operators and the negations of what is signed. -/
theorem count_steps (sites : List Site) :
    (sites.flatMap fun site => site.expr.steps).count decrement =
        sites.countP (·.expr.isDecrement) + sites.countP (·.expr.negatesSigned) ∧
      (sites.flatMap fun site => site.expr.steps).count increment =
        sites.countP (·.expr.isIncrement) := by
  induction sites with
  | nil => exact ⟨rfl, rfl⟩
  | cons site rest ih =>
    have own : site.expr.steps.count decrement =
          (if site.expr.isDecrement then 1 else 0) + (if site.expr.negatesSigned then 1 else 0) ∧
        site.expr.steps.count increment = if site.expr.isIncrement then 1 else 0 := by
      cases site.expr with
      | unary op operand ty =>
        cases op <;> cases signed : operand.isSigned <;>
          simp [Expr.steps, UnaryOp.steps, Expr.isDecrement, Expr.isIncrement, Expr.negatesSigned,
            signed, decrement, increment]
      | _ => exact ⟨rfl, rfl⟩
    simp only [List.flatMap_cons, List.count_append, List.countP_cons, ih, own]
    omega

end Site

/-- The text of an expression whose names are names of the language, cut into tokens by longest
match, has a decrement for every decrement that is rendered and for every negation of what starts
with a minus, and an increment for every increment that is rendered. -/
theorem step_tokens_counted {tokens : List String} {names : Renaming}
    (chosen : Renaming.ofTokens tokens = .ok names) (c : Context) {site : Site}
    (named : ∀ word ∈ site.words, isName word.toList = true) :
    (LongestMatch.tokens ((site.lower c).text names).toList).count decrement =
        (site.parts c).countP (·.expr.isDecrement) +
          (site.parts c).countP (·.expr.negatesSigned) ∧
      (LongestMatch.tokens ((site.lower c).text names).toList).count increment =
        (site.parts c).countP (·.expr.isIncrement) := by
  have counted {step : List Char} (isStep : step ∈ [decrement, increment]) :
      (LongestMatch.tokens ((site.lower c).text names).toList).count step =
        site.stepCount c step := by
    have whole := (Site.operand_lower isStep chosen c site named).brings isStep [] (by simp [Stops])
    simpa [LongestMatch.tokens, LongestMatch.tokensBehind] using whole
  obtain ⟨decrements, increments⟩ := Site.count_steps (site.parts c)
  exact ⟨(counted (by decide)).trans decrements, (counted (by decide)).trans increments⟩

/-- The negation of a negative literal. -/
def negatedMinusOne : Expr :=
  .ofUnary .negative (.ofLiteral (.int (-1)))

/-- The two minus signs of a negated literal are read as a decrement, though none is rendered. -/
theorem negatedMinusOne_fuses :
    (∀ word ∈ (Site.mk none negatedMinusOne).words, isName word.toList = true) ∧
      ∀ (c : Context) (names : Renaming),
        LongestMatch.tokens (((Site.mk none negatedMinusOne).lower c).text names).toList =
            [['('], decrement, ['1'], [')']] ∧
          ((Site.mk none negatedMinusOne).parts c).countP (·.expr.isDecrement) = 0 := by
  refine ⟨by decide, fun c names => ⟨?_, ?_⟩⟩
  · have text : ((Site.mk none negatedMinusOne).lower c).text names = "(--1)" := rfl
    have characters : "(--1)".toList = ['(', '-', '-', '1', ')'] := by decide
    rw [text, characters]
    decide +kernel
  · simp [Site.parts_eq, negatedMinusOne, Expr.ofUnary, Expr.ofLiteral, Expr.operands,
      Expr.isDecrement]

/-- A decrement behind a name, and the negation of a negative literal. -/
def steppedSum : Site :=
  ⟨none, .binary (.arithmetic .add)
    (.ofUnary .postDecrement (.identifier "count" (Ty.ofBase .int))) negatedMinusOne
    (Ty.ofBase .int)⟩

/-- The text has one decrement for the one behind the name and one for the two minus signs. -/
theorem steppedSum_counted :
    let c := Context.ofEntry [] ⟨.desktopOther, .modern, .fragment⟩
      ⟨⟨"main", Ty.ofBase .void, none, []⟩, []⟩
    let text := ((steppedSum.lower c).text firstAliases).toList
    Renaming.ofTokens [] = .ok firstAliases ∧
      (∀ word ∈ steppedSum.words, isName word.toList = true) ∧
      (LongestMatch.tokens text).count decrement =
        (steppedSum.parts c).countP (·.expr.isDecrement) +
          (steppedSum.parts c).countP (·.expr.negatesSigned) ∧
      (LongestMatch.tokens text).count increment =
        (steppedSum.parts c).countP (·.expr.isIncrement) := by
  intro c text
  have chosen : Renaming.ofTokens [] = .ok firstAliases := rfl
  have named : ∀ word ∈ steppedSum.words, isName word.toList = true := by decide
  exact ⟨chosen, named, step_tokens_counted chosen c named⟩

end GlslText
