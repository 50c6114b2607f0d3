import GlslText.Proofs.WrittenNames

/-!
# Terms inside terms and on lines

A subterm of a term is written inside its text, and every term of a statement is written on one of
the lines of the statement. The term of a part of a site is a subterm of the term of the site.
-/

namespace GlslText

/-! ## Texts inside texts -/

/-- A text occurs in another exactly when that splits around it. -/
theorem occursIn_iff {part whole : String} :
    occursIn part whole = true ↔ ∃ before after, whole = before ++ part ++ after := by
  rw [occursIn, occursAt_iff]
  constructor
  · rintro ⟨before, after, split⟩
    refine ⟨.ofList before, .ofList after, String.toList_inj.1 ?_⟩
    simpa using split
  · rintro ⟨before, after, rfl⟩
    exact ⟨before.toList, after.toList, by simp⟩

/-- Every text occurs in itself. -/
@[simp]
theorem occursIn_self (text : String) : occursIn text text = true :=
  occursIn_iff.2 ⟨"", "", by simp⟩

/-- What occurs in a text occurs wherever the text does. -/
theorem occursIn_trans {part middle whole : String} (inner : occursIn part middle = true)
    (outer : occursIn middle whole = true) : occursIn part whole = true := by
  obtain ⟨before, after, rfl⟩ := occursIn_iff.1 inner
  obtain ⟨front, back, rfl⟩ := occursIn_iff.1 outer
  exact occursIn_iff.2 ⟨front ++ before, after ++ back, by simp only [String.append_assoc]⟩

/-- What occurs in one of two texts occurs in both together. -/
theorem occursIn_append {part left right : String}
    (inside : occursIn part left = true ∨ occursIn part right = true) :
    occursIn part (left ++ right) = true := by
  rcases inside with inLeft | inRight
  · exact occursIn_trans inLeft (occursIn_iff.2 ⟨"", right, by simp⟩)
  · exact occursIn_trans inRight (occursIn_iff.2 ⟨left, "", by simp⟩)

namespace Glsl

/-! ## Subterms -/

namespace Term

/-- The terms directly inside a term. -/
def operands : Term → List Term
  | literal _ => []
  | named _ _ => []
  | apply _ arguments => arguments
  | unary _ operand => [operand]
  | binary _ left right => [left, right]
  | conditional condition whenTrue whenFalse => [condition, whenTrue, whenFalse]
  | select object _ => [object]
  | index array position => [array, position]
  | group inner => [inner]
  | product left right => [left, right]
  | missing => []
  | faulty _ inner => [inner]

/-- A term stands inside another, at any depth. -/
inductive Subterm (part : Term) : Term → Prop where
  | refl : Subterm part part
  | operand {inner whole : Term} (direct : inner ∈ whole.operands) (below : Subterm part inner) :
      Subterm part whole

/-- A subterm of a subterm is a subterm. -/
theorem Subterm.trans {part middle whole : Term} (inner : part.Subterm middle)
    (outer : middle.Subterm whole) : part.Subterm whole := by
  induction outer with
  | refl => exact inner
  | operand direct below ih => exact .operand direct ih

variable {names : Renaming}

/-- Every term of a list is written in the text of the list. -/
theorem occursIn_textRest {term : Term} {terms : List Term} (listed : term ∈ terms) :
    occursIn (term.text names) (textRest names terms) = true := by
  induction terms with
  | nil => cases listed
  | cons first rest ih =>
    rw [textRest]
    rcases List.mem_cons.1 listed with rfl | later
    · exact occursIn_append (.inl (occursIn_append (.inr (occursIn_self _))))
    · exact occursIn_append (.inr (ih later))

/-- An argument occurs in the list of the arguments. -/
theorem occursIn_textList {term : Term} {terms : List Term} (listed : term ∈ terms) :
    occursIn (term.text names) (textList names terms) = true := by
  cases terms with
  | nil => cases listed
  | cons first rest =>
    rw [textList]
    rcases List.mem_cons.1 listed with rfl | later
    · exact occursIn_append (.inl (occursIn_self _))
    · exact occursIn_append (.inr (occursIn_textRest later))

/-- A term is written with the terms directly inside it. -/
theorem occursIn_operand {inner whole : Term} (direct : inner ∈ whole.operands) :
    occursIn (inner.text names) (whole.text names) = true := by
  -- The text in front of the operand and the text behind it.
  have around (before after : String) :
      occursIn (inner.text names) (before ++ inner.text names ++ after) = true :=
    occursIn_iff.2 ⟨before, after, rfl⟩
  cases whole with
  | literal value => cases direct
  | named name selection => cases direct
  | apply callee arguments =>
    rw [text]
    exact occursIn_append (.inl (occursIn_append (.inr (occursIn_textList direct))))
  | unary op operand =>
    obtain rfl := List.mem_singleton.1 direct
    rw [text]
    simpa only [String.append_assoc] using around ("(" ++ op.before) (op.after ++ ")")
  | binary op left right =>
    simp only [operands, List.mem_cons, List.not_mem_nil, or_false] at direct
    rw [text]
    rcases direct with rfl | rfl
    · simpa only [String.append_assoc] using
        around "(" (" " ++ op.sign ++ " " ++ right.text names ++ ")")
    · exact around _ _
  | conditional condition whenTrue whenFalse =>
    simp only [operands, List.mem_cons, List.not_mem_nil, or_false] at direct
    rw [text]
    rcases direct with rfl | rfl | rfl
    · simpa only [String.append_assoc] using
        around "((" (")?(" ++ whenTrue.text names ++ "):(" ++ whenFalse.text names ++ "))")
    · simpa only [String.append_assoc] using
        around ("((" ++ condition.text names ++ ")?(") ("):(" ++ whenFalse.text names ++ "))")
    · exact around _ _
  | select object field =>
    obtain rfl := List.mem_singleton.1 direct
    rw [text]
    simpa only [String.append_assoc] using around "(" (")." ++ field.text names)
  | index array position =>
    simp only [operands, List.mem_cons, List.not_mem_nil, or_false] at direct
    rw [text]
    rcases direct with rfl | rfl
    · simpa only [String.append_assoc, String.empty_append] using
        around "" ("[" ++ position.text names ++ "]")
    · exact around _ _
  | group inner' =>
    obtain rfl := List.mem_singleton.1 direct
    rw [text]
    exact around _ _
  | product left right =>
    simp only [operands, List.mem_cons, List.not_mem_nil, or_false] at direct
    rw [text]
    rcases direct with rfl | rfl
    · simpa only [String.append_assoc] using around "((" (") * (" ++ right.text names ++ "))")
    · exact around _ _
  | missing => cases direct
  | faulty fault inner' =>
    obtain rfl := List.mem_singleton.1 direct
    rw [text]
    exact occursIn_self _

/-- A subterm is written inside the text of the term. -/
theorem Subterm.occursIn {part whole : Term} (below : part.Subterm whole) :
    occursIn (part.text names) (whole.text names) = true := by
  induction below with
  | refl => exact occursIn_self _
  | operand direct below ih => exact occursIn_trans ih (occursIn_operand direct)

end Term

/-! ## Terms on lines -/

variable {names : Renaming} {term : Term}

/-- What is written of something that may be absent is written if it is present. -/
theorem occursIn_textOf {α : Type} {text : α → String} {value : Option α} {item : α} {part : String}
    (present : item ∈ value.toList) (inside : occursIn part (text item) = true) :
    occursIn part (textOf text value) = true := by
  rw [Option.mem_toList.1 present]
  exact inside

/-- The size of an array occurs in its brackets. -/
theorem Brackets.occursIn_text {brackets : Brackets} (listed : term ∈ brackets.terms) :
    occursIn (term.text names) (brackets.text names) = true :=
  occursIn_append (.inl (occursIn_append (.inr (occursIn_textOf listed (occursIn_self _)))))

/-- A term of an array literal occurs in its text. -/
theorem ArrayLiteral.occursIn_text {literal : ArrayLiteral} (opening closing : String)
    (listed : term ∈ literal.terms) :
    occursIn (term.text names) (literal.text names opening closing) = true := by
  unfold ArrayLiteral.text
  refine occursIn_append (.inl (occursIn_append ?_))
  rcases List.mem_append.1 listed with inBrackets | inValues
  · refine .inl (occursIn_append (.inl (occursIn_append (.inr ?_))))
    exact Brackets.occursIn_text inBrackets
  · exact .inr (Term.occursIn_textList inValues)

/-- A term of an initial value occurs in its text. -/
theorem Initial.occursIn_text {initial : Initial} (listed : term ∈ initial.terms) :
    occursIn (term.text names) (initial.text names) = true := by
  cases initial with
  | value own =>
    obtain rfl := List.mem_singleton.1 listed
    exact occursIn_self _
  | array literal => exact ArrayLiteral.occursIn_text _ _ listed

/-- A term of a declarator occurs in its text. -/
theorem Declarator.occursIn_text {declarator : Declarator} (listed : term ∈ declarator.terms) :
    occursIn (term.text names) (declarator.text names) = true := by
  unfold Declarator.text
  refine occursIn_append ?_
  rcases List.mem_append.1 listed with inBrackets | inInitial
  · obtain ⟨brackets, present, inside⟩ := List.mem_flatMap.1 inBrackets
    exact .inl (occursIn_append (.inr (occursIn_textOf present (Brackets.occursIn_text inside))))
  · obtain ⟨initial, present, inside⟩ := List.mem_flatMap.1 inInitial
    refine .inr (occursIn_textOf present (occursIn_append (.inr ?_)))
    exact Initial.occursIn_text inside

/-- A term of an effect occurs in its text. -/
theorem Effect.occursIn_text {done : Effect} (listed : term ∈ done.terms) :
    occursIn (term.text names) (done.text names) = true := by
  cases done with
  | store op left right =>
    simp only [Effect.terms, List.mem_cons, List.not_mem_nil, or_false] at listed
    rw [Effect.text]
    rcases listed with rfl | rfl
    · refine occursIn_append (.inl (occursIn_append (.inl (occursIn_append (.inl ?_)))))
      exact occursIn_append (.inl (occursIn_self _))
    · exact occursIn_append (.inr (occursIn_self _))
  | evaluate own =>
    obtain rfl := List.mem_singleton.1 listed
    exact occursIn_self _

/-- A term of the replacement of a macro occurs in its text. -/
theorem Replacement.occursIn_text {replacement : Replacement} (listed : term ∈ replacement.terms) :
    occursIn (term.text names) (replacement.text names) = true := by
  cases replacement with
  | array literal =>
    refine occursIn_append (.inl (occursIn_append (.inr ?_)))
    exact ArrayLiteral.occursIn_text _ _ listed
  | name target => cases listed

/-- Every text of a list occurs in the list written with separators. -/
theorem occursIn_intercalate {separator item : String} {items : List String}
    (listed : item ∈ items) : occursIn item (String.intercalate separator items) = true := by
  induction items with
  | nil => cases listed
  | cons first rest ih =>
    cases rest with
    | nil =>
      rw [String.intercalate_singleton, List.mem_singleton.1 listed]
      exact occursIn_self _
    | cons second others =>
      rw [String.intercalate_cons_cons]
      rcases List.mem_cons.1 listed with rfl | later
      · exact occursIn_append (.inl (occursIn_append (.inl (occursIn_self _))))
      · exact occursIn_append (.inr (ih later))

/-- A term of the head of a function occurs in its text. -/
theorem Prototype.occursIn_text {prototype : Prototype} (listed : term ∈ prototype.terms) :
    occursIn (term.text names) (prototype.text names) = true := by
  obtain ⟨parameter, member, inside⟩ := List.mem_flatMap.1 listed
  have own : occursIn (term.text names) (parameter.text names) = true :=
    occursIn_append (.inr (Declarator.occursIn_text inside))
  refine occursIn_append (.inl (occursIn_append (.inr (occursIn_trans own ?_))))
  exact occursIn_intercalate (List.mem_map_of_mem member)

/-- A term of one of the three parts of a loop occurs in the head of the loop. -/
theorem occursIn_loopHead {start : Option Declarator} {condition : Option Term}
    {step : Option Effect}
    (listed : term ∈ start.toList.flatMap Declarator.terms ++ condition.toList
      ++ step.toList.flatMap Effect.terms) :
    occursIn (term.text names) (loopHead names start condition step) = true := by
  unfold loopHead
  refine occursIn_append (.inl (occursIn_append ?_))
  rcases List.mem_append.1 listed with inFront | inStep
  · refine .inl (occursIn_append (.inl (occursIn_append ?_)))
    rcases List.mem_append.1 inFront with inStart | inCondition
    · obtain ⟨declarator, present, inside⟩ := List.mem_flatMap.1 inStart
      refine .inl (occursIn_append (.inl (occursIn_append (.inr ?_))))
      exact occursIn_textOf present (Declarator.occursIn_text inside)
    · exact .inr (occursIn_textOf inCondition (occursIn_self _))
  · obtain ⟨done, present, inside⟩ := List.mem_flatMap.1 inStep
    exact .inr (occursIn_textOf present (Effect.occursIn_text inside))

namespace Stmt

mutual

/-- Every term of a statement is written on one of its lines. -/
theorem exists_line (depth : Nat) (stmt : Stmt) (listed : term ∈ stmt.terms) :
    ∃ line ∈ stmt.lines names depth, occursIn (term.text names) line.text = true := by
  match stmt with
  | declare storage declarator =>
    refine ⟨_, List.mem_cons_self, occursIn_append (.inl (occursIn_append (.inr ?_)))⟩
    exact Declarator.occursIn_text listed
  | sampler isLow base name => cases listed
  | define name replacement =>
    exact ⟨_, List.mem_cons_self, occursIn_append (.inr (Replacement.occursIn_text listed))⟩
  | struct name fields =>
    obtain ⟨field, member, inside⟩ := List.mem_flatMap.1 listed
    refine ⟨⟨depth + 1, field.text names ++ ";"⟩, ?_, ?_⟩
    · refine List.mem_cons_of_mem _ (List.mem_append_left _ (List.mem_append_left _ ?_))
      exact List.mem_map.2 ⟨field, member, rfl⟩
    · exact occursIn_append (.inl (Declarator.occursIn_text inside))
  | function prototype body =>
    rcases List.mem_append.1 listed with inHead | inBody
    · exact ⟨_, List.mem_cons_self, occursIn_append (.inl (Prototype.occursIn_text inHead))⟩
    · obtain ⟨line, member, inside⟩ := exists_lineAll (depth + 1) body inBody
      exact ⟨line, List.mem_cons_of_mem _ (List.mem_append_left _ member), inside⟩
  | branch condition whenTrue none =>
    rcases List.mem_cons.1 listed with rfl | inBody
    · refine ⟨_, List.mem_cons_self, occursIn_append (.inl (occursIn_append (.inr ?_)))⟩
      exact occursIn_self _
    · obtain ⟨line, member, inside⟩ := exists_lineAll (depth + 1) whenTrue inBody
      exact ⟨line, List.mem_cons_of_mem _ (List.mem_append_left _ member), inside⟩
  | branch condition whenTrue (some whenFalse) =>
    rcases List.mem_cons.1 listed with rfl | inBodies
    · refine ⟨_, List.mem_cons_self, occursIn_append (.inl (occursIn_append (.inr ?_)))⟩
      exact occursIn_self _
    rcases List.mem_append.1 inBodies with inTrue | inFalse
    · obtain ⟨line, member, inside⟩ := exists_lineAll (depth + 1) whenTrue inTrue
      exact ⟨line, List.mem_cons_of_mem _ (List.mem_append_left _ member), inside⟩
    · obtain ⟨line, member, inside⟩ := exists_lineAll (depth + 1) whenFalse inFalse
      refine ⟨line, List.mem_cons_of_mem _ (List.mem_append_right _ ?_), inside⟩
      exact List.mem_cons_of_mem _ (List.mem_append_left _ member)
  | loop start condition step body =>
    rcases List.mem_append.1 listed with inHead | inBody
    · exact ⟨_, List.mem_cons_self, occursIn_append (.inl (occursIn_loopHead inHead))⟩
    · obtain ⟨line, member, inside⟩ := exists_lineAll (depth + 1) body inBody
      exact ⟨line, List.mem_cons_of_mem _ (List.mem_append_left _ member), inside⟩
  | block body =>
    obtain ⟨line, member, inside⟩ := exists_lineAll (depth + 1) body listed
    exact ⟨line, List.mem_cons_of_mem _ (List.mem_append_left _ member), inside⟩
  | result none => cases listed
  | result (some value) =>
    obtain rfl := List.mem_singleton.1 listed
    refine ⟨_, List.mem_cons_self, occursIn_append (.inl (occursIn_append (.inr ?_)))⟩
    exact occursIn_self _
  | discard => cases listed
  | leave => cases listed
  | next => cases listed
  | effect done =>
    exact ⟨_, List.mem_cons_self, occursIn_append (.inl (Effect.occursIn_text listed))⟩
  | faulty fault => cases listed

/-- Every term of a list of statements is written on one of their lines. -/
theorem exists_lineAll (depth : Nat) (stmts : List Stmt) (listed : term ∈ termsAll stmts) :
    ∃ line ∈ linesAll names depth stmts, occursIn (term.text names) line.text = true := by
  match stmts with
  | [] => cases listed
  | stmt :: rest =>
    rcases List.mem_append.1 listed with inFirst | inRest
    · obtain ⟨line, member, inside⟩ := exists_line depth stmt inFirst
      exact ⟨line, List.mem_append_left _ member, inside⟩
    · obtain ⟨line, member, inside⟩ := exists_lineAll depth rest inRest
      exact ⟨line, List.mem_append_right _ member, inside⟩

end

end Stmt

end Glsl

/-! ## Terms of the parts of a site -/

/-- What is converted stands in what comes out. -/
theorem subterm_castTo (hint : Option Ty) (e : Expr) (term : Glsl.Term) :
    term.Subterm (castTo hint e term) := by
  unfold castTo
  split
  · split
    · exact .operand List.mem_cons_self .refl
    · exact .refl
  · exact .refl

namespace Context

variable {c : Context}

/-- The object of a selection stands in its term unless a variable stands for the whole. -/
theorem subterm_member {object : Ty} {field : String} {term : Glsl.Term}
    (unbound : (c.stageField? object field).isSome = false) :
    term.Subterm (c.member object field term) := by
  rw [Option.isSome_eq_false_iff, Option.isNone_iff_eq_none] at unbound
  unfold member
  rw [unbound]
  dsimp only
  split
  · split
    · exact .operand List.mem_cons_self .refl
    · exact .operand List.mem_cons_self .refl
  · exact .operand List.mem_cons_self .refl

/-- The arguments of a call stand in its term if the call renders them. -/
theorem subterm_call {callee : String} {arguments : List Expr} {terms : List Glsl.Term}
    {term : Glsl.Term} (counted : terms.length = arguments.length)
    (renders : c.rendersArguments callee arguments = true) (listed : term ∈ terms) :
    term.Subterm (c.call callee arguments terms) := by
  have plain (name : Glsl.Name) : term.Subterm (.apply name terms) := .operand listed .refl
  have form := c.callForm_call callee arguments terms
  generalize c.call callee arguments terms = whole at form ⊢
  cases form with
  | ordinary => exact plain _
  | legacyRead => exact plain _
  | modernRead slot read target modern =>
    simp [rendersArguments, read, target, modern, Except.toOption] at renders
  | faultyRead => exact .operand List.mem_cons_self (plain _)
  | product left right noRead isProduct two =>
    subst two
    simp only [List.mem_cons, List.not_mem_nil, or_false] at listed
    rcases listed with rfl | rfl
    · exact .operand (List.mem_cons_of_mem _ List.mem_cons_self) .refl
    · exact .operand List.mem_cons_self .refl
  | faultyProduct noRead isProduct count =>
    simp only [rendersArguments, noRead, isProduct, ↓reduceIte, beq_iff_eq] at renders
    exact absurd (counted.trans renders) count
  | saturation value noRead noProduct isSaturation one =>
    subst one
    obtain rfl := List.mem_singleton.1 listed
    exact .operand List.mem_cons_self .refl
  | faultySaturation noRead noProduct isSaturation count =>
    simp only [rendersArguments, noRead, noProduct, isSaturation, ↓reduceIte, Bool.false_eq_true,
      beq_iff_eq] at renders
    exact absurd (counted.trans renders) count

end Context

namespace Site

variable {c : Context}

/-- The term of an operand stands in the term of the site. -/
theorem subterm_operand {site inner : Site} (operand : inner ∈ site.expr.operands c) :
    (inner.lower c).Subterm (site.lower c) := by
  obtain ⟨hint, e⟩ := site
  change (inner.lower c).Subterm (e.lower c hint)
  rw [Expr.lower.eq_def]
  refine .trans ?_ (subterm_castTo _ _ _)
  cases e with
  | identifier name ty => cases operand
  | literal value ty => cases operand
  | unary op arg ty =>
    obtain rfl := List.mem_singleton.1 operand
    exact .operand List.mem_cons_self .refl
  | binary op left right ty =>
    simp only [Expr.operands, List.mem_cons, List.not_mem_nil, or_false] at operand
    rcases operand with rfl | rfl
    · exact .operand List.mem_cons_self .refl
    · exact .operand (List.mem_cons_of_mem _ List.mem_cons_self) .refl
  | conditional condition whenTrue whenFalse ty =>
    simp only [Expr.operands, List.mem_cons, List.not_mem_nil, or_false] at operand
    rcases operand with rfl | rfl | rfl
    · exact .operand (by simp [Glsl.Term.operands, lower]) .refl
    · exact .operand (by simp [Glsl.Term.operands, lower]) .refl
    · exact .operand (by simp [Glsl.Term.operands, lower]) .refl
  | member object field ty =>
    simp only [Expr.operands] at operand
    split at operand
    · cases operand
    · rename_i unbound
      obtain rfl := List.mem_singleton.1 operand
      exact Context.subterm_member (Bool.eq_false_iff.2 unbound)
  | index array position ty =>
    simp only [Expr.operands, List.mem_cons, List.not_mem_nil, or_false] at operand
    rcases operand with rfl | rfl
    · exact .operand List.mem_cons_self .refl
    · exact .operand (List.mem_cons_of_mem _ List.mem_cons_self) .refl
  | call callee arguments parameters ty =>
    simp only [Expr.operands] at operand
    split at operand
    · rename_i renders
      simp only [lowerAll_eq_map]
      exact Context.subterm_call (by simp) renders (List.mem_map_of_mem operand)
    · cases operand
  | construct arguments ty =>
    simp only [lowerAll_eq_map]
    exact .operand (List.mem_map_of_mem operand) .refl
  | cast arg ty =>
    obtain rfl := List.mem_singleton.1 operand
    exact .operand List.mem_cons_self .refl

/-- The term of a part stands in the term of the site. -/
theorem subterm_part {part site : Site} (inside : part ∈ site.parts c) :
    (part.lower c).Subterm (site.lower c) := by
  induction site using operandInduction c with
  | step site ih =>
    rcases mem_parts.1 inside with rfl | ⟨inner, operand, deeper⟩
    · exact .refl
    · exact (ih inner operand deeper).trans (subterm_operand operand)

end Site

end GlslText
