import GlslText.Proofs.Rendered

/-!
# Names in a program

The names of a term are those of its callees, variables and fields. The names of a program are
the ones its statements and its interface declare and those of its terms. The terms of a lowered
program are the terms of its sites, apart from the variable that a returned value is stored in;
so every name in a term is written at some site of the program, by the site itself and not by its
operands.
-/

namespace GlslText

namespace Glsl

/-! ## Terms and names of a program -/

namespace Term

mutual

/-- The names in a term. -/
def names : Term → List Name
  | literal _ => []
  | named name _ => [name]
  | apply callee arguments => callee :: namesAll arguments
  | unary _ operand => operand.names
  | binary _ left right => left.names ++ right.names
  | conditional condition whenTrue whenFalse =>
    condition.names ++ whenTrue.names ++ whenFalse.names
  | select object field => object.names ++ [field]
  | index array position => array.names ++ position.names
  | group inner => inner.names
  | product left right => left.names ++ right.names
  | missing => []
  | faulty _ inner => inner.names

/-- The names in several terms. -/
def namesAll : List Term → List Name
  | [] => []
  | term :: rest => term.names ++ namesAll rest

end

/-- The names in several terms are those of each of them, in their order. -/
theorem namesAll_eq_flatMap (terms : List Term) : namesAll terms = terms.flatMap names := by
  induction terms with
  | nil => rfl
  | cons term rest ih => rw [namesAll, ih, List.flatMap_cons]

/-- Terms that are missing have no names. -/
@[simp]
theorem namesAll_replicate_missing (count : Nat) :
    namesAll (List.replicate count missing) = [] := by
  rw [namesAll_eq_flatMap]
  simp [names]

/-- A name is in the terms of a list exactly when it is in one of them. -/
theorem mem_namesAll {name : Name} {terms : List Term} :
    name ∈ namesAll terms ↔ ∃ term ∈ terms, name ∈ term.names := by
  rw [namesAll_eq_flatMap, List.mem_flatMap]

end Term

/-- The term in brackets. -/
def Brackets.terms (brackets : Brackets) : List Term :=
  brackets.size.toList

/-- The terms of an array written out: its size and its elements. -/
def ArrayLiteral.terms (literal : ArrayLiteral) : List Term :=
  literal.brackets.terms ++ literal.values

/-- The terms of an initial value. -/
def Initial.terms : Initial → List Term
  | value term => [term]
  | array literal => literal.terms

/-- The name that an initial value writes outside its terms: the element type of an array. -/
def Initial.heads : Initial → List Name
  | value _ => []
  | array literal => [literal.element]

namespace Declarator

/-- The terms of a variable: its size and its initial value. -/
def terms (declarator : Declarator) : List Term :=
  declarator.brackets.toList.flatMap Brackets.terms
    ++ declarator.initial.toList.flatMap Initial.terms

/-- The names that a variable writes outside its terms. -/
def heads (declarator : Declarator) : List Name :=
  [declarator.type, declarator.name] ++ declarator.initial.toList.flatMap Initial.heads

end Declarator

/-- The terms of a function head. -/
def Prototype.terms (prototype : Prototype) : List Term :=
  prototype.parameters.flatMap fun parameter => parameter.declarator.terms

/-- The names of a function head. -/
def Prototype.heads (prototype : Prototype) : List Name :=
  [prototype.result, prototype.name]
    ++ prototype.parameters.flatMap fun parameter => parameter.declarator.heads

/-- The terms of what a macro stands for. -/
def Replacement.terms : Replacement → List Term
  | array literal => literal.terms
  | name _ => []

/-- The name that a macro stands for, or the element type of its array. -/
def Replacement.heads : Replacement → List Name
  | array literal => [literal.element]
  | name target => [target]

/-- The terms of an effect. -/
def Effect.terms : Effect → List Term
  | store _ left right => [left, right]
  | evaluate term => [term]

namespace Stmt

mutual

/-- The terms of a statement and of the statements inside it. -/
def terms : Stmt → List Term
  | declare _ declarator => declarator.terms
  | sampler _ _ _ => []
  | define _ replacement => replacement.terms
  | struct _ fields => fields.flatMap Declarator.terms
  | function prototype body => prototype.terms ++ termsAll body
  | branch condition whenTrue none => condition :: termsAll whenTrue
  | branch condition whenTrue (some whenFalse) =>
    condition :: (termsAll whenTrue ++ termsAll whenFalse)
  | loop start condition step body =>
    start.toList.flatMap Declarator.terms ++ condition.toList
      ++ step.toList.flatMap Effect.terms ++ termsAll body
  | block body => termsAll body
  | result value => value.toList
  | discard => []
  | leave => []
  | next => []
  | effect done => done.terms
  | faulty _ => []

/-- The terms of several statements. -/
def termsAll : List Stmt → List Term
  | [] => []
  | stmt :: rest => stmt.terms ++ termsAll rest

end

mutual

/-- The names that a statement writes outside its terms. -/
def heads : Stmt → List Name
  | declare _ declarator => declarator.heads
  | sampler _ _ name => [name]
  | define name replacement => name :: replacement.heads
  | struct name fields => name :: fields.flatMap Declarator.heads
  | function prototype body => prototype.heads ++ headsAll body
  | branch _ whenTrue none => headsAll whenTrue
  | branch _ whenTrue (some whenFalse) => headsAll whenTrue ++ headsAll whenFalse
  | loop start _ _ body => start.toList.flatMap Declarator.heads ++ headsAll body
  | block body => headsAll body
  | result _ => []
  | discard => []
  | leave => []
  | next => []
  | effect _ => []
  | faulty _ => []

/-- The names that several statements write outside their terms. -/
def headsAll : List Stmt → List Name
  | [] => []
  | stmt :: rest => stmt.heads ++ headsAll rest

end

/-- The terms of several statements are those of each of them, in their order. -/
theorem termsAll_eq_flatMap (stmts : List Stmt) : termsAll stmts = stmts.flatMap terms := by
  induction stmts with
  | nil => rfl
  | cons stmt rest ih => rw [termsAll, ih, List.flatMap_cons]

/-- The head names of several statements are those of each of them, in their order. -/
theorem headsAll_eq_flatMap (stmts : List Stmt) : headsAll stmts = stmts.flatMap heads := by
  induction stmts with
  | nil => rfl
  | cons stmt rest ih => rw [headsAll, ih, List.flatMap_cons]

end Stmt

namespace Program

/-- The terms of a program in the order of its text. -/
def terms (program : Program) : List Term :=
  Stmt.termsAll program.globals ++ program.properties.flatMap Declarator.terms
    ++ Stmt.termsAll program.body

/-- The names that the statements of a program write outside its terms. -/
def heads (program : Program) : List Name :=
  Stmt.headsAll program.globals ++ program.properties.flatMap Declarator.heads
    ++ Stmt.headsAll program.body

/-- The names in the statements of a program. -/
def codeNames (program : Program) : List Name :=
  program.heads ++ program.terms.flatMap Term.names

/-- The names in a program: those of its interface and those of its statements. -/
def names (program : Program) : List Name :=
  (program.declared.flatMap fun var => [var.type, var.name]) ++ program.codeNames

end Program

end Glsl

/-! ## Names written at a site -/

/-- The term of an expression with nothing in place of its operands. -/
def Expr.head (c : Context) : Expr → Glsl.Term
  | identifier name ty => c.identifier name ty
  | literal value _ => .literal value
  | unary op _ _ => .unary op .missing
  | binary op _ _ _ => .binary op .missing .missing
  | conditional _ _ _ _ => .conditional .missing .missing .missing
  | member object field _ => c.member object.ty field .missing
  | index _ _ _ => .index .missing .missing
  | call callee arguments _ _ => c.call callee arguments (List.replicate arguments.length .missing)
  | construct _ ty => .apply ty.glslName []
  | cast _ ty => .apply ty.glslName [.missing]

/-- The term of a site with nothing in place of its operands. -/
def Site.head (c : Context) (site : Site) : Glsl.Term :=
  castTo site.hint site.expr (site.expr.head c)

/-- A cast adds the name of its type. -/
theorem mem_names_castTo {hint : Option Ty} {e : Expr} {term : Glsl.Term} {name : Glsl.Name} :
    name ∈ (castTo hint e term).names ↔
      (∃ target, hint = some target ∧ e.needsCast target = true ∧ name = target.glslName) ∨
        name ∈ term.names := by
  unfold castTo
  cases hint with
  | none => simp
  | some target =>
    by_cases needed : e.needsCast target = true
    · simp [needed, Glsl.Term.names, Glsl.Term.namesAll]
    · simp [needed]

/-- The name of a type is a word of the language or a name of the shader. -/
theorem Ty.glslName_eq (ty : Ty) :
    (∃ word, ty.glslName = .word word) ∨ ∃ name, ty.glslName = .source name := by
  unfold glslName
  split
  · split
    · exact Or.inr ⟨_, rfl⟩
    · exact Or.inl ⟨_, rfl⟩
  · exact Or.inl ⟨_, rfl⟩

/-- The words that a built-in function may be called by. -/
def Intrinsic.words : Intrinsic → List String
  | fixed name => [name]
  | byGeneration legacy modern => [legacy, modern]
  | helper _ => []
  | interpolation => ["lerp", "mix"]

/-- The name of a built-in function is one of its words or that of a helper function. -/
theorem Intrinsic.name_eq (profile : Profile) (found : Intrinsic) :
    (∃ word ∈ found.words, found.name profile = .word word) ∨
      ∃ which, found.name profile = .helper which := by
  cases found with
  | fixed name => exact Or.inl ⟨name, List.mem_cons_self, rfl⟩
  | byGeneration legacy modern =>
    refine Or.inl ⟨if profile.isLegacy then legacy else modern, ?_, rfl⟩
    split <;> simp [words]
  | helper which => exact Or.inr ⟨which, rfl⟩
  | interpolation =>
    refine Or.inl ⟨if profile.platform = .desktopMac then "lerp" else "mix", ?_, rfl⟩
    split <;> simp [words]

/-- The names that an expression writes by itself, with where they come from. -/
inductive Expr.Writes (c : Context) : Expr → Glsl.Name → Prop where
  | identifier (name : String) (ty : Ty) : Writes c (.identifier name ty) (.source name)
  | texture (name : String) (ty : Ty) (unit : Nat) :
      Writes c (.identifier name ty) (.texture c.profile.stage unit)
  | bound {object : Expr} {field : String} {ty : Ty} {struct : Struct} {declared : Field}
      {binding : Binding} {name : Glsl.Name}
      (plays : c.interface.struct? (c.interface.roleOf object.ty) = some struct)
      (selected : struct.field? field = some declared)
      (binds : declared.binding? c.profile.stage (c.interface.roleOf object.ty) = some binding)
      (own : name ∈ (c.boundField declared binding).names) : Writes c (.member object field ty) name
  | repeated {object : Expr} {field : String} {ty : Ty} {helper : Helper}
      (scalar : object.ty.base.isNumericScalar = true)
      (repeats : Helper.ofSwizzle? field.utf8ByteSize = some helper) :
      Writes c (.member object field ty) (.helper helper)
  | selected (object : Expr) (field : String) (ty : Ty) :
      Writes c (.member object field ty) (.source field)
  | callee (callee : String) (arguments : List Expr) (parameters : List Ty) (ty : Ty) :
      Writes c (.call callee arguments parameters ty) (calleeName c.profile callee)
  | read {arguments : List Expr} {parameters : List Ty} {ty : Ty} {slot : Fin slotCount}
      (target : fetchTarget arguments = .ok slot) :
      Writes c (.call fetchCallee arguments parameters ty) (.color .modern true slot)
  | saturation {callee word : String} {arguments : List Expr} {parameters : List Ty} {ty : Ty}
      (bound : word ∈ ["clamp", "0.0", "1.0"]) :
      Writes c (.call callee arguments parameters ty) (.word word)
  | construct (arguments : List Expr) (ty : Ty) : Writes c (.construct arguments ty) ty.glslName
  | cast (operand : Expr) (ty : Ty) : Writes c (.cast operand ty) ty.glslName

namespace Context

/-- Every name in the term of an identifier is one that it writes. -/
theorem writes_identifier {c : Context} {name : String} {ty : Ty} {written : Glsl.Name}
    (inside : written ∈ (c.identifier name ty).names) :
    (Expr.identifier name ty).Writes c written := by
  simp only [identifier] at inside
  split at inside
  · split at inside
    · obtain rfl := List.mem_singleton.1 inside
      exact .identifier name ty
    · split at inside
      · obtain rfl := List.mem_singleton.1 inside
        exact .texture name ty _
      · obtain rfl := List.mem_singleton.1 inside
        exact .identifier name ty
  · obtain rfl := List.mem_singleton.1 inside
    exact .identifier name ty

/-- Every name that a selection adds to its object is one that it writes. -/
theorem writes_member {c : Context} {object : Expr} {field : String} {ty : Ty}
    {written : Glsl.Name} (inside : written ∈ (c.member object.ty field .missing).names) :
    (Expr.member object field ty).Writes c written := by
  unfold member at inside
  split at inside
  · rename_i found
    obtain ⟨struct, declared, binding, plays, selected, binds, rfl⟩ :=
      stageField?_eq_some_iff.1 found
    exact .bound plays selected binds inside
  · split at inside
    · rename_i scalar
      split at inside
      · rename_i helper repeats
        obtain rfl := List.mem_singleton.1 inside
        exact .repeated scalar repeats
      · cases inside
    · obtain rfl := List.mem_singleton.1 inside
      exact .selected object field ty

/-- Every name that a call adds to its arguments is one that it writes. -/
theorem writes_call {c : Context} {callee : String} {arguments : List Expr} {parameters : List Ty}
    {ty : Ty} {written : Glsl.Name}
    (inside : written ∈
      (c.call callee arguments (List.replicate arguments.length .missing)).names) :
    (Expr.call callee arguments parameters ty).Writes c written := by
  have plain (own : written ∈ (Glsl.Term.apply (calleeName c.profile callee)
      (List.replicate arguments.length .missing)).names) :
      (Expr.call callee arguments parameters ty).Writes c written := by
    simp only [Glsl.Term.names, Glsl.Term.namesAll_replicate_missing, List.mem_singleton] at own
    subst own
    exact .callee callee arguments parameters ty
  have blank {term : Glsl.Term} (listed : term ∈ List.replicate arguments.length .missing) :
      term.names = [] := by
    rw [List.eq_of_mem_replicate listed, Glsl.Term.names]
  have form := c.callForm_call callee arguments (List.replicate arguments.length .missing)
  generalize c.call callee arguments (List.replicate arguments.length .missing) = whole
    at form inside
  cases form with
  | ordinary noRead noProduct noSaturation => exact plain inside
  | legacyRead slot read target legacy => exact plain inside
  | modernRead slot read target modern =>
    obtain rfl := List.mem_singleton.1 inside
    subst read
    exact .read target
  | faultyRead cause read target => exact plain inside
  | product left right noRead isProduct two =>
    have noLeft := blank (two ▸ List.mem_cons_self)
    have noRight := blank (two ▸ List.mem_cons_of_mem _ List.mem_cons_self)
    simp [Glsl.Term.names, noLeft, noRight] at inside
  | faultyProduct noRead isProduct count => simp [Glsl.Term.names] at inside
  | saturation value noRead noProduct isSaturation one =>
    have noValue := blank (one ▸ List.mem_cons_self)
    simp only [Glsl.Term.names, Glsl.Term.namesAll, Glsl.Term.ofWord, noValue, List.nil_append,
      List.append_nil, List.cons_append, List.mem_cons, List.not_mem_nil, or_false] at inside
    rcases inside with rfl | rfl | rfl
    · exact .saturation (by decide)
    · exact .saturation (by decide)
    · exact .saturation (by decide)
  | faultySaturation noRead noProduct isSaturation count => simp [Glsl.Term.names] at inside

end Context

/-- What an expression writes by itself has one of these origins. -/
theorem Expr.writes_of_mem_head {c : Context} {e : Expr} {written : Glsl.Name}
    (inside : written ∈ (e.head c).names) : e.Writes c written := by
  cases e with
  | identifier name ty => exact Context.writes_identifier inside
  | member object field ty => exact Context.writes_member inside
  | call callee arguments parameters ty => exact Context.writes_call inside
  | construct arguments ty =>
    obtain rfl := List.mem_singleton.1 inside
    exact .construct arguments ty
  | cast operand ty =>
    obtain rfl := List.mem_singleton.1 inside
    exact .cast operand ty
  | _ => simp [head, Glsl.Term.names] at inside

/-- What a site writes by itself is the type of an inserted cast or comes from its expression. -/
theorem Site.writes_of_mem_head {c : Context} {site : Site} {written : Glsl.Name}
    (inside : written ∈ (site.head c).names) :
    (∃ target, site.hint = some target ∧ written = target.glslName) ∨
      site.expr.Writes c written := by
  rcases mem_names_castTo.1 inside with ⟨target, hinted, -, named⟩ | own
  · exact Or.inl ⟨target, hinted, named⟩
  · exact Or.inr (Expr.writes_of_mem_head own)

namespace Context

/-- A selection writes what it writes by itself, and its object unless a variable stands for it. -/
theorem mem_names_member {c : Context} {object : Ty} {field : String} {term : Glsl.Term}
    {name : Glsl.Name} :
    name ∈ (c.member object field term).names ↔
      name ∈ (c.member object field .missing).names ∨
        (c.stageField? object field).isSome = false ∧ name ∈ term.names := by
  unfold member
  cases bound : c.stageField? object field with
  | some variableTerm => simp
  | none =>
    by_cases scalar : object.base.isNumericScalar = true
    · cases Helper.ofSwizzle? field.utf8ByteSize with
      | some helper => simp [scalar, Glsl.Term.names, Glsl.Term.namesAll]
      | none => simp [scalar, Glsl.Term.names]
    · simp [scalar, Glsl.Term.names, or_comm]

/-- A call writes what it writes by itself, and its arguments if it renders them. -/
theorem mem_names_call {c : Context} {callee : String} {arguments : List Expr}
    {terms : List Glsl.Term} {name : Glsl.Name} (counted : terms.length = arguments.length) :
    name ∈ (c.call callee arguments terms).names ↔
      name ∈ (c.call callee arguments (List.replicate arguments.length .missing)).names ∨
        c.rendersArguments callee arguments = true ∧ ∃ term ∈ terms, name ∈ term.names := by
  have plain (head : Glsl.Name) : name ∈ (Glsl.Term.apply head terms).names ↔
      name ∈ (Glsl.Term.apply head (List.replicate arguments.length .missing)).names ∨
        ∃ term ∈ terms, name ∈ term.names := by
    simp [Glsl.Term.names, Glsl.Term.mem_namesAll]
  have form := c.callForm_call callee arguments terms
  generalize c.call callee arguments terms = whole at form ⊢
  cases form with
  | ordinary noRead noProduct noSaturation =>
    simpa [call, rendersArguments, noRead, noProduct, noSaturation] using plain _
  | legacyRead slot read target legacy =>
    simpa [call, rendersArguments, read, target, legacy] using plain _
  | modernRead slot read target modern =>
    simp [call, rendersArguments, read, target, modern, Except.toOption]
  | faultyRead cause read target =>
    simpa [call, rendersArguments, read, target, Glsl.Term.names, Except.toOption] using plain _
  | product left right noRead isProduct two =>
    obtain ⟨first, second, rfl⟩ := List.length_eq_two.1 (counted.symm.trans (by simp [two]))
    simp [call, rendersArguments, noRead, isProduct, two, Glsl.Term.names, or_comm]
  | faultyProduct noRead isProduct count =>
    rw [counted] at count
    have blanks : (List.replicate arguments.length Glsl.Term.missing).length ≠ 2 := by
      simpa using count
    rw [call_faultyProduct arguments noRead isProduct blanks]
    simp [rendersArguments, noRead, isProduct, count, Glsl.Term.names]
  | saturation value noRead noProduct isSaturation one =>
    obtain ⟨first, rfl⟩ := List.length_eq_one_iff.1 (counted.symm.trans (by simp [one]))
    simp [call, rendersArguments, noRead, noProduct, isSaturation, one, Glsl.Term.names,
      Glsl.Term.namesAll, or_comm, or_left_comm]
  | faultySaturation noRead noProduct isSaturation count =>
    rw [counted] at count
    have blanks : (List.replicate arguments.length Glsl.Term.missing).length ≠ 1 := by
      simpa using count
    rw [call_faultySaturation arguments noRead noProduct isSaturation blanks]
    simp [rendersArguments, noRead, noProduct, isSaturation, count, Glsl.Term.names]

end Context

namespace Site

/-- A name in one of the terms of several sites is in the term of one of the sites. -/
theorem mem_names_map {c : Context} {sites : List Site} {name : Glsl.Name} :
    (∃ term ∈ sites.map (lower c), name ∈ term.names) ↔
      ∃ site ∈ sites, name ∈ (site.lower c).names := by
  constructor
  · rintro ⟨term, listed, written⟩
    obtain ⟨site, member, rfl⟩ := List.mem_map.1 listed
    exact ⟨site, member, written⟩
  · rintro ⟨site, member, written⟩
    exact ⟨site.lower c, List.mem_map_of_mem member, written⟩

/-- The names of a site's term are those it writes by itself and those of its operands. -/
theorem mem_names_lower_step {c : Context} {site : Site} {name : Glsl.Name} :
    name ∈ (site.lower c).names ↔
      name ∈ (site.head c).names ∨
        ∃ inner ∈ site.expr.operands c, name ∈ (inner.lower c).names := by
  obtain ⟨hint, e⟩ := site
  have throughCast {whole own : Glsl.Term} {below : Prop}
      (core : name ∈ whole.names ↔ name ∈ own.names ∨ below) :
      name ∈ (castTo hint e whole).names ↔ name ∈ (castTo hint e own).names ∨ below := by
    rw [mem_names_castTo, mem_names_castTo, core, or_assoc]
  change name ∈ (e.lower c hint).names ↔ name ∈ (castTo hint e (e.head c)).names ∨ _
  rw [Expr.lower.eq_def]
  apply throughCast
  cases e with
  | identifier name ty => simp [Expr.head, Expr.operands]
  | literal value ty => simp [Expr.head, Expr.operands]
  | unary op operand ty => simp [Expr.head, Expr.operands, Glsl.Term.names, lower]
  | binary op left right ty => simp [Expr.head, Expr.operands, Glsl.Term.names, lower]
  | conditional condition whenTrue whenFalse ty =>
    simp [Expr.head, Expr.operands, Glsl.Term.names, lower]
  | member object field ty =>
    simp only [Expr.head, Expr.operands]
    rw [Context.mem_names_member]
    by_cases bound : (c.stageField? object.ty field).isSome = true <;> simp [bound, lower]
  | index array position ty => simp [Expr.head, Expr.operands, Glsl.Term.names, lower]
  | call callee arguments parameters ty =>
    simp only [Expr.head, Expr.operands]
    rw [Context.mem_names_call (by simp [lowerAll_eq_map]), lowerAll_eq_map, mem_names_map]
    by_cases renders : c.rendersArguments callee arguments = true <;> simp [renders]
  | construct arguments ty =>
    simp only [Expr.head, Expr.operands, Glsl.Term.names, List.mem_cons]
    rw [Glsl.Term.mem_namesAll, lowerAll_eq_map, mem_names_map]
    simp [Glsl.Term.namesAll]
  | cast operand ty => simp [Expr.head, Expr.operands, Glsl.Term.names, Glsl.Term.namesAll, lower]

/-- Every name in the term of a site is written by one of its parts. -/
theorem mem_names_lower {c : Context} {site : Site} {name : Glsl.Name} :
    name ∈ (site.lower c).names ↔ ∃ part ∈ site.parts c, name ∈ (part.head c).names := by
  induction site using operandInduction c with
  | step site ih =>
    rw [mem_names_lower_step]
    constructor
    · rintro (own | ⟨inner, operand, below⟩)
      · exact ⟨site, mem_parts_self c site, own⟩
      · obtain ⟨part, inside, written⟩ := (ih inner operand).1 below
        exact ⟨part, mem_parts.2 (Or.inr ⟨inner, operand, inside⟩), written⟩
    · rintro ⟨part, inside, written⟩
      rcases mem_parts.1 inside with rfl | ⟨inner, operand, deeper⟩
      · exact Or.inl written
      · exact Or.inr ⟨inner, operand, (ih inner operand).2 ⟨part, deeper, written⟩⟩

end Site

/-! ## Terms of lowered statements -/

/-- Terms cover sites when they are the terms of these sites, apart from the variable that a value
returned from the entry is stored in. -/
structure Context.Covers (c : Context) (sites : List Site) (terms : List Glsl.Term) : Prop where
  lowered : ∀ site ∈ sites, site.lower c ∈ terms
  origin : ∀ term ∈ terms, (∃ site ∈ sites, site.lower c = term) ∨ c.returnVariable? = some term

namespace Context.Covers

variable {c : Context}

/-- The terms of sites cover them. -/
theorem of_eq {sites : List Site} {terms : List Glsl.Term}
    (same : terms = sites.map (Site.lower c)) : c.Covers sites terms := by
  subst same
  constructor
  · intro site listed
    exact List.mem_map_of_mem listed
  · intro term listed
    obtain ⟨site, member, rfl⟩ := List.mem_map.1 listed
    exact Or.inl ⟨site, member, rfl⟩

/-- Covered sites may follow each other. -/
theorem append {sites₁ sites₂ : List Site} {terms₁ terms₂ : List Glsl.Term}
    (first : c.Covers sites₁ terms₁) (second : c.Covers sites₂ terms₂) :
    c.Covers (sites₁ ++ sites₂) (terms₁ ++ terms₂) := by
  constructor
  · intro site listed
    rcases List.mem_append.1 listed with left | right
    · exact List.mem_append_left _ (first.lowered site left)
    · exact List.mem_append_right _ (second.lowered site right)
  · intro term listed
    rcases List.mem_append.1 listed with left | right
    · rcases first.origin term left with ⟨site, member, same⟩ | place
      · exact Or.inl ⟨site, List.mem_append_left _ member, same⟩
      · exact Or.inr place
    · rcases second.origin term right with ⟨site, member, same⟩ | place
      · exact Or.inl ⟨site, List.mem_append_right _ member, same⟩
      · exact Or.inr place

/-- The sites of a list of items are covered when those of each item are. -/
theorem flatMap {α : Type} {items : List α} {sites : α → List Site} {terms : α → List Glsl.Term}
    (each : ∀ item ∈ items, c.Covers (sites item) (terms item)) :
    c.Covers (items.flatMap sites) (items.flatMap terms) := by
  induction items with
  | nil => exact of_eq rfl
  | cons item rest ih =>
    rw [List.flatMap_cons, List.flatMap_cons]
    refine append (each item List.mem_cons_self) (ih fun later member => ?_)
    exact each later (List.mem_cons_of_mem _ member)

end Context.Covers

/-- The brackets of a type hold the term of its size. -/
theorem Ty.terms_lowerBrackets (c : Context) (ty : Ty) :
    (ty.lowerBrackets c).terms = ty.sizeSites.map (Site.lower c) := by
  cases size : ty.size <;> simp [lowerBrackets, Glsl.Brackets.terms, sizeSites, size, Site.lower]

/-- The terms of a declarator of a type are those of the size in its brackets. -/
theorem Ty.terms_declarator (c : Context) (ty : Ty) (name : String) :
    (ty.declarator c name).terms = ty.bracketSites.map (Site.lower c) := by
  by_cases isArray : ty.isArray = true
  · simp [declarator, Glsl.Declarator.terms, bracketSites, isArray, terms_lowerBrackets]
  · simp [declarator, Glsl.Declarator.terms, bracketSites, isArray]

namespace Declaration

/-- The terms of an array literal are those of its size and of its items. -/
theorem terms_arrayLiteral (c : Context) (declaration : Declaration) :
    (declaration.arrayLiteral c).terms = declaration.literalSites.map (Site.lower c) := by
  simp [arrayLiteral, Glsl.ArrayLiteral.terms, literalSites, Ty.terms_lowerBrackets,
    Site.lowerAll_eq_map]

/-- The terms of an initial value are those of its sites. -/
theorem terms_initial? (c : Context) (declaration : Declaration) :
    (declaration.initial? c).toList.flatMap Glsl.Initial.terms =
      declaration.initialSites.map (Site.lower c) := by
  unfold initial? initialSites
  cases declaration.initializer with
  | nil => rfl
  | cons first rest =>
    by_cases isArray : declaration.ty.isArray = true
    · simp [isArray, Glsl.Initial.terms, terms_arrayLiteral]
    · simp [isArray, Glsl.Initial.terms, Site.lower]

/-- The terms of a declared variable are those of its sites. -/
theorem terms_declarator (c : Context) (declaration : Declaration) :
    (declaration.declarator c).terms = declaration.sites.map (Site.lower c) := by
  have brackets := declaration.ty.terms_declarator c declaration.name
  have initial := declaration.terms_initial? c
  simp only [Glsl.Declarator.terms, Ty.declarator, Option.toList_none, List.flatMap_nil,
    List.append_nil] at brackets
  simp only [declarator, Glsl.Declarator.terms, Ty.declarator, sites, List.map_append]
  rw [brackets, initial]

/-- The terms of a lowered declaration are those of its sites. -/
theorem terms_lower (c : Context) (scope : Scope) (declaration : Declaration) :
    Glsl.Stmt.termsAll (declaration.lower c scope) =
      (declaration.sitesIn c scope).map (Site.lower c) := by
  unfold lower sitesIn lowerGlobal globalSites
  split
  · rfl
  split
  · split
    · split
      · simp [Glsl.Stmt.termsAll, Glsl.Stmt.terms, Glsl.Replacement.terms, terms_arrayLiteral]
      · rfl
    · split
      · cases declaration.textureUnit <;> rfl
      · simp [Glsl.Stmt.termsAll, Glsl.Stmt.terms, terms_declarator]
  · simp [Glsl.Stmt.termsAll, Glsl.Stmt.terms, terms_declarator]

end Declaration

/-- The terms of a lowered structure are those of the sizes of its fields. -/
theorem Struct.terms_lower (c : Context) (definition : Struct) :
    Glsl.Stmt.termsAll (definition.lower c) =
      ((Statement.struct definition).sites c Scope.global).map (Site.lower c) := by
  simp only [lower, Statement.sites]
  split
  · simp [Glsl.Stmt.termsAll, Glsl.Stmt.terms, List.flatMap_map, List.map_flatMap,
      Ty.terms_declarator]
  · rfl

/-- The terms of the content of a buffer are those of the size of its type. -/
theorem Declaration.terms_lowerBuffer (c : Context) (content : Declaration) :
    Glsl.Stmt.termsAll (content.lowerBuffer c) = content.ty.sizeSites.map (Site.lower c) := by
  unfold lowerBuffer
  split <;>
    simp [Glsl.Stmt.termsAll, Glsl.Stmt.terms, Glsl.Declarator.terms, Glsl.Replacement.terms,
      Ty.terms_lowerBrackets]

/-- The terms of the head of a function are those of the sizes of its parameters. -/
theorem Signature.terms_prototype (c : Context) (signature : Signature) :
    (signature.prototype c).terms =
      (signature.arguments.flatMap fun argument => argument.ty.bracketSites).map
        (Site.lower c) := by
  simp [prototype, Glsl.Prototype.terms, List.flatMap_map, List.map_flatMap, Ty.terms_declarator]

/-- The terms of an effect are those of its sites. -/
theorem Expr.terms_lowerEffect (c : Context) (e : Expr) :
    (e.lowerEffect c).terms = e.effectSites.map (Site.lower c) := by
  unfold lowerEffect effectSites
  split
  · rename_i op left right ty
    by_cases stores : op.isAssignment = true <;> simp [stores, Glsl.Effect.terms, Site.lower]
  · simp [Glsl.Effect.terms, Site.lower]

/-- A returned value is the term of its site, and the variable it is stored in is that of the
entry. -/
theorem Expr.covers_lowerResult (c : Context) (scope : Scope) (value : Expr) :
    c.Covers (value.resultSites c scope) (Glsl.Stmt.termsAll (value.lowerResult c scope)) := by
  have plain : c.Covers [⟨scope.result, value⟩]
      (Glsl.Stmt.termsAll [.result (some (value.lower c scope.result))]) :=
    .of_eq (by simp [Glsl.Stmt.termsAll, Glsl.Stmt.terms, Site.lower])
  unfold lowerResult resultSites
  split
  · split
    · exact .of_eq rfl
    · cases stored : c.returnVariable? with
      | none => simpa using plain
      | some place =>
        constructor
        · simp [Glsl.Stmt.termsAll, Glsl.Stmt.terms, Glsl.Effect.terms, Site.lower]
        · simp [Glsl.Stmt.termsAll, Glsl.Stmt.terms, Glsl.Effect.terms, Site.lower, stored]
  · exact plain

namespace Statement

/-- The terms of a body cover its sites when those of its statements do. -/
theorem covers_lowerAll {c : Context} {scope : Scope} {body : List Statement}
    (each : ∀ s ∈ body, c.Covers (s.sites c scope) (Glsl.Stmt.termsAll (s.lower c scope))) :
    c.Covers (sitesAll c scope body) (Glsl.Stmt.termsAll (lowerAll c scope body)) := by
  rw [sitesAll_eq_flatMap, lowerAll_eq_flatMap, Glsl.Stmt.termsAll_eq_flatMap, List.flatMap_assoc]
  refine .flatMap fun s member => ?_
  rw [← Glsl.Stmt.termsAll_eq_flatMap]
  exact each s member

/-- The terms of a lowered statement cover the sites that its lowering starts from. -/
theorem covers_lower (c : Context) (scope : Scope) (s : Statement) :
    c.Covers (s.sites c scope) (Glsl.Stmt.termsAll (s.lower c scope)) := by
  induction s using bodyInduction generalizing scope with
  | declare declaration => exact .of_eq (declaration.terms_lower c scope)
  | struct definition => exact .of_eq (definition.terms_lower c)
  | buffer name content => exact .of_eq (content.terms_lowerBuffer c)
  | function signature body ih =>
    simp only [sites, lower]
    split
    · exact .of_eq rfl
    · have head := Context.Covers.of_eq (signature.terms_prototype c)
      have inner := covers_lowerAll fun s member => ih s member (scope.ofFunction signature)
      simpa [Glsl.Stmt.termsAll, Glsl.Stmt.terms] using head.append inner
  | branch condition whenTrue ih =>
    have head : c.Covers [⟨some boolTy, condition⟩] [condition.lower c (some boolTy)] := .of_eq rfl
    have inner := covers_lowerAll fun s member => ih s member scope.inner
    simpa [sites, lower, Glsl.Stmt.termsAll, Glsl.Stmt.terms] using head.append inner
  | branchElse condition whenTrue whenFalse ihTrue ihFalse =>
    have head : c.Covers [⟨some boolTy, condition⟩] [condition.lower c (some boolTy)] := .of_eq rfl
    have innerTrue := covers_lowerAll fun s member => ihTrue s member scope.inner
    have innerFalse := covers_lowerAll fun s member => ihFalse s member scope.inner
    simpa [sites, lower, Glsl.Stmt.termsAll, Glsl.Stmt.terms]
      using head.append (innerTrue.append innerFalse)
  | loop start condition step body ih =>
    have head : c.Covers (start.toList.flatMap Declaration.sites)
        ((start.map (Declaration.declarator c)).toList.flatMap Glsl.Declarator.terms) := by
      refine .of_eq ?_
      cases start <;> simp [Declaration.terms_declarator]
    have test : c.Covers (condition.toList.map fun e => ⟨some boolTy, e⟩)
        (condition.map (Expr.lower c (some boolTy))).toList := by
      refine .of_eq ?_
      cases condition <;> simp [Site.lower]
    have effect : c.Covers (step.toList.flatMap Expr.effectSites)
        ((step.map (Expr.lowerEffect c)).toList.flatMap Glsl.Effect.terms) := by
      refine .of_eq ?_
      cases step <;> simp [Expr.terms_lowerEffect]
    have inner := covers_lowerAll fun s member => ih s member scope.inner
    simpa [sites, lower, Glsl.Stmt.termsAll, Glsl.Stmt.terms]
      using ((head.append test).append effect).append inner
  | block body ih =>
    have inner := covers_lowerAll fun s member => ih s member scope.inner
    simpa [sites, lower, Glsl.Stmt.termsAll, Glsl.Stmt.terms] using inner
  | result value =>
    cases value with
    | none => exact .of_eq rfl
    | some value => exact value.covers_lowerResult c scope
  | discard =>
    refine .of_eq ?_
    simp only [lower, sites]
    split <;> rfl
  | leave => exact .of_eq rfl
  | next => exact .of_eq rfl
  | evaluate expr =>
    refine .of_eq ?_
    simp [lower, sites, Glsl.Stmt.termsAll, Glsl.Stmt.terms, Expr.terms_lowerEffect]

end Statement

namespace Context

/-- The terms of a program cover the sites that its lowering starts from. -/
theorem covers_program (c : Context) : c.Covers c.roots c.program.terms := by
  have globals := Statement.covers_lowerAll fun s (_ : s ∈ c.shader) =>
    Statement.covers_lower c Scope.global s
  have properties : c.Covers (c.shader.localProperties.flatMap Declaration.sites)
      ((c.shader.localProperties.map (Declaration.declarator c)).flatMap
        Glsl.Declarator.terms) := by
    rw [List.flatMap_map]
    exact .flatMap fun declaration _ => .of_eq (declaration.terms_declarator c)
  have body := Statement.covers_lowerAll fun s (_ : s ∈ c.entry.body) =>
    Statement.covers_lower c c.mainScope s
  exact (globals.append properties).append body

/-- The variable that returned values are stored in is a built-in variable or a colour output. -/
theorem returnVariable?_eq_some {c : Context} {place : Glsl.Term}
    (stored : c.returnVariable? = some place) :
    (∃ semantic variableName, builtIn? semantic = some variableName ∧
      place = .named (.word variableName) "") ∨
    ∃ slot, place = .named (c.colorName slot) c.entry.result.base.narrowing := by
  simp only [returnVariable?, Option.bind_eq_bind, Option.bind_eq_some_iff] at stored
  obtain ⟨semantic, -, stored⟩ := stored
  split at stored
  · rename_i variableName named
    exact Or.inl ⟨semantic, variableName, named, (Option.some.inj stored).symm⟩
  · obtain ⟨slot, -, stored⟩ := Option.bind_eq_some_iff.1 stored
    exact Or.inr ⟨slot, (Option.some.inj stored).symm⟩

/-- There is a variable to store what is returned in exactly when the semantic of the entry names a
built-in variable or a colour output. -/
theorem isSome_returnVariable? (c : Context) :
    c.returnVariable?.isSome = c.entry.semantic.any fun semantic =>
      (builtIn? semantic).isSome || (Slot.ofSemantic? semantic).isSome := by
  unfold returnVariable?
  cases c.entry.semantic with
  | none => rfl
  | some semantic =>
    simp only [Option.bind_eq_bind, Option.bind_some, Option.any_some]
    cases builtIn? semantic with
    | some variableName => rfl
    | none => cases Slot.ofSemantic? semantic <;> rfl

/-- Every name in a term of the program is written at a rendered site, or belongs to the variable
that returned values are stored in. -/
theorem mem_names_terms {c : Context} {name : Glsl.Name}
    (written : name ∈ c.program.terms.flatMap Glsl.Term.names) :
    (∃ site ∈ c.rendered, name ∈ (site.head c).names) ∨
      ∃ place, c.returnVariable? = some place ∧ name ∈ place.names := by
  obtain ⟨term, listed, inside⟩ := List.mem_flatMap.1 written
  rcases c.covers_program.origin term listed with ⟨root, started, rfl⟩ | place
  · obtain ⟨part, below, own⟩ := Site.mem_names_lower.1 inside
    exact Or.inl ⟨part, List.mem_flatMap.2 ⟨root, started, below⟩, own⟩
  · exact Or.inr ⟨term, place, inside⟩

/-- Every name that a rendered site writes is in a term of the program. -/
theorem mem_terms_of_rendered {c : Context} {site : Site} {name : Glsl.Name}
    (rendered : site ∈ c.rendered) (own : name ∈ (site.head c).names) :
    name ∈ c.program.terms.flatMap Glsl.Term.names := by
  obtain ⟨root, started, below⟩ := List.mem_flatMap.1 rendered
  refine List.mem_flatMap.2 ⟨root.lower c, c.covers_program.lowered root started, ?_⟩
  exact Site.mem_names_lower.2 ⟨site, below, own⟩

end Context

/-! ## Names that statements declare -/

/-- The words of the generated language that a text writes as names, whatever the shader: types,
built-in functions, built-in variables, the clamp that stands for saturation with its bounds, and
nothing for a type without a name. -/
inductive Glsl.LanguageWord : String → Prop
  | type (base : BaseType) : LanguageWord base.spelling
  | function {word name : String} {intrinsic : Intrinsic} (profile : Profile)
      (listed : (word, intrinsic) ∈ intrinsics) (named : intrinsic.name profile = .word name) :
      LanguageWord name
  | builtIn {semantic name : String} (listed : (semantic, name) ∈ builtInSemantics) :
      LanguageWord name
  | clamp : LanguageWord "clamp"
  | zero : LanguageWord "0.0"
  | one : LanguageWord "1.0"
  | nothing : LanguageWord ""

/-- The names that statements write outside their terms: words of the language, texture units and
strings of the shader. -/
def Glsl.Name.Declared (shader : Shader) : Glsl.Name → Prop
  | word text => LanguageWord text
  | source name => name ∈ shader.tokens
  | verbatim text => text ∈ shader.tokens
  | texture _ _ => True
  | _ => False

variable {shader : Shader}

/-- The name of a type of the shader is a word of the language or a token. -/
theorem Ty.glslName_declared {ty : Ty} (belongs : ty.BelongsTo shader) :
    ty.glslName.Declared shader := by
  unfold glslName
  split
  · cases named : ty.name with
    | none => exact .nothing
    | some name => exact belongs (by simp [tokens, named])
  · exact .type ty.base

/-- A declarator of a type writes a declared type and a declared name. -/
theorem Ty.heads_declarator {c : Context} {ty : Ty} {name : String}
    (belongs : ty.BelongsTo shader) (declared : name ∈ shader.tokens) :
    ∀ head ∈ (ty.declarator c name).heads, head.Declared shader := by
  intro head written
  simp only [declarator, Glsl.Declarator.heads, Option.toList_none, List.flatMap_nil,
    List.append_nil, List.mem_cons, List.not_mem_nil, or_false] at written
  rcases written with rfl | rfl
  · exact glslName_declared belongs
  · exact declared

namespace Declaration

/-- The name of a declaration of the shader is a token. -/
theorem BelongsTo.name {declaration : Declaration} (belongs : declaration.BelongsTo shader) :
    declaration.name ∈ shader.tokens :=
  belongs.declared List.mem_cons_self

/-- A declarator writes declared names only, in an array literal too. -/
theorem heads_declarator {c : Context} {declaration : Declaration}
    (belongs : declaration.BelongsTo shader) :
    ∀ head ∈ (declaration.declarator c).heads, head.Declared shader := by
  intro head written
  rcases List.mem_append.1 written with own | inInitial
  · refine Ty.heads_declarator (c := c) belongs.type belongs.name head ?_
    exact List.mem_append_left _ own
  · obtain ⟨initial, present, inside⟩ := List.mem_flatMap.1 inInitial
    have starts : declaration.initial? c = some initial := Option.mem_toList.1 present
    unfold initial? at starts
    split at starts
    · cases starts
    · split at starts <;> obtain rfl := Option.some.inj starts
      · obtain rfl := List.mem_singleton.1 inside
        exact Ty.glslName_declared belongs.type
      · cases inside

/-- A lowered declaration writes declared names only, outside its terms. -/
theorem heads_lower {c : Context} {scope : Scope} {declaration : Declaration}
    (belongs : declaration.BelongsTo shader) :
    ∀ head ∈ Glsl.Stmt.headsAll (declaration.lower c scope), head.Declared shader := by
  have plain := heads_declarator (c := c) belongs
  intro head written
  unfold lower lowerGlobal at written
  split at written
  · cases written
  split at written
  · split at written
    · split at written
      · simp only [Glsl.Stmt.headsAll, Glsl.Stmt.heads, Glsl.Replacement.heads, List.append_nil,
          List.mem_cons, List.not_mem_nil, or_false] at written
        rcases written with rfl | rfl
        · exact belongs.name
        · exact Ty.glslName_declared belongs.type
      · cases written
    · split at written
      · split at written
        · simp only [Glsl.Stmt.headsAll, Glsl.Stmt.heads, List.append_nil,
            List.mem_singleton] at written
          subst written
          trivial
        · simp [Glsl.Stmt.headsAll, Glsl.Stmt.heads] at written
      · simp only [Glsl.Stmt.headsAll, Glsl.Stmt.heads, List.append_nil] at written
        exact plain head written
  · simp only [Glsl.Stmt.headsAll, Glsl.Stmt.heads, List.append_nil] at written
    exact plain head written

/-- The content of a buffer writes declared names only, the register of a big array included. -/
theorem heads_lowerBuffer {c : Context} {content : Declaration}
    (belongs : content.BelongsTo shader) :
    ∀ head ∈ Glsl.Stmt.headsAll (content.lowerBuffer c), head.Declared shader := by
  intro head written
  unfold lowerBuffer at written
  split at written
  · simp only [Glsl.Stmt.headsAll, Glsl.Stmt.heads, Glsl.Declarator.heads, Option.toList_none,
      List.flatMap_nil, List.append_nil, List.mem_cons, List.not_mem_nil, or_false] at written
    rcases written with rfl | rfl
    · exact Ty.glslName_declared belongs.type
    · exact belongs.name
  · rename_i register found
    have registered : register ∈ shader.tokens := by
      apply belongs.declared
      unfold bigArrayRegister? at found
      split at found
      · simp [tokens, found]
      · cases found
    simp only [Glsl.Stmt.headsAll, Glsl.Stmt.heads, Glsl.Declarator.heads, Option.toList_none,
      List.flatMap_nil, List.append_nil, Glsl.Replacement.heads, List.cons_append, List.nil_append,
      List.mem_cons, List.not_mem_nil, or_false] at written
    rcases written with rfl | rfl | rfl | rfl
    · exact Ty.glslName_declared belongs.type
    · exact registered
    · exact belongs.name
    · exact registered

end Declaration

namespace Statement

/-- The content of a buffer of the shader belongs to the shader. -/
theorem BelongsTo.buffer {name : String} {content : Declaration}
    (belongs : (buffer name content).BelongsTo shader) : content.BelongsTo shader :=
  ⟨belongs.walked, List.Subset.trans (List.subset_cons_self _ _) belongs.declared⟩

/-- A body writes declared names only when each of its statements does. -/
theorem headsAll_lowerAll {c : Context} {scope : Scope} {body : List Statement}
    (each : ∀ s ∈ body, ∀ head ∈ Glsl.Stmt.headsAll (s.lower c scope), head.Declared shader) :
    ∀ head ∈ Glsl.Stmt.headsAll (lowerAll c scope body), head.Declared shader := by
  intro head written
  rw [lowerAll_eq_flatMap, Glsl.Stmt.headsAll_eq_flatMap, List.flatMap_assoc] at written
  obtain ⟨s, member, inside⟩ := List.mem_flatMap.1 written
  rw [← Glsl.Stmt.headsAll_eq_flatMap] at inside
  exact each s member head inside

/-- Outside its terms a lowered statement writes words of the language, texture units and tokens
of the shader it belongs to. -/
theorem heads_lower {c : Context} {scope : Scope} {s : Statement} (belongs : s.BelongsTo shader) :
    ∀ head ∈ Glsl.Stmt.headsAll (s.lower c scope), head.Declared shader := by
  induction s using bodyInduction generalizing scope with
  | declare declaration => exact Declaration.heads_lower belongs.declaration
  | struct definition =>
    intro head written
    simp only [lower, Struct.lower] at written
    split at written
    · simp only [Glsl.Stmt.headsAll, Glsl.Stmt.heads, List.append_nil, List.flatMap_map] at written
      rcases List.mem_cons.1 written with rfl | inFields
      · exact belongs.declared List.mem_cons_self
      · obtain ⟨field, member, inside⟩ := List.mem_flatMap.1 inFields
        have field_declared : field.tokens ⊆ shader.tokens := by
          intro word used
          apply belongs.declared
          exact List.mem_cons_of_mem _ (List.mem_flatMap.2 ⟨field, member, used⟩)
        refine Ty.heads_declarator (fun word named => field_declared ?_)
          (field_declared List.mem_cons_self) head inside
        simp [Field.tokens, named]
    · cases written
  | buffer name content => exact Declaration.heads_lowerBuffer belongs.buffer
  | function signature body ih =>
    intro head written
    simp only [lower] at written
    split at written
    · cases written
    · simp only [Glsl.Stmt.headsAll, Glsl.Stmt.heads, Glsl.Prototype.heads, Signature.prototype,
        List.append_nil, List.flatMap_map, List.mem_append, List.mem_cons, List.not_mem_nil,
        or_false] at written
      rcases written with ((rfl | rfl) | inArguments) | inBody
      · exact Ty.glslName_declared belongs.functionResult
      · exact belongs.declared List.mem_cons_self
      · obtain ⟨argument, member, inside⟩ := List.mem_flatMap.1 inArguments
        have argument_declared : argument.name :: argument.ty.tokens ⊆ shader.tokens := by
          intro word used
          apply belongs.declared
          refine List.mem_append_left _ (List.mem_cons_of_mem _ (List.mem_append_right _ ?_))
          exact List.mem_flatMap.2 ⟨argument, member, used⟩
        exact Ty.heads_declarator
          (List.Subset.trans (List.subset_cons_self _ _) argument_declared)
          (argument_declared List.mem_cons_self) head inside
      · exact headsAll_lowerAll (fun s member => ih s member (belongs.functionBody s member)) head
          inBody
  | branch condition whenTrue ih =>
    obtain ⟨-, inner⟩ := belongs.branchParts
    simpa [lower, Glsl.Stmt.headsAll, Glsl.Stmt.heads] using
      headsAll_lowerAll fun s member => ih s member (inner s member)
  | branchElse condition whenTrue whenFalse ihTrue ihFalse =>
    obtain ⟨-, innerTrue, innerFalse⟩ := belongs.branchElseParts
    intro head written
    simp only [lower, Glsl.Stmt.headsAll, Glsl.Stmt.heads, List.append_nil,
      List.mem_append] at written
    rcases written with inTrue | inFalse
    · exact headsAll_lowerAll (fun s member => ihTrue s member (innerTrue s member)) head inTrue
    · exact headsAll_lowerAll (fun s member => ihFalse s member (innerFalse s member)) head inFalse
  | loop start condition step body ih =>
    have inner := belongs.loopBody
    intro head written
    simp only [lower, Glsl.Stmt.headsAll, Glsl.Stmt.heads, List.append_nil,
      List.mem_append] at written
    rcases written with inStart | inBody
    · cases start with
      | none => simp at inStart
      | some start =>
        simp only [Option.map_some, Option.toList_some, List.flatMap_cons, List.flatMap_nil,
          List.append_nil] at inStart
        exact Declaration.heads_declarator belongs.loopStart head inStart
    · exact headsAll_lowerAll (fun s member => ih s member (inner s member)) head inBody
  | block body ih =>
    have inner := belongs.blockBody
    simpa [lower, Glsl.Stmt.headsAll, Glsl.Stmt.heads] using
      headsAll_lowerAll fun s member => ih s member (inner s member)
  | result value =>
    intro head written
    cases value with
    | none => cases written
    | some value =>
      simp only [lower, Expr.lowerResult] at written
      split at written
      · split at written
        · cases written
        · split at written <;> cases written
      · cases written
  | discard =>
    intro head written
    simp only [lower] at written
    split at written <;> cases written
  | leave =>
    intro head written
    cases written
  | next =>
    intro head written
    cases written
  | evaluate expr =>
    intro head written
    cases written

end Statement

/-- Outside its terms a program writes words of the language, texture units and tokens. -/
theorem Context.heads_program {c : Context} (listed : c.EntryListed) :
    ∀ head ∈ c.program.heads, head.Declared c.shader := by
  intro head written
  simp only [Glsl.Program.heads, program, List.flatMap_map, List.mem_append] at written
  rcases written with (inGlobals | inProperties) | inBody
  · refine Statement.headsAll_lowerAll (fun s member => ?_) head inGlobals
    exact Statement.heads_lower (Shader.belongsTo_of_mem member)
  · obtain ⟨declaration, property, inside⟩ := List.mem_flatMap.1 inProperties
    exact Declaration.heads_declarator (Shader.localProperty_belongs property) head inside
  · refine Statement.headsAll_lowerAll (fun s member => ?_) head inBody
    exact Statement.heads_lower ((Shader.belongsTo_of_mem listed).functionBody s member)

end GlslText
