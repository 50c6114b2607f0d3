import GlslText.Proofs.Faults
import GlslText.Proofs.Nesting
import GlslText.Proofs.Subterm

/-!
# Calls in the body of an entry

The body of an entry is the body of `main`, but not every expression of it is written there. A
declaration of a stage structure or a texture is dropped with its initial value, a variable that is
no array keeps the first of its initial values alone, a returned value that has the type of the
output of the stage is not returned, and an object is not written where a variable of the interface
stands for its field. A call is rendered in `main` exactly when it stands in what is left.
-/

namespace GlslText

/-! ## Expressions inside expressions -/

namespace Expr

variable {c : Context} {part whole : Expr}

end Expr

namespace Site

variable {c : Context}

end Site

/-! ## Sites of a statement by itself -/

namespace Statement

/-- The sites of a statement, those in its bodies apart. -/
def ownSites (c : Context) (scope : Scope) : Statement → List Site
  | declare declaration => declaration.sitesIn c scope
  | struct definition =>
    if c.interface.role definition.name = .generic then
      definition.fields.flatMap fun field => field.ty.bracketSites
    else
      []
  | buffer _ content => content.ty.sizeSites
  | function signature _ =>
    if signature.name = c.entry.name then []
    else signature.arguments.flatMap fun argument => argument.ty.bracketSites
  | branch condition _ _ => [⟨some boolTy, condition⟩]
  | loop start condition step _ =>
    start.toList.flatMap Declaration.sites ++ condition.toList.map (fun e => ⟨some boolTy, e⟩)
      ++ step.toList.flatMap Expr.effectSites
  | result (some value) => value.resultSites c scope
  | evaluate expr => expr.effectSites
  | _ => []

variable {c : Context}

/-- The sites of a statement are its own and those in its bodies. -/
theorem sites_eq (scope : Scope) (s : Statement) :
    s.sites c scope = s.ownSites c scope ++
      (s.bodies c scope).flatMap fun opened => sitesAll c opened.1 opened.2 := by
  cases s with
  | function signature body =>
    simp only [sites, ownSites, bodies]
    split <;> simp
  | branch condition whenTrue whenFalse => cases whenFalse <;> simp [sites, ownSites, bodies]
  | result value => cases value <;> simp [sites, ownSites, bodies]
  | _ => simp [sites, ownSites, bodies]

/-- The sites of a list of statements are the own sites of the statements placed in it. -/
theorem mem_sitesAll_iff_placed {site : Site} {outer : Scope} {statements : List Statement}
    (level : Nat) :
    site ∈ sitesAll c outer statements ↔
      ∃ s scope depth, Placed c s scope depth outer level statements ∧
        site ∈ s.ownSites c scope := by
  have step (scope : Scope) (statements : List Statement) :
      sitesAll c scope statements = statements.flatMap fun s =>
        s.ownSites c scope ++ (s.bodies c scope).flatMap fun opened =>
          sitesAll c opened.1 opened.2 := by
    simp only [← sites_eq]
    exact sitesAll_eq_flatMap c scope statements
  exact mem_iff_placed step level

end Statement

/-! ## What is written of a statement of the entry -/

/-- The size that is written behind a declared name. -/
def Ty.writtenSize (ty : Ty) : List Expr :=
  if ty.isArray then ty.size.toList else []

/-- What is written of a declared variable: the size and all initial values of an array, and else
the first initial value. -/
def Declaration.written (declaration : Declaration) : List Expr :=
  if declaration.ty.isArray then declaration.ty.size.toList ++ declaration.initializer
  else declaration.initializer.take 1

/-- The expressions that are written of a statement of the entry, its bodies apart. -/
def Statement.written (c : Context) : Statement → List Expr
  | declare declaration => if declaration.isSuppressed c then [] else declaration.written
  | struct definition =>
    if c.interface.role definition.name = .generic then
      definition.fields.flatMap fun field => field.ty.writtenSize
    else
      []
  | buffer _ content => content.ty.size.toList
  | function signature _ =>
    if signature.name = c.entry.name then []
    else signature.arguments.flatMap fun argument => argument.ty.writtenSize
  | branch condition _ _ => [condition]
  | loop start condition step _ =>
    start.toList.flatMap Declaration.written ++ condition.toList ++ step.toList
  | result (some value) => if c.interface.roleOf value.ty = .output then [] else [value]
  | evaluate expr => [expr]
  | _ => []

section Calls

variable {c : Context} {callee : String} {arguments : List Expr} {parameters : List Ty} {ty : Ty}

end Calls

/-! ## Calls of `main` -/

namespace Context

end Context

end GlslText
