import GlslText.Generate
import GlslText.Proofs.Site

/-!
# What a program renders

Statements contribute the sites that their lowering starts from, and a program renders the parts
of all these. Everything that it renders is an expression of the walk over its shader, and every
type that a site expects is named by a token of that shader.
-/

namespace GlslText

/-! ## Sites of statements -/

/-- The site of the size of a type. -/
def Ty.sizeSites (ty : Ty) : List Site :=
  ty.size.toList.map fun size => ⟨none, size⟩

/-- The sites in the brackets behind a declared name. -/
def Ty.bracketSites (ty : Ty) : List Site :=
  if ty.isArray then ty.sizeSites else []

namespace Declaration

/-- The sites of the initial values written out as an array. -/
def literalSites (declaration : Declaration) : List Site :=
  declaration.ty.sizeSites ++ Site.arguments [] declaration.initializer

/-- The sites of what a variable starts with. -/
def initialSites (declaration : Declaration) : List Site :=
  match declaration.initializer with
  | [] => []
  | first :: _ =>
    if declaration.ty.isArray then declaration.literalSites else [⟨some declaration.ty, first⟩]

/-- The sites of a declared variable. -/
def sites (declaration : Declaration) : List Site :=
  declaration.ty.bracketSites ++ declaration.initialSites

/-- The sites of a declaration among the shader's own statements. -/
def globalSites (declaration : Declaration) : List Site :=
  if declaration.ty.isProperty then
    if declaration.ty.isArray && !declaration.initializer.isEmpty then declaration.literalSites
    else []
  else if declaration.ty.base.isSampler then []
  else declaration.sites

/-- The sites of a declaration at any place. -/
def sitesIn (c : Context) (scope : Scope) (declaration : Declaration) : List Site :=
  if declaration.isSuppressed c then []
  else if scope.isGlobal then declaration.globalSites
  else declaration.sites

end Declaration

/-- The sites of an expression whose value is not used. -/
def Expr.effectSites (e : Expr) : List Site :=
  match e with
  | .binary op left right ty =>
    if op.isAssignment then [⟨none, left⟩, ⟨some ty, right⟩] else [⟨none, e⟩]
  | _ => [⟨none, e⟩]

/-- The site of a value that is returned. -/
def Expr.resultSites (c : Context) (scope : Scope) (value : Expr) : List Site :=
  if scope.inMain then
    if c.interface.roleOf value.ty = .output then []
    else if c.returnVariable?.isSome then [⟨some c.entry.result, value⟩]
    else [⟨scope.result, value⟩]
  else
    [⟨scope.result, value⟩]

namespace Statement

mutual

/-- The sites that the lowering of a statement starts from. -/
def sites (c : Context) (scope : Scope) : Statement → List Site
  | declare declaration => declaration.sitesIn c scope
  | struct definition =>
    if c.interface.role definition.name = .generic then
      definition.fields.flatMap fun field => field.ty.bracketSites
    else
      []
  | buffer _ content => content.ty.sizeSites
  | function signature body =>
    if signature.name = c.entry.name then []
    else (signature.arguments.flatMap fun argument => argument.ty.bracketSites)
      ++ sitesAll c (scope.ofFunction signature) body
  | branch condition whenTrue none => ⟨some boolTy, condition⟩ :: sitesAll c scope.inner whenTrue
  | branch condition whenTrue (some whenFalse) =>
    ⟨some boolTy, condition⟩
      :: (sitesAll c scope.inner whenTrue ++ sitesAll c scope.inner whenFalse)
  | loop start condition step body =>
    start.toList.flatMap Declaration.sites
      ++ condition.toList.map (fun e => ⟨some boolTy, e⟩)
      ++ step.toList.flatMap Expr.effectSites ++ sitesAll c scope.inner body
  | block body => sitesAll c scope.inner body
  | result none => []
  | result (some value) => value.resultSites c scope
  | discard => []
  | leave => []
  | next => []
  | evaluate expr => expr.effectSites

/-- The sites of several statements. -/
def sitesAll (c : Context) (scope : Scope) : List Statement → List Site
  | [] => []
  | s :: rest => s.sites c scope ++ sitesAll c scope rest

end

/-- The sites of several statements are those of each in turn. -/
theorem sitesAll_eq_flatMap (c : Context) (scope : Scope) (statements : List Statement) :
    sitesAll c scope statements = statements.flatMap (sites c scope) := by
  induction statements with
  | nil => rfl
  | cons s rest ih => rw [sitesAll, ih, List.flatMap_cons]

end Statement

namespace Context

/-- The sites that the lowering of a whole shader starts from. -/
def roots (c : Context) : List Site :=
  Statement.sitesAll c Scope.global c.shader ++ c.shader.localProperties.flatMap Declaration.sites
    ++ Statement.sitesAll c c.mainScope c.entry.body

/-- Everything that the program of a context renders. -/
def rendered (c : Context) : List Site :=
  c.roots.flatMap (Site.parts c)

end Context

/-! ## What belongs to a shader

A part of a shader belongs to it when its expressions are walked and its words are tokens. What
belongs to a shader is handed down from statements to their sites and from sites to their parts.
-/

/-- A type whose name is a token of the shader. -/
def Ty.BelongsTo (shader : Shader) (ty : Ty) : Prop :=
  ty.tokens ⊆ shader.tokens

/-- A scope whose result belongs to the shader. -/
def Scope.BelongsTo (shader : Shader) (scope : Scope) : Prop :=
  ∀ ty, scope.result = some ty → ty.BelongsTo shader

/-- The scope of a body belongs to the shader with the scope around it. -/
theorem Scope.BelongsTo.inner {shader : Shader} {scope : Scope} (belongs : scope.BelongsTo shader) :
    scope.inner.BelongsTo shader :=
  belongs

/-- A site whose expressions are walked and whose expected type is named by a token. -/
structure Site.BelongsTo (shader : Shader) (site : Site) : Prop where
  walked : site.expr.walk ⊆ shader.walk
  hinted : ∀ ty, site.hint = some ty → ty.BelongsTo shader

/-- A declaration whose expressions are walked and whose words are tokens. -/
structure Declaration.BelongsTo (shader : Shader) (declaration : Declaration) : Prop where
  walked : declaration.walk ⊆ shader.walk
  declared : declaration.tokens ⊆ shader.tokens

/-- A statement whose expressions are walked and whose words are tokens. -/
structure Statement.BelongsTo (shader : Shader) (s : Statement) : Prop where
  walked : s.walk ⊆ shader.walk
  declared : s.tokens ⊆ shader.tokens

namespace Shader

/-- The tokens of a walked expression are tokens of the shader. -/
theorem tokens_of_mem_walk {shader : Shader} {e : Expr} (walked : e ∈ shader.walk) :
    e.tokens ⊆ shader.tokens := by
  intro word used
  exact List.mem_append_right _ (List.mem_flatMap.2 ⟨e, walked, used⟩)

/-- The statements of a shader belong to it. -/
theorem belongsTo_of_mem {shader : Shader} {s : Statement} (listed : s ∈ shader) :
    s.BelongsTo shader where
  walked := by
    intro e walked
    rw [walk, Statement.walkAll_eq_flatMap]
    exact List.mem_flatMap.2 ⟨s, listed, walked⟩
  declared := by
    intro word declared
    rw [tokens, Statement.tokensAll_eq_flatMap]
    exact List.mem_append_left _ (List.mem_flatMap.2 ⟨s, listed, declared⟩)

/-- The properties that become local variables of `main` belong to the shader. -/
theorem localProperty_belongs {shader : Shader} {declaration : Declaration}
    (property : declaration ∈ shader.localProperties) : declaration.BelongsTo shader := by
  obtain ⟨s, listed, matched⟩ := List.mem_filterMap.1 property
  have belongs := belongsTo_of_mem listed
  cases s with
  | declare found =>
    simp only [Option.ite_none_right_eq_some, Option.some.injEq] at matched
    obtain ⟨-, rfl⟩ := matched
    exact ⟨belongs.walked, belongs.declared⟩
  | _ => simp at matched

/-- A function found by its name is one of the statements. -/
theorem mem_of_function? {shader : Shader} {name : String} {entry : Function}
    (found : shader.function? name = some entry) :
    Statement.function entry.toSignature entry.body ∈ shader ∧ entry.name = name := by
  obtain ⟨s, listed, matched⟩ := List.exists_of_findSome?_eq_some found
  cases s with
  | function signature body =>
    simp only [Option.ite_none_right_eq_some, Option.some.injEq] at matched
    obtain ⟨named, rfl⟩ := matched
    exact ⟨listed, named⟩
  | _ => simp at matched

/-- A structure found by its name is one of the statements. -/
theorem mem_of_struct? {shader : Shader} {name : String} {struct : Struct}
    (found : shader.struct? name = some struct) :
    Statement.struct struct ∈ shader ∧ struct.name = name := by
  obtain ⟨s, listed, matched⟩ := List.exists_of_findSome?_eq_some found
  cases s with
  | struct definition =>
    simp only [Option.ite_none_right_eq_some, Option.some.injEq] at matched
    obtain ⟨named, rfl⟩ := matched
    exact ⟨listed, named⟩
  | _ => simp at matched

end Shader

/-- The structure that an entry returns is the output of the stage unless the entry takes it as
well. -/
theorem Interface.role_eq_output_iff {shader : Shader} {entry : Function} {struct : Struct}
    (returned : (ofEntry shader entry).output = some struct) :
    (ofEntry shader entry).role struct.name = .output ↔
      (ofEntry shader entry).input ≠ some struct := by
  have isNamed : shader.struct? struct.name = some struct := by
    obtain ⟨name, -, found⟩ := Option.bind_eq_some_iff.1 returned
    rwa [(Shader.mem_of_struct? found).2]
  rw [role, returned]
  cases taken : (ofEntry shader entry).input with
  | none => simp
  | some other =>
    -- Structures are found by their names, so one of the same name is the same.
    have same : other.name = struct.name ↔ other = struct := by
      constructor
      · intro equal
        obtain ⟨argument, -, bound⟩ := Option.bind_eq_some_iff.1 taken
        obtain ⟨word, -, found⟩ := Option.bind_eq_some_iff.1 bound
        rw [← (Shader.mem_of_struct? found).2, equal, isNamed] at found
        exact (Option.some.inj found).symm
      · rintro rfl
        rfl
    by_cases isSame : other = struct
    · simp [isSame]
    · have apart : other.name ≠ struct.name := fun equal => isSame (same.1 equal)
      simp [isSame, apart]

namespace Site

/-- The sites of arguments belong to the shader when the arguments and parameters do. -/
theorem arguments_belong {shader : Shader} {parameters : List Ty} {es : List Expr}
    (walked : es.flatMap Expr.walk ⊆ shader.walk)
    (named : ∀ ty ∈ parameters, ty.BelongsTo shader) :
    ∀ site ∈ arguments parameters es, site.BelongsTo shader := by
  intro site listed
  constructor
  · intro e inside
    exact walked (List.mem_flatMap.2 ⟨site.expr, expr_mem_of_mem_arguments listed, inside⟩)
  · intro ty hinted
    exact named ty (hint_mem_of_mem_arguments listed hinted)

/-- The parts of a site belong to the shader when the site does. -/
theorem parts_belong {shader : Shader} {c : Context} {site : Site}
    (belongs : site.BelongsTo shader) : ∀ part ∈ site.parts c, part.BelongsTo shader := by
  intro part inside
  constructor
  · exact List.Subset.trans (walk_part_subset inside) belongs.walked
  · intro ty hinted
    rcases tokens_part_hint inside hinted with expected | ⟨e, walked, named⟩
    · exact belongs.hinted ty expected
    · exact List.Subset.trans named (Shader.tokens_of_mem_walk (belongs.walked walked))

end Site

/-- The size of a type belongs to the shader when the walk enters the type. -/
theorem Ty.sizeSites_belong {shader : Shader} {ty : Ty} (walked : ty.walk ⊆ shader.walk) :
    ∀ site ∈ ty.sizeSites, site.BelongsTo shader := by
  intro site listed
  obtain ⟨size, present, rfl⟩ := List.mem_map.1 listed
  constructor
  · intro e inside
    exact walked (List.mem_flatMap.2 ⟨size, present, inside⟩)
  · intro hint hinted
    cases hinted

/-- So do the brackets behind a declared name. -/
theorem Ty.bracketSites_belong {shader : Shader} {ty : Ty} (walked : ty.walk ⊆ shader.walk) :
    ∀ site ∈ ty.bracketSites, site.BelongsTo shader := by
  intro site listed
  unfold bracketSites at listed
  split at listed
  · exact sizeSites_belong walked site listed
  · cases listed

namespace Declaration

variable {shader : Shader} {declaration : Declaration}

/-- The type of a declaration belongs to the shader with it. -/
theorem BelongsTo.type (belongs : declaration.BelongsTo shader) :
    declaration.ty.BelongsTo shader := by
  intro word named
  apply belongs.declared
  simp [tokens, named]

/-- The walk enters the type of a declaration. -/
theorem BelongsTo.size (belongs : declaration.BelongsTo shader) :
    declaration.ty.walk ⊆ shader.walk :=
  List.Subset.trans (List.subset_append_left _ _) belongs.walked

/-- The walk enters the initial values of a declaration. -/
theorem BelongsTo.values (belongs : declaration.BelongsTo shader) :
    declaration.initializer.flatMap Expr.walk ⊆ shader.walk :=
  List.Subset.trans (List.subset_append_right _ _) belongs.walked

/-- The sites of an array written out belong to the shader. -/
theorem literalSites_belong (belongs : declaration.BelongsTo shader) :
    ∀ site ∈ declaration.literalSites, site.BelongsTo shader := by
  intro site listed
  rcases List.mem_append.1 listed with inSize | inValues
  · exact Ty.sizeSites_belong belongs.size site inSize
  · exact Site.arguments_belong belongs.values (by simp) site inValues

/-- The sites of an initial value belong to the shader. -/
theorem initialSites_belong (belongs : declaration.BelongsTo shader) :
    ∀ site ∈ declaration.initialSites, site.BelongsTo shader := by
  intro site listed
  unfold initialSites at listed
  split at listed
  · cases listed
  · rename_i first rest values
    split at listed
    · exact literalSites_belong belongs site listed
    · obtain rfl := List.mem_singleton.1 listed
      constructor
      · intro e inside
        exact belongs.values (List.mem_flatMap.2 ⟨first, by simp [values], inside⟩)
      · intro ty hinted
        exact Option.some.inj hinted ▸ belongs.type

/-- The sites of a declared variable belong to the shader. -/
theorem sites_belong (belongs : declaration.BelongsTo shader) :
    ∀ site ∈ declaration.sites, site.BelongsTo shader := by
  intro site listed
  rcases List.mem_append.1 listed with inBrackets | inInitial
  · exact Ty.bracketSites_belong belongs.size site inBrackets
  · exact initialSites_belong belongs site inInitial

/-- The sites of a declaration belong to the shader wherever it stands. -/
theorem sitesIn_belong {c : Context} {scope : Scope} (belongs : declaration.BelongsTo shader) :
    ∀ site ∈ declaration.sitesIn c scope, site.BelongsTo shader := by
  intro site listed
  unfold sitesIn globalSites at listed
  split at listed
  · cases listed
  split at listed
  · split at listed
    · split at listed
      · exact literalSites_belong belongs site listed
      · cases listed
    · split at listed
      · cases listed
      · exact sites_belong belongs site listed
  · exact sites_belong belongs site listed

end Declaration

namespace Expr

variable {shader : Shader} {e : Expr}

/-- The type of a walked expression belongs to the shader. -/
theorem ty_belongs (walked : e.walk ⊆ shader.walk) : e.ty.BelongsTo shader :=
  List.Subset.trans e.tokens_ty_subset (Shader.tokens_of_mem_walk (walked e.mem_walk_self))

/-- The sites of an expression whose value is not used belong to the shader. -/
theorem effectSites_belong (walked : e.walk ⊆ shader.walk) :
    ∀ site ∈ e.effectSites, site.BelongsTo shader := by
  intro site listed
  have whole : Site.BelongsTo shader ⟨none, e⟩ := ⟨walked, by simp⟩
  unfold effectSites at listed
  split at listed
  · rename_i op left right ty
    split at listed
    · simp only [List.mem_cons, List.not_mem_nil, or_false] at listed
      rcases listed with rfl | rfl
      · refine ⟨fun x inside => walked ?_, by simp⟩
        simp [walk, inside]
      · refine ⟨fun x inside => walked ?_, ?_⟩
        · simp [walk, inside]
        · rintro _ ⟨⟩
          exact ty_belongs walked
    · exact List.mem_singleton.1 listed ▸ whole
  · exact List.mem_singleton.1 listed ▸ whole

/-- The site of a returned value belongs to the shader. -/
theorem resultSites_belong {c : Context} {scope : Scope} (walked : e.walk ⊆ shader.walk)
    (returned : scope.BelongsTo shader) (entry : c.entry.result.BelongsTo shader) :
    ∀ site ∈ e.resultSites c scope, site.BelongsTo shader := by
  intro site listed
  have plain : Site.BelongsTo shader ⟨scope.result, e⟩ := ⟨walked, returned⟩
  unfold resultSites at listed
  split at listed
  · split at listed
    · cases listed
    · split at listed
      · obtain rfl := List.mem_singleton.1 listed
        refine ⟨walked, ?_⟩
        rintro _ ⟨⟩
        exact entry
      · exact List.mem_singleton.1 listed ▸ plain
  · exact List.mem_singleton.1 listed ▸ plain

end Expr

namespace Statement

/-- What passes from the statements inside a statement to the statement itself holds of every
statement. -/
@[elab_as_elim]
theorem bodyInduction {motive : Statement → Prop}
    (declare : ∀ declaration, motive (.declare declaration))
    (struct : ∀ definition, motive (.struct definition))
    (buffer : ∀ name content, motive (.buffer name content))
    (function : ∀ signature body, (∀ s ∈ body, motive s) → motive (.function signature body))
    (branch : ∀ condition whenTrue, (∀ s ∈ whenTrue, motive s) →
      motive (.branch condition whenTrue none))
    (branchElse : ∀ condition whenTrue whenFalse, (∀ s ∈ whenTrue, motive s) →
      (∀ s ∈ whenFalse, motive s) → motive (.branch condition whenTrue (some whenFalse)))
    (loop : ∀ start condition step body, (∀ s ∈ body, motive s) →
      motive (.loop start condition step body))
    (block : ∀ body, (∀ s ∈ body, motive s) → motive (.block body))
    (result : ∀ value, motive (.result value))
    (discard : motive .discard) (leave : motive .leave) (next : motive .next)
    (evaluate : ∀ expr, motive (.evaluate expr)) (s : Statement) : motive s := by
  induction size : sizeOf s using Nat.strongRecOn generalizing s with
  | ind bound ih =>
    -- The statements of a body are smaller than the statement around it.
    have inside (body : List Statement) (smaller : sizeOf body < sizeOf s) :
        ∀ t ∈ body, motive t := by
      intro t listed
      have below := List.sizeOf_lt_of_mem listed
      exact ih (sizeOf t) (by omega) t rfl
    cases s with
    | declare declaration => exact declare declaration
    | struct definition => exact struct definition
    | buffer name content => exact buffer name content
    | function signature body =>
      have whole := Statement.function.sizeOf_spec signature body
      exact function signature body (inside body (by omega))
    | branch condition whenTrue whenFalse =>
      cases whenFalse with
      | none =>
        have whole := Statement.branch.sizeOf_spec condition whenTrue none
        exact branch condition whenTrue (inside whenTrue (by omega))
      | some whenFalse =>
        have whole := Statement.branch.sizeOf_spec condition whenTrue (some whenFalse)
        have other := Option.some.sizeOf_spec whenFalse
        exact branchElse condition whenTrue whenFalse (inside whenTrue (by omega))
          (inside whenFalse (by omega))
    | loop start condition step body =>
      have whole := Statement.loop.sizeOf_spec start condition step body
      exact loop start condition step body (inside body (by omega))
    | block body => exact block body (inside body (by simp))
    | result value => exact result value
    | discard => exact discard
    | leave => exact leave
    | next => exact next
    | evaluate expr => exact evaluate expr

variable {shader : Shader}

/-- The statements of a body belong to the shader when what is walked and declared there does. -/
theorem body_belongs {body : List Statement} (walked : walkAll body ⊆ shader.walk)
    (declared : tokensAll body ⊆ shader.tokens) : ∀ s ∈ body, s.BelongsTo shader := by
  rw [walkAll_eq_flatMap] at walked
  rw [tokensAll_eq_flatMap] at declared
  intro s listed
  constructor
  · intro e inside
    exact walked (List.mem_flatMap.2 ⟨s, listed, inside⟩)
  · intro word inside
    exact declared (List.mem_flatMap.2 ⟨s, listed, inside⟩)

/-- The body of a function belongs to the shader with it. -/
theorem BelongsTo.functionBody {signature : Signature} {body : List Statement}
    (belongs : (function signature body).BelongsTo shader) : ∀ s ∈ body, s.BelongsTo shader :=
  body_belongs (List.Subset.trans (List.subset_append_right _ _) belongs.walked)
    (List.Subset.trans (List.subset_append_right _ _) belongs.declared)

/-- The result of a function belongs to the shader with it. -/
theorem BelongsTo.functionResult {signature : Signature} {body : List Statement}
    (belongs : (function signature body).BelongsTo shader) :
    signature.result.BelongsTo shader := by
  intro word named
  apply belongs.declared
  simp [tokens, Signature.tokens, named]

/-- A declaration belongs to the shader with its statement. -/
theorem BelongsTo.declaration {declaration : Declaration}
    (belongs : (declare declaration).BelongsTo shader) : declaration.BelongsTo shader :=
  ⟨belongs.walked, belongs.declared⟩

/-- The declaration that starts a loop belongs to the shader with the loop. -/
theorem BelongsTo.loopStart {start : Declaration} {condition step : Option Expr}
    {body : List Statement} (belongs : (loop (some start) condition step body).BelongsTo shader) :
    start.BelongsTo shader := by
  constructor
  · intro e inside
    apply belongs.walked
    simp [walk, inside]
  · intro word inside
    apply belongs.declared
    simp [tokens, inside]

/-- The condition and the body of a branch belong to the shader with the branch. -/
theorem BelongsTo.branchParts {condition : Expr} {whenTrue : List Statement}
    (belongs : (branch condition whenTrue none).BelongsTo shader) :
    condition.walk ⊆ shader.walk ∧ ∀ s ∈ whenTrue, s.BelongsTo shader := by
  constructor
  · exact List.Subset.trans (List.subset_append_left _ _) belongs.walked
  · refine body_belongs (List.Subset.trans ?_ belongs.walked) belongs.declared
    exact List.subset_append_right _ _

/-- The condition and both bodies of a branch belong to the shader with the branch. -/
theorem BelongsTo.branchElseParts {condition : Expr} {whenTrue whenFalse : List Statement}
    (belongs : (branch condition whenTrue (some whenFalse)).BelongsTo shader) :
    condition.walk ⊆ shader.walk ∧ (∀ s ∈ whenTrue, s.BelongsTo shader) ∧
      ∀ s ∈ whenFalse, s.BelongsTo shader := by
  refine ⟨fun e inside => belongs.walked ?_, ?_, ?_⟩
  · simp [walk, inside]
  · refine body_belongs (fun e inside => belongs.walked ?_)
      (List.Subset.trans (List.subset_append_left _ _) belongs.declared)
    simp [walk, inside]
  · refine body_belongs (fun e inside => belongs.walked ?_)
      (List.Subset.trans (List.subset_append_right _ _) belongs.declared)
    simp [walk, inside]

/-- The body of a loop belongs to the shader with the loop. -/
theorem BelongsTo.loopBody {start : Option Declaration} {condition step : Option Expr}
    {body : List Statement} (belongs : (loop start condition step body).BelongsTo shader) :
    ∀ s ∈ body, s.BelongsTo shader :=
  body_belongs (List.Subset.trans (List.subset_append_right _ _) belongs.walked)
    (List.Subset.trans (List.subset_append_right _ _) belongs.declared)

/-- The statements of a block belong to the shader with the block. -/
theorem BelongsTo.blockBody {body : List Statement} (belongs : (block body).BelongsTo shader) :
    ∀ s ∈ body, s.BelongsTo shader :=
  body_belongs belongs.walked belongs.declared

/-- The sites of a body belong to the shader when those of its statements do. -/
theorem sitesAll_belong {c : Context} {scope : Scope} {body : List Statement}
    (each : ∀ s ∈ body, ∀ site ∈ s.sites c scope, site.BelongsTo shader) :
    ∀ site ∈ sitesAll c scope body, site.BelongsTo shader := by
  intro site listed
  rw [sitesAll_eq_flatMap] at listed
  obtain ⟨s, member, inside⟩ := List.mem_flatMap.1 listed
  exact each s member site inside

/-- The sites of a statement belong to the shader when the statement, the scope it stands in and
what the entry returns do. -/
theorem sites_belong {c : Context} (entry : c.entry.result.BelongsTo shader) {s : Statement}
    (belongs : s.BelongsTo shader) {scope : Scope} (returned : scope.BelongsTo shader) :
    ∀ site ∈ s.sites c scope, site.BelongsTo shader := by
  have condition_belongs {e : Expr} (walked : e.walk ⊆ shader.walk) :
      Site.BelongsTo shader ⟨some boolTy, e⟩ := by
    refine ⟨walked, ?_⟩
    rintro _ ⟨⟩
    exact List.nil_subset _
  induction s using bodyInduction generalizing scope with
  | declare declaration => exact Declaration.sitesIn_belong belongs.declaration
  | struct definition =>
    intro site listed
    simp only [sites] at listed
    split at listed
    · obtain ⟨field, member, inside⟩ := List.mem_flatMap.1 listed
      refine Ty.bracketSites_belong (fun e walked => belongs.walked ?_) site inside
      exact List.mem_flatMap.2 ⟨field, member, walked⟩
    · cases listed
  | buffer name content =>
    refine Ty.sizeSites_belong (fun e walked => belongs.walked ?_)
    exact List.mem_append_left _ walked
  | function signature body ih =>
    intro site listed
    simp only [sites] at listed
    split at listed
    · cases listed
    · rcases List.mem_append.1 listed with inHead | inBody
      · obtain ⟨argument, member, inside⟩ := List.mem_flatMap.1 inHead
        refine Ty.bracketSites_belong (fun e walked => belongs.walked ?_) site inside
        refine List.mem_append_left _ (List.mem_append_right _ ?_)
        exact List.mem_flatMap.2 ⟨argument, member, walked⟩
      · refine sitesAll_belong (fun s member => ih s member (belongs.functionBody s member) ?_)
          site inBody
        rintro _ ⟨⟩
        exact belongs.functionResult
  | branch condition whenTrue ih =>
    obtain ⟨walked, inner⟩ := belongs.branchParts
    intro site listed
    rcases List.mem_cons.1 listed with rfl | inBody
    · exact condition_belongs walked
    · exact sitesAll_belong (fun s member => ih s member (inner s member) returned.inner) site
        inBody
  | branchElse condition whenTrue whenFalse ihTrue ihFalse =>
    obtain ⟨walked, innerTrue, innerFalse⟩ := belongs.branchElseParts
    intro site listed
    rcases List.mem_cons.1 listed with rfl | inBodies
    · exact condition_belongs walked
    rcases List.mem_append.1 inBodies with inTrue | inFalse
    · exact sitesAll_belong
        (fun s member => ihTrue s member (innerTrue s member) returned.inner) site inTrue
    · exact sitesAll_belong
        (fun s member => ihFalse s member (innerFalse s member) returned.inner) site inFalse
  | loop start condition step body ih =>
    have inner := belongs.loopBody
    intro site listed
    simp only [sites, List.mem_append] at listed
    rcases listed with ((inStart | inCondition) | inStep) | inBody
    · obtain ⟨declaration, present, inside⟩ := List.mem_flatMap.1 inStart
      obtain rfl := Option.mem_toList.1 present
      exact Declaration.sites_belong belongs.loopStart site inside
    · obtain ⟨e, present, rfl⟩ := List.mem_map.1 inCondition
      obtain rfl := Option.mem_toList.1 present
      refine condition_belongs (fun x inside => belongs.walked ?_)
      simp [walk, inside]
    · obtain ⟨e, present, inside⟩ := List.mem_flatMap.1 inStep
      obtain rfl := Option.mem_toList.1 present
      refine Expr.effectSites_belong (fun x walked => belongs.walked ?_) site inside
      simp [walk, walked]
    · exact sitesAll_belong (fun s member => ih s member (inner s member) returned.inner) site
        inBody
  | block body ih =>
    have inner := belongs.blockBody
    exact sitesAll_belong fun s member => ih s member (inner s member) returned.inner
  | result value =>
    cases value with
    | none => simp [sites]
    | some value =>
      have walked : value.walk ⊆ shader.walk := by
        simpa [walk] using belongs.walked
      exact Expr.resultSites_belong walked returned entry
  | discard => simp [sites]
  | leave => simp [sites]
  | next => simp [sites]
  | evaluate expr => exact Expr.effectSites_belong belongs.walked

end Statement

namespace Context

/-- The entry of a context is one of the functions of its shader. -/
def EntryListed (c : Context) : Prop :=
  Statement.function c.entry.toSignature c.entry.body ∈ c.shader

/-- The context of an entry that is found by its name has that entry listed. -/
theorem entryListed_ofEntry {shader : Shader} {profile : Profile} {name : String}
    {entry : Function} (found : shader.function? name = some entry) :
    (ofEntry shader profile entry).EntryListed :=
  (Shader.mem_of_function? found).1

/-- The sites that the lowering starts from belong to the shader. -/
theorem roots_belong {c : Context} (listed : c.EntryListed) :
    ∀ site ∈ c.roots, site.BelongsTo c.shader := by
  have entry := Shader.belongsTo_of_mem listed
  have result := entry.functionResult
  intro site root
  simp only [roots, List.mem_append] at root
  rcases root with (inGlobals | inProperties) | inBody
  · refine Statement.sitesAll_belong (fun s member => ?_) site inGlobals
    refine Statement.sites_belong result (Shader.belongsTo_of_mem member) ?_
    rintro _ ⟨⟩
  · obtain ⟨declaration, property, inside⟩ := List.mem_flatMap.1 inProperties
    exact Declaration.sites_belong (Shader.localProperty_belongs property) site inside
  · refine Statement.sitesAll_belong (fun s member => ?_) site inBody
    refine Statement.sites_belong result (entry.functionBody s member) ?_
    rintro _ ⟨⟩
    exact result

/-- Everything that is rendered belongs to the shader. -/
theorem rendered_belongs {c : Context} (listed : c.EntryListed) :
    ∀ site ∈ c.rendered, site.BelongsTo c.shader := by
  intro site inside
  obtain ⟨root, started, part⟩ := List.mem_flatMap.1 inside
  exact Site.parts_belong (roots_belong listed root started) site part

/-- Every rendered expression is walked. -/
theorem rendered_walked {c : Context} (listed : c.EntryListed) :
    ∀ site ∈ c.rendered, site.expr ∈ c.shader.walk := by
  intro site inside
  exact (rendered_belongs listed site inside).walked site.expr.mem_walk_self

end Context

end GlslText
