import GlslText.Proofs.Aliases

/-!
# Helper functions are defined where they are called

A helper function is called in two ways: a built-in function of the table becomes a call of it,
and so does the selection of two to four components of a scalar. The scan for features looks at
tokens and at the walk, not at what is rendered; but everything rendered is walked, so each call
has its feature, and each feature its definitions in front of the code.
-/

namespace GlslText

/-- The calls of a helper function: a built-in function that becomes one, in letters of any case,
or the selection of as many components of a scalar as it repeats. -/
def Expr.Calls (helper : Helper) : Expr → Prop
  | call callee _ _ _ =>
    ∃ word, (word, Intrinsic.helper helper) ∈ intrinsics ∧ alike word callee = true
  | member object field _ =>
    object.ty.base.isNumericScalar = true ∧ Helper.ofSwizzle? field.utf8ByteSize = some helper
  | _ => False

/-! ## Recognising built-in functions -/

/-- Alike callees are the same built-in function. -/
theorem intrinsic?_congr {left right : String} (same : alike left right = true) :
    intrinsic? left = intrinsic? right := by
  have folded := (alike_iff left right).1 same
  have recognised : (fun entry : String × Intrinsic => alike entry.1 left) =
      fun entry => alike entry.1 right := by
    funext entry
    simp only [alike, folded]
  rw [intrinsic?, intrinsic?, recognised]

/-- A callee becomes a helper function exactly when it is like the word of that function. -/
theorem intrinsic?_eq_helper_iff {callee : String} {helper : Helper} :
    intrinsic? callee = some (.helper helper) ↔
      ∃ word, (word, Intrinsic.helper helper) ∈ intrinsics ∧ alike word callee = true := by
  constructor
  · intro recognised
    obtain ⟨entry, found, named⟩ := Option.map_eq_some_iff.1 recognised
    exact ⟨entry.1, named ▸ List.mem_of_find?_eq_some found, by
      simpa using List.find?_some found⟩
  · rintro ⟨word, listed, same⟩
    -- The words of the table are recognised as themselves.
    have itself : ∀ entry ∈ intrinsics, intrinsic? entry.1 = some entry.2 := by
      decide +kernel
    rw [← intrinsic?_congr same]
    exact itself (word, .helper helper) listed

/-- A product, a saturation and a read of a colour output are no built-in functions of the
table. -/
theorem intrinsic?_of_special {callee : String}
    (special : callee = fetchCallee ∨ alike callee "mul" = true ∨ alike callee "saturate" = true) :
    intrinsic? callee = none := by
  rcases special with rfl | product | saturation
  · decide
  · rw [intrinsic?_congr product]
    decide
  · rw [intrinsic?_congr saturation]
    decide

/-! ## Which sites write the name of a helper function -/

/-- No type is named like a helper function. -/
theorem Ty.glslName_ne_helper (ty : Ty) (helper : Helper) : .helper helper ≠ ty.glslName := by
  rcases ty.glslName_eq with ⟨word, named⟩ | ⟨name, named⟩ <;> simp [named]

/-- A callee becomes a helper function only as the built-in function of the table. -/
theorem intrinsic?_of_calleeName {profile : Profile} {callee : String} {helper : Helper}
    (named : .helper helper = calleeName profile callee) :
    intrinsic? callee = some (.helper helper) := by
  unfold calleeName at named
  cases recognised : intrinsic? callee with
  | none => simp [recognised] at named
  | some found => cases found <;> simp_all [Intrinsic.name]

/-- An expression that writes the name of a helper function calls it. -/
theorem Expr.Writes.calls {c : Context} {e : Expr} {helper : Helper}
    (written : e.Writes c (.helper helper)) : e.Calls helper := by
  generalize called : Glsl.Name.helper helper = name at written
  cases written with
  | @bound _ _ _ _ declared binding _ _ _ _ own =>
    subst called
    cases binding <;> simp [Context.boundField, Glsl.Term.names, Context.colorName] at own
  | repeated scalar repeats =>
    obtain rfl := Glsl.Name.helper.inj called
    exact ⟨scalar, repeats⟩
  | callee callee arguments parameters ty =>
    exact intrinsic?_eq_helper_iff.1 (intrinsic?_of_calleeName called)
  | construct arguments ty => exact absurd called (ty.glslName_ne_helper helper)
  | cast operand ty => exact absurd called (ty.glslName_ne_helper helper)
  | identifier | texture | selected | read | saturation => cases called

namespace Context

/-- The type of a scalar is no stage structure. -/
theorem stageField?_scalar {c : Context} {object : Ty} (field : String)
    (scalar : object.base.isNumericScalar = true) : c.stageField? object field = none := by
  have unnamed : object.structName = none := by
    unfold Ty.structName
    split
    · rename_i user
      simp [user, BaseType.isNumericScalar] at scalar
    · rfl
  simp [stageField?, Interface.roleOf, unnamed, Interface.struct?]

/-- Components of a scalar are selected by a call of a helper function. -/
theorem member_scalar {c : Context} {object : Ty} {field : String} {helper : Helper}
    (scalar : object.base.isNumericScalar = true)
    (repeats : Helper.ofSwizzle? field.utf8ByteSize = some helper) (term : Glsl.Term) :
    c.member object field term = .apply (.helper helper) [term] := by
  simp [member, stageField?_scalar field scalar, scalar, repeats]

/-- A built-in function that becomes a helper function is an ordinary call of it. -/
theorem call_helper {c : Context} {callee : String} {helper : Helper}
    (recognised : intrinsic? callee = some (.helper helper)) (arguments : List Expr)
    (terms : List Glsl.Term) :
    c.call callee arguments terms = .apply (.helper helper) terms := by
  have ordinary : ¬(callee = fetchCallee ∨ alike callee "mul" = true ∨
      alike callee "saturate" = true) := by
    intro special
    rw [intrinsic?_of_special special] at recognised
    cases recognised
  rw [not_or, not_or] at ordinary
  simp [call, calleeName, recognised, Intrinsic.name, ordinary]

end Context

/-- A site writes the name of a helper function exactly when its expression calls it. -/
theorem Site.helper_mem_head {c : Context} {site : Site} {helper : Helper} :
    .helper helper ∈ (site.head c).names ↔ site.expr.Calls helper := by
  obtain ⟨hint, e⟩ := site
  constructor
  · intro inside
    rcases writes_of_mem_head inside with ⟨target, -, named⟩ | own
    · exact absurd named (target.glslName_ne_helper helper)
    · exact own.calls
  · intro calls
    refine mem_names_castTo.2 (Or.inr ?_)
    cases e with
    | member object field ty =>
      rw [Expr.head, Context.member_scalar calls.1 calls.2]
      exact List.mem_cons_self
    | call callee arguments parameters ty =>
      rw [Expr.head, Context.call_helper (intrinsic?_eq_helper_iff.2 calls)]
      exact List.mem_cons_self
    | _ => exact absurd calls id

/-! ## Features and definitions -/

/-- The feature that a helper function is defined for; two names are set aside for helper functions
that no text defines. -/
def Helper.feature? : Helper → Option Feature
  | clip => some .clip
  | texBias => some .texBias
  | volumeLod => some .volumeLod
  | cubeBias => some .cubeBias
  | sinCos => some .sinCos
  | swizzle2 => some .scalarSwizzle
  | swizzle3 => some .scalarSwizzle
  | swizzle4 => some .scalarSwizzle
  | matrixRow => none
  | texLod => none

/-- Two to four components of a scalar are selected by a helper function, which the feature of such
selections defines. -/
theorem Helper.feature?_of_ofSwizzle? {length : Nat} {helper : Helper}
    (repeats : ofSwizzle? length = some helper) :
    2 ≤ length ∧ length ≤ 4 ∧ helper.feature? = some .scalarSwizzle := by
  unfold ofSwizzle? at repeats
  split at repeats <;> simp_all <;> subst repeats <;> rfl

/-- A walked call of a helper function shows the feature of that function. -/
theorem Expr.Calls.feature {shader : Shader} {output : Option Struct} {e : Expr} {helper : Helper}
    (calls : e.Calls helper) (walked : e ∈ shader.walk) :
    ∃ feature, helper.feature? = some feature ∧ feature ∈ shader.features output := by
  cases e with
  | call callee arguments parameters ty =>
    obtain ⟨word, listed, same⟩ := calls
    have shown : ∃ feature, helper.feature? = some feature ∧ word ∈ feature.words := by
      simp only [intrinsics, List.mem_cons, Prod.mk.injEq, reduceCtorEq, and_false,
        Intrinsic.helper.injEq, List.not_mem_nil, or_false, false_or] at listed
      rcases listed with ⟨rfl, rfl⟩ | ⟨rfl, rfl⟩ | ⟨rfl, rfl⟩ | ⟨rfl, rfl⟩ | ⟨rfl, rfl⟩
      all_goals exact ⟨_, rfl, List.mem_singleton_self _⟩
    obtain ⟨feature, defined, worded⟩ := shown
    refine ⟨feature, defined, (shader.mem_features output feature).2 ?_⟩
    have token : callee ∈ shader.tokens :=
      Shader.tokens_of_mem_walk walked List.mem_cons_self
    have found : (feature.words.any fun word => shader.tokens.any (alike word)) = true :=
      List.any_eq_true.2 ⟨word, worded, List.any_eq_true.2 ⟨callee, token, same⟩⟩
    simp only [Feature.shows, found, Bool.true_or]
  | member object field ty =>
    obtain ⟨scalar, repeats⟩ := calls
    obtain ⟨atLeast, atMost, defined⟩ := Helper.feature?_of_ofSwizzle? repeats
    refine ⟨.scalarSwizzle, defined, (shader.mem_features output _).2 ?_⟩
    have found : shader.walk.any Expr.isScalarSwizzle = true := by
      refine List.any_eq_true.2 ⟨_, walked, ?_⟩
      simp [isScalarSwizzle, scalar, atLeast, atMost]
    simp [Feature.shows, found]
  | _ => exact absurd calls id

namespace Overload

/-- The functions that repeat a scalar are defined for every scalar type of the profile. -/
theorem swizzle_mem {profile : Profile} {helper : Helper} {scalar vector : String}
    (repeats : helper.feature? = some .scalarSwizzle) (typed : (scalar, vector) ∈ scalars profile) :
    ∃ overload ∈ swizzles profile, overload.helper = helper ∧
      overload.parameters = [scalar ++ " x"] := by
  have counted : ∃ count, (helper, count) ∈
      [(Helper.swizzle2, "2"), (Helper.swizzle3, "3"), (Helper.swizzle4, "4")] := by
    cases helper <;> simp [Helper.feature?] at repeats ⊢
  obtain ⟨count, listed⟩ := counted
  refine ⟨swizzle helper scalar (vector ++ count), ?_, rfl, rfl⟩
  exact List.mem_flatMap.2 ⟨_, listed, List.mem_map.2 ⟨_, typed, rfl⟩⟩

/-- Every scalar type has its spelling among the scalar types of the profile, unsigned integers
where the dialect has them. -/
theorem scalar_mem {profile : Profile} {base : BaseType} (scalar : base.isNumericScalar = true)
    (unsigned : base = .uint → profile.dialect.hasUnsigned = true) :
    ∃ vector, (base.spelling, vector) ∈ scalars profile := by
  match base, scalar with
  | .vector .int .one, _ => exact ⟨"ivec", by simp [scalars, BaseType.spelling]⟩
  | .vector .uint .one, _ => exact ⟨"uvec", by simp [scalars, BaseType.spelling, unsigned rfl]⟩
  | .vector (.float _) .one, _ => exact ⟨"vec", by simp [scalars, BaseType.spelling]⟩

end Overload

/-- The feature of a helper function defines it. -/
theorem Helper.exists_overload {helper : Helper} {feature : Feature} (profile : Profile)
    (defined : helper.feature? = some feature) :
    ∃ overload ∈ feature.overloads profile, overload.helper = helper := by
  have float : ("float", "vec") ∈ Overload.scalars profile := by simp [Overload.scalars]
  have repeats (swizzle : helper.feature? = some .scalarSwizzle) :
      ∃ overload ∈ Overload.swizzles profile, overload.helper = helper :=
    let ⟨overload, listed, named, _⟩ := Overload.swizzle_mem swizzle float
    ⟨overload, listed, named⟩
  cases helper with
  | clip => cases defined; exact ⟨.clip profile "float", List.mem_cons_self, rfl⟩
  | sinCos => cases defined; exact ⟨.sinCos "float", List.mem_cons_self, rfl⟩
  | texBias | volumeLod | cubeBias => cases defined; exact ⟨_, List.mem_singleton_self _, rfl⟩
  | swizzle2 | swizzle3 | swizzle4 => cases defined; exact repeats rfl
  | matrixRow | texLod => cases defined

/-- The definitions of a feature are among the helper functions of a text that shows it. -/
theorem Features.overloads_mem_helpers {profile : Profile} {features : Features}
    {feature : Feature} {helper : Helper} (defined : helper.feature? = some feature)
    (shown : feature ∈ features) : feature.overloads profile ∈ helpers profile features := by
  have written : feature ∈
      ([.clip, .texBias, .volumeLod, .cubeBias, .sinCos, .scalarSwizzle] : List Feature) := by
    cases helper <;> cases defined <;> decide
  exact List.mem_map_of_mem (List.mem_filter.2 ⟨written, by simpa using shown⟩)

/-! ## Closure -/

namespace Context

/-- A helper function is named in the code exactly when a rendered expression calls it. -/
theorem helper_mem_codeNames {c : Context} (listed : c.EntryListed) {helper : Helper} :
    .helper helper ∈ c.program.codeNames ↔ ∃ site ∈ c.rendered, site.expr.Calls helper := by
  constructor
  · intro written
    rcases List.mem_append.1 written with head | inTerms
    · exact absurd (heads_program listed _ head) id
    · rcases mem_names_terms inTerms with ⟨site, rendered, own⟩ | ⟨place, stored, named⟩
      · exact ⟨site, rendered, Site.helper_mem_head.1 own⟩
      · rcases returnVariable?_eq_some stored with ⟨semantic, variableName, -, rfl⟩ | ⟨slot, rfl⟩
        · simp [Glsl.Term.names] at named
        · simp [Glsl.Term.names, colorName] at named
  · rintro ⟨site, rendered, calls⟩
    refine List.mem_append_right _ (mem_terms_of_rendered rendered ?_)
    exact Site.helper_mem_head.2 calls

/-- The code reads no alias of a helper function that no rendered expression calls. -/
theorem codeLines_eq_of_called {c : Context} (listed : c.EntryListed) {names other : Renaming}
    (words : ∀ word, other.source word = names.source word)
    (called : ∀ helper, (∃ site ∈ c.rendered, site.expr.Calls helper) →
      other.helper helper = names.helper helper) :
    c.program.codeLines other = c.program.codeLines names := by
  refine Glsl.Program.codeLines_congr fun name written => ?_
  cases name with
  | source word => exact words word
  | helper which => exact called which ((helper_mem_codeNames listed).1 written)
  | _ => rfl

end Context

/-- In every generated text, each helper function that the code calls is defined on a line in
front of the code. The code calls a helper function exactly where a rendered expression is a
built-in function that becomes one, or selects two to four components of a scalar, and reads the
aliases of no others. For a scalar there is a definition that takes its type, unless it is
unsigned and the dialect has no unsigned integers. -/
theorem helper_calls_defined {shader : Shader} {profile : Profile} {entryName : String}
    {output : Output} (generated : generate shader profile entryName = .ok output) :
    ∃ entry names, Generated shader profile entryName output entry names ∧
      let c := Context.ofEntry shader profile entry
      let Called (helper : Helper) : Prop := ∃ site ∈ c.rendered, site.expr.Calls helper
      let DefinedBefore (overload : Overload) : Prop :=
        ∃ earlier later, output.text = Line.renderAll
          (earlier ++ ⟨0, overload.text names⟩ :: (later ++ c.program.codeLines names))
      (∀ helper, .helper helper ∈ c.program.codeNames ↔ Called helper) ∧
      (∀ other : Renaming, (∀ word, other.source word = names.source word) →
        (∀ helper, Called helper → other.helper helper = names.helper helper) →
        c.program.codeLines other = c.program.codeLines names) ∧
      (∀ helper, Called helper → ∃ overload, overload.helper = helper ∧ DefinedBefore overload) ∧
      ∀ site ∈ c.rendered, ∀ object field ty helper, site.expr = .member object field ty →
        site.expr.Calls helper →
        (object.ty.base = .uint → profile.dialect.hasUnsigned = true) →
        ∃ overload, overload.helper = helper ∧
          overload.parameters = [object.ty.base.spelling ++ " x"] ∧ DefinedBefore overload := by
  obtain ⟨entry, names, run⟩ := generate_eq_ok_iff.1 generated
  refine ⟨entry, names, run, ?_⟩
  intro c Called DefinedBefore
  have listed : c.EntryListed := Context.entryListed_ofEntry run.found
  have definedBefore {feature : Feature} {helper : Helper} {overload : Overload}
      (defined : helper.feature? = some feature) (shown : feature ∈ c.features)
      (member : overload ∈ feature.overloads profile) : DefinedBefore overload := by
    have grouped : feature.overloads profile ∈ c.program.helpers :=
      Features.overloads_mem_helpers defined shown
    obtain ⟨earlier, later, lines⟩ := Glsl.Program.helper_line names grouped member
    exact ⟨earlier, later, by rw [run.text, Glsl.Program.text, lines]⟩
  have shows {site : Site} {helper : Helper} (rendered : site ∈ c.rendered)
      (calls : site.expr.Calls helper) :
      ∃ feature, helper.feature? = some feature ∧ feature ∈ c.features :=
    calls.feature (Context.rendered_walked listed site rendered)
  refine ⟨fun helper => Context.helper_mem_codeNames listed,
    fun other => Context.codeLines_eq_of_called listed, ?_, ?_⟩
  · rintro helper ⟨site, rendered, calls⟩
    obtain ⟨feature, defined, shown⟩ := shows rendered calls
    obtain ⟨overload, member, named⟩ := Helper.exists_overload profile defined
    exact ⟨overload, named, definedBefore defined shown member⟩
  · intro site rendered object field ty helper isMember calls unsigned
    obtain ⟨feature, defined, shown⟩ := shows rendered calls
    rw [isMember] at calls
    obtain ⟨vector, typed⟩ := Overload.scalar_mem calls.1 unsigned
    obtain ⟨-, -, repeats⟩ := Helper.feature?_of_ofSwizzle? calls.2
    obtain ⟨overload, member, named, typed⟩ := Overload.swizzle_mem repeats typed
    obtain rfl := Option.some.inj (repeats.symm.trans defined)
    exact ⟨overload, named, typed, definedBefore defined shown member⟩

/-- A fragment entry that discards by the components of a repeated scalar. -/
def repeatedClip : Shader :=
  [.function ⟨"main", Ty.ofBase .void, none, []⟩
    [.evaluate (.ofCall "CLIP"
      [.member (.identifier "depth" (Ty.ofBase .uint)) "xx" (Ty.ofBase (.vector .uint .two))]
      (Ty.ofBase .void))]]

/-- The selection of two components of an unsigned scalar calls a helper function, and the overload
for unsigned scalars is defined in front of the code. -/
theorem repeatedClip_defined :
    let profile : Profile := ⟨.desktopOther, .modern, .fragment⟩
    ∃ output entry names, generate repeatedClip profile "main" = .ok output ∧
      Generated repeatedClip profile "main" output entry names ∧
      ∃ (overload : Overload) (earlier later : List Line),
        overload.helper = .swizzle2 ∧ overload.parameters = ["uint x"] ∧
        output.text = Line.renderAll (earlier ++ ⟨0, overload.text names⟩ ::
          (later ++ (Context.ofEntry repeatedClip profile entry).program.codeLines names)) := by
  intro profile
  have generated :
      generate repeatedClip ⟨.desktopOther, .modern, .fragment⟩ "main" = .ok _ := rfl
  obtain ⟨entry, names, run, -, -, -, typed⟩ := helper_calls_defined generated
  obtain rfl := Option.some.inj (run.found.symm.trans rfl)
  obtain ⟨overload, named, parameters, earlier, later, text⟩ := typed
    ⟨some (Ty.ofBase (.vector .uint .two)),
      .member (.identifier "depth" (Ty.ofBase .uint)) "xx" (Ty.ofBase (.vector .uint .two))⟩
    (List.mem_flatMap.2 ⟨_, List.mem_cons_self,
      Site.mem_parts.2 (Or.inr ⟨_, List.mem_cons_self, Site.mem_parts_self _ _⟩)⟩)
    _ _ _ .swizzle2 rfl ⟨rfl, rfl⟩ (fun _ => rfl)
  exact ⟨_, _, names, generated, run, overload, earlier, later, named, parameters, text⟩

end GlslText
