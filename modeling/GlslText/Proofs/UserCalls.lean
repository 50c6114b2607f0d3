import GlslText.Proofs.Faults
import GlslText.Proofs.HelperClosure
import GlslText.Proofs.Placement

/-!
# Calls of the functions of a shader

A function of the shader is defined under its own name, or under an alias if that is reserved. A
call is first taken for a product, a saturation, a read of a colour output or a built-in function
of the table, whatever functions the shader has. So a call reaches the function of its name exactly
when the name is none of those. The interpolation of one platform and the reads of the legacy
generation keep their name in the text, where the preamble may define a macro of that name.
-/

namespace GlslText

/-- The names under which a call is not written as a call of the function of that name: those of
products and saturations, in the modern generation that of reads of colour outputs, and those of
the built-in functions of the table, apart from the interpolation where it is a macro. -/
def Profile.Redirects (profile : Profile) (name : String) : Prop :=
  alike name "mul" = true ∨ alike name "saturate" = true ∨
    (name = fetchCallee ∧ profile.generation = .modern) ∨
    (∃ entry ∈ intrinsics, alike entry.1 name = true) ∧
      ¬(profile.platform = .desktopMac ∧ name = "lerp")

instance (profile : Profile) (name : String) : Decidable (profile.Redirects name) :=
  inferInstanceAs (Decidable (_ ∨ _ ∨ _ ∨ _))

/-! ## The names of built-in functions -/

/-- A callee is a built-in function of the table exactly when it is like one of its words. -/
theorem exists_intrinsic?_iff {callee : String} :
    (∃ found, intrinsic? callee = some found) ↔
      ∃ entry ∈ intrinsics, alike entry.1 callee = true := by
  rw [← Option.isSome_iff_exists, intrinsic?, Option.isSome_map, List.find?_isSome]

/-- What the functions of the table are written as is not in the table, apart from the macro. -/
theorem intrinsic?_of_mem_words {callee word : String} {found : Intrinsic}
    (recognised : intrinsic? callee = some found) (written : word ∈ found.words) :
    intrinsic? word = none ∨ word = "lerp" ∧ found = .interpolation := by
  have apart : ∀ entry ∈ intrinsics, ∀ word ∈ entry.2.words,
      intrinsic? word = none ∨ word = "lerp" ∧ entry.2 = .interpolation := by
    decide +kernel
  obtain ⟨entry, listed, rfl⟩ := Option.map_eq_some_iff.1 recognised
  exact apart entry (List.mem_of_find?_eq_some listed) word written

/-- Names of saturations and of functions of the table are not reserved. -/
theorem Renaming.source_of_recognised (names : Renaming) {callee : String}
    (recognised : alike callee "saturate" = true ∨ ∃ found, intrinsic? callee = some found) :
    names.source callee = callee := by
  have free : ∀ word ∈ reservedWords,
      alike word "saturate" = false ∧ intrinsic? word = none := by
    decide +kernel
  refine names.source_of_not_reserved callee fun reserved => ?_
  obtain ⟨noSaturation, unknown⟩ := free callee reserved
  rcases recognised with saturation | ⟨found, known⟩
  · rw [saturation] at noSaturation
    cases noSaturation
  · rw [known] at unknown
    cases unknown

/-- A token that is a built-in function of the table is written as something else, unless it is
the macro. -/
theorem Intrinsic.text_name_ne_source {tokens : List String} {names : Renaming}
    (chosen : Renaming.ofTokens tokens = .ok names) {profile : Profile} {callee : String}
    {found : Intrinsic} (token : callee ∈ tokens) (recognised : intrinsic? callee = some found)
    (noMacro : ¬(profile.platform = .desktopMac ∧ callee = "lerp")) :
    (found.name profile).text names ≠ names.source callee := by
  rw [names.source_of_recognised (Or.inr ⟨found, recognised⟩)]
  rcases found.name_eq profile with ⟨word, written, named⟩ | ⟨which, named⟩
  · rw [named, Glsl.Name.text]
    rintro rfl
    rcases intrinsic?_of_mem_words recognised written with unknown | ⟨isMacro, rfl⟩
    · rw [unknown] at recognised
      cases recognised
    · subst isMacro
      refine noMacro ⟨?_, rfl⟩
      by_contra noMac
      simp [name, noMac] at named
  · rw [named, Glsl.Name.text]
    intro same
    have isAlias : names.helper which ∈ names.aliases := Renaming.helper_mem_aliases chosen which
    exact Renaming.notMem_tokens_of_mem_aliases chosen isAlias (same ▸ token)

/-! ## Calls and definitions -/

/-- Enclosing in a constructor keeps terms apart. -/
theorem castTo_injective (hint : Option Ty) (e : Expr) : Function.Injective (castTo hint e) := by
  intro left right same
  unfold castTo at same
  split at same
  · split at same
    · simpa using same
    · exact same
  · exact same

namespace Context

variable {c : Context} {callee : String} {arguments : List Expr} {terms : List Glsl.Term}

/-- A sound call under a name that is not redirected is written under that name. -/
theorem call_of_not_redirects (names : Renaming) (kept : ¬c.profile.Redirects callee)
    (sound : callee = fetchCallee → ∃ slot, fetchTarget arguments = .ok slot) :
    ∃ name, c.call callee arguments terms = .apply name terms ∧
      name.text names = names.source callee := by
  simp only [Profile.Redirects, not_or, ← exists_intrinsic?_iff] at kept
  obtain ⟨noProduct, noSaturation, noRead, noIntrinsic⟩ := kept
  have named : (calleeName c.profile callee).text names = names.source callee := by
    unfold calleeName
    cases recognised : intrinsic? callee with
    | none => rfl
    | some found =>
      -- The only function of the table that is not redirected is the macro.
      rw [not_and, not_not] at noIntrinsic
      obtain ⟨isMac, rfl⟩ := noIntrinsic ⟨found, recognised⟩
      have interpolation : intrinsic? "lerp" = some .interpolation := by decide
      obtain rfl := Option.some.inj (interpolation.symm.trans recognised)
      rw [names.source_of_recognised (Or.inr ⟨_, recognised⟩)]
      simp [Intrinsic.name, isMac, Glsl.Name.text]
  refine ⟨calleeName c.profile callee, ?_, named⟩
  have form := c.callForm_call callee arguments terms
  generalize c.call callee arguments terms = whole at form ⊢
  cases form with
  | ordinary => rfl
  | legacyRead => rfl
  | modernRead slot read target modern =>
    refine absurd ⟨read, ?_⟩ noRead
    cases generation : c.profile.generation with
    | modern => rfl
    | legacy => simp [Profile.isLegacy, generation] at modern
  | faultyRead cause read target =>
    obtain ⟨slot, found⟩ := sound read
    rw [found] at target
    cases target
  | product left right noRead isProduct => exact absurd isProduct noProduct
  | faultyProduct noRead isProduct => exact absurd isProduct noProduct
  | saturation value noRead noProduct isSaturation => exact absurd isSaturation noSaturation
  | faultySaturation noRead noProduct isSaturation => exact absurd isSaturation noSaturation

/-- A call under a redirected name is not written under that name. -/
theorem call_of_redirects {tokens : List String} {names : Renaming}
    (chosen : Renaming.ofTokens tokens = .ok names) (token : callee ∈ tokens)
    (redirected : c.profile.Redirects callee) {name : Glsl.Name} {others : List Glsl.Term}
    (called : c.call callee arguments terms = .apply name others) :
    name.text names ≠ names.source callee := by
  have form := c.callForm_call callee arguments terms
  rw [called] at form
  -- Products, modern reads and faulty calls are no applications.
  cases form with
  | ordinary noRead noProduct noSaturation =>
    rcases redirected with isProduct | isSaturation | ⟨read, -⟩ | ⟨listed, noMacro⟩
    · rw [isProduct] at noProduct
      cases noProduct
    · rw [isSaturation] at noSaturation
      cases noSaturation
    · exact absurd read noRead
    · obtain ⟨found, recognised⟩ := exists_intrinsic?_iff.2 listed
      rw [calleeName, recognised]
      exact Intrinsic.text_name_ne_source chosen token recognised noMacro
  | legacyRead slot read target legacy =>
    subst read
    rcases redirected with isProduct | isSaturation | ⟨-, modern⟩ | ⟨listed, -⟩
    · rw [alike_fetchCallee.1] at isProduct
      cases isProduct
    · rw [alike_fetchCallee.2] at isSaturation
      cases isSaturation
    · simp [Profile.isLegacy, modern] at legacy
    · obtain ⟨found, recognised⟩ := exists_intrinsic?_iff.2 listed
      rw [intrinsic?_of_special (Or.inl rfl)] at recognised
      cases recognised
  | saturation value noRead noProduct isSaturation one =>
    rw [names.source_of_recognised (Or.inl isSaturation), Glsl.Name.text]
    rintro rfl
    exact absurd isSaturation (by decide)

end Context

/-- The name of a global function is a token. -/
theorem Shader.name_mem_tokens {shader : Shader} {signature : Signature} {body : List Statement}
    (listed : .function signature body ∈ shader) : signature.name ∈ shader.tokens := by
  refine List.mem_append_left _ ?_
  rw [Statement.tokensAll_eq_flatMap]
  exact List.mem_flatMap.2 ⟨_, listed, List.mem_append_left _ List.mem_cons_self⟩

/-- The head of a function stands on a line of its own. -/
theorem Signature.head_mem_lines (c : Context) (names : Renaming) (depth : Nat)
    (signature : Signature) (body : List Glsl.Stmt) :
    ∃ parameters, ⟨depth, signature.result.glslName.text names ++ " " ++
        names.source signature.name ++ "(" ++ parameters ++ ") \x7b"⟩ ∈
      (Glsl.Stmt.function (signature.prototype c) body).lines names depth := by
  have closing : ") \x7b" = ")" ++ " \x7b" := rfl
  refine ⟨String.intercalate ", " ((signature.prototype c).parameters.map
    (Glsl.Parameter.text names)), ?_⟩
  rw [Glsl.Stmt.lines, closing, ← String.append_assoc]
  exact List.mem_cons_self

/-- In every generated text each global function other than the entry is defined under its name, or
under the alias of a reserved name. A rendered call under the name of such a function is an
application of just that name to its arguments, unless the name is redirected; and under a
redirected name no rendered call is an application of that name. This is said of the names in the
text: the interpolation of one platform and the reads of the legacy generation are not redirected,
though the preamble may define macros of their names. -/
theorem user_calls_reach_iff {shader : Shader} {profile : Profile} {entryName : String}
    {output : Output} {entry : Function} {signature : Signature} {body : List Statement}
    (generated : generate shader profile entryName = .ok output)
    (found : shader.function? entryName = some entry)
    (listed : .function signature body ∈ shader) (other : signature.name ≠ entryName) :
    ∃ names, Renaming.ofTokens shader.tokens = .ok names ∧
      let c := Context.ofEntry shader profile entry
      let name := names.source signature.name
      output.text = Line.renderAll (c.program.lines names) ∧
      (∃ parameters, ⟨0, signature.result.glslName.text names ++ " " ++ name ++ "(" ++ parameters
        ++ ") \x7b"⟩ ∈ c.program.lines names) ∧
      ∀ site ∈ c.rendered, ∀ arguments parameters ty,
        site.expr = .call signature.name arguments parameters ty →
        (¬profile.Redirects signature.name → ∃ callee,
          site.lower c = castTo site.hint site.expr
            (.apply callee (Expr.lowerAll c parameters arguments)) ∧
          callee.text names = name) ∧
        (profile.Redirects signature.name → ∀ callee terms,
          site.lower c = castTo site.hint site.expr (.apply callee terms) →
          callee.text names ≠ name) := by
  obtain ⟨entry', names, run⟩ := generate_eq_ok_iff.1 generated
  obtain rfl := Option.some.inj (run.found.symm.trans found)
  refine ⟨names, run.chosen, ?_⟩
  intro c name
  refine ⟨run.text, ?_, ?_⟩
  · have apart : signature.name ≠ c.entry.name :=
      fun same => other (same.trans (Shader.mem_of_function? run.found).2)
    have lines := Context.lines_of_shader (.here listed : Statement.Placed c _ _ 0 _ _ _) names
    rw [Statement.lower, if_neg apart, Glsl.Stmt.linesAll, Glsl.Stmt.linesAll,
      List.append_nil] at lines
    obtain ⟨parameters, head⟩ := signature.head_mem_lines c names 0
      (Statement.lowerAll c (Scope.global.ofFunction signature) body)
    exact ⟨parameters, lines.subset head⟩
  · rintro ⟨hint, e⟩ rendered arguments parameters ty rfl
    have lowered : Site.lower c ⟨hint, .call signature.name arguments parameters ty⟩ =
        castTo hint (.call signature.name arguments parameters ty)
          (c.call signature.name arguments (Expr.lowerAll c parameters arguments)) := by
      rw [Site.lower, Expr.lower]
    constructor
    · intro kept
      have sound (read : signature.name = fetchCallee) :
          ∃ slot, fetchTarget arguments = .ok slot := by
        have faultless := (Context.faults_program_eq_nil_iff.1 run.faultless).2.1 _ rendered
        exact namesOutput_iff.1 (((Expr.not_faulty_iff.1 faultless).1 _ _ _ _ rfl).2.2 read)
      obtain ⟨callee, called, text⟩ := Context.call_of_not_redirects (c := c) names kept sound
      exact ⟨callee, by rw [lowered, called], text⟩
    · intro redirected callee terms called
      rw [lowered] at called
      exact Context.call_of_redirects run.chosen (Shader.name_mem_tokens listed) redirected
        (castTo_injective _ _ called)

/-- A call of a function of the given name. -/
def ownCall (name : String) : Expr :=
  let scalar := Ty.ofBase (.vector (.float .full) .one)
  .ofCall name [.literal (.float 0x3f800000) scalar] scalar

/-- A function of the given name, and an entry that calls it. -/
def ownFunction (name : String) : Shader :=
  let scalar := Ty.ofBase (.vector (.float .full) .one)
  [.function ⟨name, scalar, none, [⟨"x", scalar, .plain⟩]⟩
    [.result (some (.identifier "x" scalar))],
  .function ⟨"main", Ty.ofBase .void, none, []⟩ [.evaluate (ownCall name)]]

/-- A function named `mix` is defined as `mix0`, and a call of it is written so too. -/
theorem ownFunction_reached :
    ∃ output entry names lines parameters callee terms,
      generate (ownFunction "mix") ⟨.mobileA, .legacy, .fragment⟩ "main" = .ok output ∧
      (ownFunction "mix").function? "main" = some entry ∧
      Renaming.ofTokens (ownFunction "mix").tokens = .ok names ∧
      output.text = Line.renderAll lines ∧
      ⟨0, "float mix0(" ++ parameters ++ ") \x7b"⟩ ∈ lines ∧
      (ownCall "mix").lower
        (Context.ofEntry (ownFunction "mix") ⟨.mobileA, .legacy, .fragment⟩ entry) none =
          .apply callee terms ∧
      callee.text names = "mix0" := by
  have generated :
      generate (ownFunction "mix") ⟨.mobileA, .legacy, .fragment⟩ "main" = .ok _ := rfl
  have found : (ownFunction "mix").function? "main" = some _ := rfl
  obtain ⟨names, chosen, text, ⟨parameters, defined⟩, calls⟩ :=
    user_calls_reach_iff generated found List.mem_cons_self (by decide)
  have isAlias : names.source "mix" = "mix0" := by
    have named : Renaming.ofTokens (ownFunction "mix").tokens = .ok _ := rfl
    obtain rfl := Except.ok.inj (chosen.symm.trans named)
    decide +kernel
  obtain ⟨callee, lowered, name⟩ := (calls ⟨none, ownCall "mix"⟩
    (List.mem_flatMap.2 ⟨_, List.mem_cons_of_mem _ List.mem_cons_self, Site.mem_parts_self _ _⟩)
    _ _ _ rfl).1 (by decide +kernel)
  rw [isAlias] at defined name
  exact ⟨_, _, names, _, parameters, callee, _, generated, found, chosen, text, defined, lowered,
    name⟩

/-- The function is defined under its name, and the call goes to another function. -/
theorem ownFunction_redirected :
    generate (ownFunction "frac") ⟨.desktopOther, .modern, .fragment⟩ "main" =
      .ok ⟨Line.renderAll
        ((Profile.preamble ⟨.desktopOther, .modern, .fragment⟩ []).map (Line.mk 0) ++
          [⟨0, "float frac(float x) \x7b"⟩, ⟨1, "return x;"⟩, ⟨0, "\x7d"⟩, .blank,
            ⟨0, "void main()"⟩, ⟨0, "\x7b"⟩, ⟨1, "fract(1.0);"⟩, ⟨0, "\x7d"⟩]),
        .glsl330, []⟩ := by
  decide +kernel

end GlslText
