import GlslText.Proofs.ColorOutputs
import GlslText.Proofs.Weaving

/-!
# Variables of the returned colour outputs

A fragment entry that returns a structure writes each field that names a colour output to the
variable of that output. Variables are numbered once some field names an output other than the
first, so that fields share a variable exactly when they name the same output.
-/

namespace GlslText

/-! ## One variable for each output -/

/-- With several outputs each has a variable of its own. -/
theorem colorVariable_several_inj {generation : Generation} {m n : Nat} :
    colorVariable generation true m = colorVariable generation true n ↔ m = n := by
  cases generation with
  | legacy =>
    simp only [colorVariable]
    rw [String.append_left_inj, String.append_right_inj, toString_injective.eq_iff]
  | modern =>
    simp only [colorVariable]
    rw [String.append_right_inj, toString_injective.eq_iff]

/-- The variable without a number is that of a single output in the legacy generation. -/
theorem colorVariable_eq_single_iff {generation : Generation} {several : Bool} {n : Nat} :
    colorVariable generation several n = "gl_FragColor" ↔
      generation = .legacy ∧ several = false := by
  have eighth {text : String} (same : text = "gl_FragColor") : text.toList[7]? = some 'C' := by
    rw [same]
    rfl
  constructor
  · intro same
    cases generation with
    | legacy =>
      cases several with
      | false => exact ⟨rfl, rfl⟩
      | true =>
        have letter := eighth same
        rw [colorVariable, String.toList_append, String.toList_append, List.append_assoc,
          List.getElem?_append_left (by decide)] at letter
        exact absurd letter (by decide)
    | modern =>
      cases several with
      | false =>
        change "out_FragColor0" = "gl_FragColor" at same
        exact absurd same (by decide)
      | true =>
        have letter := eighth same
        rw [colorVariable, String.toList_append, List.getElem?_append_left (by decide)] at letter
        exact absurd letter (by decide)
  · rintro ⟨rfl, rfl⟩
    rfl

/-- Two fields of a returned structure that name colour outputs have the same variable exactly when
they name the same output. -/
theorem Struct.colorVariable_eq_iff {struct : Struct} {first second : Field} {slot slot' : Slot}
    (listed : first ∈ struct.fields) (target : first.slot? = some slot)
    (listed' : second ∈ struct.fields) (target' : second.slot? = some slot')
    (generation : Generation) :
    colorVariable generation struct.hasFurtherTarget slot.index =
      colorVariable generation struct.hasFurtherTarget slot'.index ↔ slot.index = slot'.index := by
  cases further : struct.hasFurtherTarget with
  | true => exact colorVariable_several_inj
  | false =>
    -- With a single variable both fields name the first output.
    have single := hasFurtherTarget_eq_false_iff.1 further
    simp [single first listed slot target, single second listed' slot' target']

/-- The first field of a name is the only one where names are distinct. -/
theorem Struct.field?_of_mem {struct : Struct} (distinct : (struct.fields.map Field.name).Nodup)
    {field : Field} (listed : field ∈ struct.fields) : struct.field? field.name = some field := by
  rw [field?]
  generalize struct.fields = fields at distinct listed
  induction fields with
  | nil => cases listed
  | cons first rest ih =>
    obtain ⟨fresh, distinctRest⟩ := List.nodup_cons.1 distinct
    rcases List.mem_cons.1 listed with rfl | later
    · exact List.find?_cons_of_pos (by simp)
    · have apart : first.name ≠ field.name :=
        fun same => fresh (same ▸ List.mem_map_of_mem later)
      rw [List.find?_cons_of_neg (by simpa using apart)]
      exact ih distinctRest later

/-! ## Names written like the single variable -/

/-- The single variable of the legacy generation is no alias. -/
theorem Renaming.single_notMem_aliases {tokens : List String} {names : Renaming}
    (chosen : ofTokens tokens = .ok names) : "gl_FragColor" ∉ names.aliases := by
  intro isAlias
  obtain ⟨base, needed, n, same⟩ := eq_numbered_of_mem_aliases chosen isAlias
  have letters : ∀ base ∈ aliasBases, base.toList.head?.isSome = true ∧
      base.toList.head? ≠ some 'g' := by
    decide
  obtain ⟨present, apart⟩ := letters base needed
  have first := congrArg (fun text => text.toList.head?) same
  simp only [numbered, String.toList_append, List.head?_append, Option.or_of_isSome present]
    at first
  exact apart first.symm

/-- No word of the language is the single variable of the legacy generation. -/
theorem Glsl.LanguageWord.ne_single {word : String} (fixed : LanguageWord word) :
    word ≠ "gl_FragColor" := by
  have types (base : BaseType) : base.spelling ≠ "gl_FragColor" := by
    unfold BaseType.spelling
    split <;> decide
  have functions : ∀ entry ∈ intrinsics, ∀ word ∈ entry.2.words, word ≠ "gl_FragColor" := by
    decide +kernel
  have builtIns : ∀ entry ∈ builtInSemantics, entry.2 ≠ "gl_FragColor" := by
    decide
  exact fixed.induct types functions builtIns (by decide)

/-- A name that is written like the single variable is spelled so in the shader, or it is that
variable. -/
theorem Glsl.Name.eq_of_text_eq_single {shader : Shader} {names : Renaming} {name : Glsl.Name}
    (chosen : Renaming.ofTokens shader.tokens = .ok names) (accounted : name.Accounted shader)
    (written : name.text names = "gl_FragColor") :
    name.copied? = some "gl_FragColor" ∨ ∃ n, name = .color .legacy false n := by
  have opens {front back : String} {ch : Char} (begins : front.toList.head? = some ch)
      (same : front ++ back = "gl_FragColor") : ch = 'g' := by
    have first : (front ++ back).toList.head? = some ch := head?_append begins
    rw [same] at first
    exact (Option.some.inj first).symm
  cases name with
  | word text => exact absurd written (accounted.fixed text rfl).ne_single
  | source word =>
    by_cases reserved : word ∈ reservedWords
    · have isAlias := Renaming.source_mem_aliases chosen reserved
      rw [show names.source word = _ from written] at isAlias
      exact absurd isAlias (Renaming.single_notMem_aliases chosen)
    · rw [text, names.source_of_not_reserved word reserved] at written
      exact Or.inl (congrArg some written)
  | verbatim text => exact Or.inl (congrArg some written)
  | helper which =>
    have isAlias := Renaming.helper_mem_aliases chosen which
    rw [show names.helper which = _ from written] at isAlias
    exact absurd isAlias (Renaming.single_notMem_aliases chosen)
  | vertexInput field => exact absurd (opens rfl written) (by decide)
  | varying field => exact absurd (opens rfl written) (by decide)
  | texture stage unit =>
    rw [text, String.append_assoc] at written
    cases stage with
    | vertex => exact absurd (opens rfl written) (by decide)
    | fragment => exact absurd (opens rfl written) (by decide)
  | color generation several n =>
    obtain ⟨rfl, rfl⟩ := colorVariable_eq_single_iff.1 written
    exact Or.inr ⟨n, rfl⟩

/-- The colour outputs that a returned structure names are told apart. Suppose that a fragment entry
returns a structure with fields of distinct names and does not take it as well. Then in both
generations two fields that name colour outputs are rendered, up to the selection of components, as
the same variable exactly when they name the same output. The single variable of the legacy
generation is written only if every such field names the first output, unless the shader itself
spells a name that way. -/
theorem returned_colors_separate {shader : Shader} {profile : Profile} {entryName : String}
    {entry : Function} {struct : Struct} (found : shader.function? entryName = some entry)
    (fragment : profile.stage = .fragment)
    (returned : (Interface.ofEntry shader entry).output = some struct)
    (untaken : (Interface.ofEntry shader entry).input ≠ some struct)
    (distinct : (struct.fields.map Field.name).Nodup) :
    let c := Context.ofEntry shader profile entry
    (∀ first ∈ struct.fields, ∀ second ∈ struct.fields, ∀ slot slot',
      first.slot? = some slot → second.slot? = some slot' →
      ∃ name name' : Glsl.Name,
        (∀ object ty hint, object.ty.structName = some struct.name →
          (Expr.member object first.name ty).lower c hint =
            castTo hint (.member object first.name ty) (.named name first.ty.base.narrowing)) ∧
        (∀ object ty hint, object.ty.structName = some struct.name →
          (Expr.member object second.name ty).lower c hint =
            castTo hint (.member object second.name ty) (.named name' second.ty.base.narrowing)) ∧
        ∀ names, name.text names = name'.text names ↔ slot.index = slot'.index) ∧
    ∀ names, Renaming.ofTokens shader.tokens = .ok names →
      ∀ name ∈ c.program.codeNames, name.text names = "gl_FragColor" →
        name.copied? = some "gl_FragColor" ∨
          ∀ field ∈ struct.fields, ∀ slot, field.slot? = some slot → slot.index = 0 := by
  intro c
  have isFragment : profile.isFragment = true := by simp [Profile.isFragment, fragment]
  have several : c.features.contains .multipleTargets = struct.hasFurtherTarget :=
    Context.contains_multipleTargets isFragment returned
  have colorName (slot : Slot) :
      c.colorName slot = .color profile.generation struct.hasFurtherTarget slot.index := by
    rw [Context.colorName, several]
    rfl
  have rendered {field : Field} {slot : Slot} (listed : field ∈ struct.fields)
      (target : field.slot? = some slot) (object : Expr) (ty : Ty) (hint : Option Ty)
      (typed : object.ty.structName = some struct.name) :
      (Expr.member object field.name ty).lower c hint =
        castTo hint (.member object field.name ty)
          (.named (c.colorName slot) field.ty.base.narrowing) := by
    have role : c.interface.roleOf object.ty = .output := by
      rw [Interface.roleOf, typed]
      exact (Interface.role_eq_output_iff returned).2 untaken
    rw [Expr.lower, Context.member_eq_color role returned (struct.field?_of_mem distinct listed)
      target]
  refine ⟨?_, ?_⟩
  · intro first listed second listed' slot slot' target target'
    refine ⟨c.colorName slot, c.colorName slot', rendered listed target,
      rendered listed' target', fun names => ?_⟩
    rw [colorName, colorName]
    exact struct.colorVariable_eq_iff listed target listed' target' profile.generation
  · intro names chosen name named written
    have accounted := Context.names_accounted found name (List.mem_append_right _ named)
    rcases name.eq_of_text_eq_single chosen accounted written with copied | ⟨n, rfl⟩
    · exact Or.inl copied
    right
    have ofSlot {slot : Slot} (same : .color .legacy false n = c.colorName slot) :
        struct.hasFurtherTarget = false := by
      rw [colorName] at same
      exact (Glsl.Name.color.inj same).2.1.symm
    refine Struct.hasFurtherTarget_eq_false_iff.1 ?_
    rcases Context.origin_of_color (Context.entryListed_ofEntry found) named with
      ⟨place, stored, own⟩ | ⟨_, _, slot, -, -, -, same⟩ | ⟨_, _, _, slot, -, -, same⟩
    · rcases Context.returnVariable?_eq_some stored with ⟨_, variableName, -, rfl⟩ | ⟨slot, rfl⟩
      · cases List.mem_singleton.1 own
      · exact ofSlot (List.mem_singleton.1 own)
    · exact ofSlot same
    · cases same

/-- The type of the structure that a fragment entry returns. -/
def layeredTy : Ty :=
  ⟨.userDefined, some "Layers", false, none, false, false⟩

/-- A fragment entry that returns two fields for the first colour output and one for the third. -/
def layeredEntry : Function where
  name := "main"
  result := layeredTy
  semantic := none
  arguments := []
  body := [.result (some (.identifier "o" layeredTy))]

/-- The structure that the entry returns. -/
def layeredStruct : Struct :=
  ⟨"Layers",
    [⟨"base", Ty.ofBase (.vector (.float .full) .four), some "SV_Target", none⟩,
    ⟨"tint", Ty.ofBase (.vector (.float .full) .three), some "sv_target00", none⟩,
    ⟨"glow", Ty.ofBase (.vector (.float .full) .four), some "SV_TARGET02", none⟩]⟩

/-- The two fields of the first output are one variable up to the selection of components, and the
field of the third is another. -/
theorem layeredStruct_separate :
    let shader : Shader :=
      [.struct layeredStruct, .function layeredEntry.toSignature layeredEntry.body]
    let c := Context.ofEntry shader ⟨.mobileA, .legacy, .fragment⟩ layeredEntry
    let access (field : String) : Expr := .member (.identifier "o" layeredTy) field layeredTy
    (∃ base tint : Glsl.Name, (access "base").lower c none = .named base "" ∧
      (access "tint").lower c none = .named tint ".xyz" ∧
      ∀ names, base.text names = tint.text names) ∧
    ∃ tint glow : Glsl.Name, (access "tint").lower c none = .named tint ".xyz" ∧
      (access "glow").lower c none = .named glow "" ∧
      ∀ names, tint.text names ≠ glow.text names := by
  intro shader c access
  have found : shader.function? "main" = some layeredEntry := rfl
  have fragment : (⟨.mobileA, .legacy, .fragment⟩ : Profile).stage = .fragment := rfl
  have returned : (Interface.ofEntry shader layeredEntry).output = some layeredStruct := rfl
  have untaken : (Interface.ofEntry shader layeredEntry).input ≠ some layeredStruct := by
    rintro ⟨⟩
  obtain ⟨separate, -⟩ := returned_colors_separate found fragment returned untaken (by decide)
  obtain ⟨base, tint, isBase, isTint, same⟩ :=
    separate _ (.head _) _ (.tail _ (.head _)) .canonical (.indexed 0) (by decide) (by decide)
  obtain ⟨tint', glow, isTint', isGlow, apart⟩ :=
    separate _ (.tail _ (.head _)) _ (.tail _ (.tail _ (.head _))) (.indexed 0) (.indexed 2)
      (by decide) (by decide)
  refine ⟨⟨base, tint, isBase _ _ none rfl, isTint _ _ none rfl, fun names => (same names).2 rfl⟩,
    tint', glow, isTint' _ _ none rfl, isGlow _ _ none rfl, fun names equal => ?_⟩
  exact absurd ((apart names).1 equal) (by decide)

end GlslText
