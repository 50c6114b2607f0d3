import GlslText.Proofs.Generation
import GlslText.Proofs.SlotResolution
import GlslText.Proofs.WrittenNames
import Mathlib.Data.List.Count

/-!
# Declared colour outputs

A modern fragment text declares every colour output that its entry writes or its shader reads,
once and in the direction it is used in, and no others. The variables that colour outputs are
written to and read from are among the declared ones.
-/

namespace GlslText

/-! ## Declarations -/

/-- Different numbers have different digits: the digits of a number are read as that number. -/
theorem toString_injective : Function.Injective (toString : Nat → String) := by
  intro m n digits
  have read := congrArg (fun text : String => Nat.ofDigitChars 10 text.toList 0) digits
  simpa [Nat.toString_eq_repr] using read

namespace ColorOutput

/-- The text of an output brought into the form of what stands up to the first bracket and what
stands behind it. -/
theorem append_regroup {start number bracket direction later type finish : String}
    (same : bracket ++ direction = ")" ++ later) :
    start ++ number ++ bracket ++ direction ++ type ++ number ++ finish =
      start ++ number ++ ")" ++ (later ++ (type ++ number ++ finish)) := by
  have moved : bracket ++ (direction ++ (type ++ (number ++ finish))) =
      ")" ++ (later ++ (type ++ (number ++ finish))) := by
    rw [← String.append_assoc, same, String.append_assoc]
  simp only [String.append_assoc, moved]

/-- A declaration in front of its bracket and behind it. -/
theorem text_eq (output : ColorOutput) :
    output.text = ("layout (location = " ++ toString output.location) ++ ")" ++
      ((if output.isFetched then " inout" else " out") ++
        (" vec4 out_FragColor" ++ toString output.location ++ ";")) := by
  have bracket : ") " ++ (if output.isFetched then "inout" else "out") =
      ")" ++ (if output.isFetched then " inout" else " out") := by
    cases output.isFetched <;> rfl
  exact append_regroup bracket

/-- A text with one closing bracket is cut there in one way. -/
theorem cut_at_bracket {front back front' back' : String} (noFront : ')' ∉ front.toList)
    (noBack : ')' ∉ back.toList) (same : front ++ ")" ++ back = front' ++ ")" ++ back') :
    front = front' ∧ back = back' := by
  have toList_cut (front back : String) :
      (front ++ ")" ++ back).toList = front.toList ++ ')' :: back.toList := by
    simp
  have chars := congrArg String.toList same
  rw [toList_cut, toList_cut, List.append_cons_inj_of_notMem noFront noBack] at chars
  exact ⟨String.toList_inj.1 chars.1, String.toList_inj.1 chars.2.2⟩

/-- A number in decimal digits has no closing bracket. -/
theorem bracket_notMem_toString (n : Nat) : ')' ∉ (toString n).toList := by
  intro member
  rw [Nat.toString_eq_repr, Nat.toList_repr] at member
  have digit : ')'.isDigit = true :=
    Nat.isDigit_of_mem_toDigits (by decide) (by decide) member
  exact absurd digit (by decide)

/-- Different colour outputs have different declarations. -/
theorem text_injective : Function.Injective text := by
  intro left right same
  have front : ')' ∉ ("layout (location = " ++ toString left.location).toList := by
    rw [String.toList_append, List.mem_append, not_or]
    exact ⟨by decide, bracket_notMem_toString left.location⟩
  have back : ')' ∉ ((if left.isFetched then " inout" else " out") ++
      (" vec4 out_FragColor" ++ toString left.location ++ ";")).toList := by
    simp only [String.toList_append, List.mem_append, not_or]
    refine ⟨?_, ⟨by decide, bracket_notMem_toString left.location⟩, by decide⟩
    cases left.isFetched <;> decide
  rw [text_eq left, text_eq right] at same
  obtain ⟨sameFront, sameBack⟩ := cut_at_bracket front back same
  have location : left.location = right.location :=
    toString_injective ((String.append_right_inj _).1 sameFront)
  rw [location] at sameBack
  have direction := (String.append_left_inj _).1 sameBack
  have isFetched : left.isFetched = right.isFetched := by
    revert direction
    cases left.isFetched <;> cases right.isFetched <;> decide
  exact congrArg₂ ColorOutput.mk location isFetched

end ColorOutput

/-- Each colour output is declared once or not at all. -/
theorem count_text_resolveOutputs (written : List Slot) (fetched : List Nat)
    (output : ColorOutput) :
    ((resolveOutputs written fetched).map ColorOutput.text).count output.text =
      if output ∈ resolveOutputs written fetched then 1 else 0 := by
  have nodup : (resolveOutputs written fetched).Nodup :=
    List.Nodup.of_map _ resolution_resolveLocations.nodup
  rw [List.count_map_of_injective _ _ ColorOutput.text_injective]
  exact nodup.count

/-- The declarations of the interface that are no variables are those of the colour outputs. -/
theorem Glsl.Program.count_interfaceLines {names : Renaming} {program : Glsl.Program}
    {text : String} (filled : text ≠ "")
    (noVariable : ∀ var ∈ program.declared, var.text names ≠ text) :
    ((program.interfaceLines names).map Line.text).count text =
      (program.outputs.map ColorOutput.text).count text := by
  have noneDeclared : (program.declared.map fun var => var.text names).count text = 0 := by
    refine List.count_eq_zero.2 fun member => ?_
    obtain ⟨var, listed, same⟩ := List.mem_map.1 member
    exact noVariable var listed same
  have texts : (program.declared.map (fun var : InterfaceVariable => Line.mk 0 (var.text names))
      ++ program.outputs.map fun output => Line.mk 0 output.text).map Line.text =
        (program.declared.map fun var => var.text names) ++
          program.outputs.map ColorOutput.text := by
    simp [Function.comp_def]
  unfold interfaceLines spaced
  split
  · rename_i empty
    rw [List.isEmpty_iff] at empty
    rw [empty] at texts
    have counts := congrArg (List.count text) texts
    rw [List.count_append, noneDeclared, Nat.zero_add] at counts
    exact counts
  · rw [List.map_append, texts, List.count_append, List.count_append, noneDeclared, Nat.zero_add]
    simp [Line.blank, filled.symm]

/-! ## Which colour outputs are written and read -/

/-- The semantics by which an entry names colour outputs: those of the fields it returns, or its
own. -/
def Context.outputSemantics (c : Context) : List String :=
  match c.interface.output with
  | some struct => struct.fields.filterMap Field.semantic
  | none => c.entry.semantic.toList

/-- A colour output that the entry of a context names. -/
def Context.Writes (c : Context) (n : Nat) : Prop :=
  ∃ semantic ∈ c.outputSemantics, ∃ slot, Slot.ofSemantic? semantic = some slot ∧ slot.index = n

/-- The arguments of a read from the given colour output. -/
def ReadsOutput (n : Nat) (arguments : List Expr) : Prop :=
  ∃ ty, arguments = [.literal (.int n) ty] ∨ arguments = [.literal (.uint n) ty]

/-- The arguments of a read name one colour output at most. -/
theorem ReadsOutput.unique {m n : Nat} {arguments : List Expr} (first : ReadsOutput m arguments)
    (second : ReadsOutput n arguments) : m = n := by
  obtain ⟨ty, rfl | rfl⟩ := first <;> obtain ⟨ty', same | same⟩ := second <;>
    simp at same <;> omega

/-- A colour output that a shader reads somewhere. -/
def Shader.Fetches (shader : Shader) (n : Nat) : Prop :=
  ∃ arguments parameters ty, .call fetchCallee arguments parameters ty ∈ shader.walk ∧
    ReadsOutput n arguments

/-- The slots that are written have the numbers that the semantics name. -/
theorem Context.mem_slots {c : Context} {n : Nat} :
    n ∈ (c.interface.slots c.entry).map Slot.index ↔ c.Writes n := by
  simp only [Writes, outputSemantics, Interface.slots]
  cases c.interface.output with
  | none =>
    cases c.entry.semantic <;> simp
  | some struct =>
    simp only [List.mem_map, List.mem_filterMap, Field.slot?, Option.bind_eq_some_iff]
    constructor
    · rintro ⟨slot, ⟨field, listed, semantic, named, found⟩, rfl⟩
      exact ⟨semantic, ⟨field, listed, named⟩, slot, found, rfl⟩
    · rintro ⟨semantic, ⟨field, listed, named⟩, slot, found, rfl⟩
      exact ⟨slot, ⟨field, listed, semantic, named, found⟩, rfl⟩

/-- An integer is a slot exactly when it is the number of that slot. -/
theorem slotOfInt?_eq_some_iff {value : Int} {slot : Fin slotCount} :
    slotOfInt? value = some slot ↔ value = slot.val := by
  have bound := slot.isLt
  unfold slotOfInt?
  split
  · rename_i within
    rw [Option.some.injEq, Fin.ext_iff]
    change value.toNat = slot.val ↔ value = slot.val
    omega
  · rename_i outside
    constructor
    · intro impossible
      cases impossible
    · intro same
      omega

/-- A read names a colour output exactly by a single literal with its number. -/
theorem fetchTarget_eq_ok_iff {arguments : List Expr} {slot : Fin slotCount} :
    fetchTarget arguments = .ok slot ↔ ReadsOutput slot.val arguments := by
  constructor
  · intro target
    unfold fetchTarget at target
    dsimp only at target
    split at target
    · rename_i value ty
      cases found : slotOfInt? value with
      | none => simp [found] at target
      | some other =>
        obtain rfl : other = slot := by simpa [found] using target
        exact ⟨ty, Or.inl (by rw [slotOfInt?_eq_some_iff.1 found])⟩
    · rename_i value ty
      cases found : slotOfInt? value with
      | none => simp [found] at target
      | some other =>
        obtain rfl : other = slot := by simpa [found] using target
        exact ⟨ty, Or.inr (by rw [Int.ofNat.inj (slotOfInt?_eq_some_iff.1 found)])⟩
    · cases target
    · cases target
  · have found : slotOfInt? slot.val = some slot := slotOfInt?_eq_some_iff.2 rfl
    rintro ⟨ty, rfl | rfl⟩
    · unfold fetchTarget
      dsimp only
      rw [found]
    · unfold fetchTarget
      dsimp only
      rw [found]

namespace Shader

variable {shader : Shader}

/-- The calls of a shader are the walked expressions that are calls. -/
theorem mem_calls {callee : String} {call : Call} :
    call ∈ shader.calls callee ↔
      call.callee = callee ∧
        ∃ ty, .call call.callee call.arguments call.parameters ty ∈ shader.walk := by
  constructor
  · intro listed
    obtain ⟨e, walked, found⟩ := List.mem_filterMap.1 listed
    cases e with
    | call name arguments parameters ty =>
      simp only [Expr.call?, Option.filter_some, Option.ite_none_right_eq_some, beq_iff_eq,
        Option.some.injEq] at found
      obtain ⟨named, rfl⟩ := found
      exact ⟨named, ty, walked⟩
    | _ => cases found
  · rintro ⟨rfl, ty, walked⟩
    exact List.mem_filterMap.2 ⟨_, walked, by simp [Expr.call?]⟩

/-- The reads of a shader without faults all name a colour output. -/
theorem fetchTarget_of_fetchFaults (faultless : shader.fetchFaults = []) {arguments : List Expr}
    {parameters : List Ty} {ty : Ty}
    (walked : .call fetchCallee arguments parameters ty ∈ shader.walk) :
    ∃ slot, fetchTarget arguments = .ok slot := by
  have called : ⟨fetchCallee, arguments, parameters⟩ ∈ shader.calls fetchCallee :=
    mem_calls.2 ⟨rfl, ty, walked⟩
  cases target : fetchTarget arguments with
  | ok slot => exact ⟨slot, rfl⟩
  | error cause =>
    have faulty : .fetch cause ∈ shader.fetchFaults :=
      List.mem_filterMap.2 ⟨_, called, by simp only [target]⟩
    rw [faultless] at faulty
    cases faulty

/-- In a shader without faults the outputs that are read are those that some read names. -/
theorem mem_fetchedSlots (faultless : shader.fetchFaults = []) {n : Nat} :
    n ∈ shader.fetchedSlots ↔ shader.Fetches n := by
  constructor
  · intro fetched
    obtain ⟨call, called, found⟩ := List.mem_filterMap.1 fetched
    obtain ⟨named, ty, walked⟩ := mem_calls.1 called
    rw [named] at walked
    cases target : fetchTarget call.arguments with
    | error cause => simp only [target, reduceCtorEq] at found
    | ok slot =>
      simp only [target, Option.some.injEq] at found
      exact ⟨call.arguments, call.parameters, ty, walked,
        found ▸ fetchTarget_eq_ok_iff.1 target⟩
  · rintro ⟨arguments, parameters, ty, walked, reads⟩
    obtain ⟨slot, target⟩ := fetchTarget_of_fetchFaults faultless walked
    have called : ⟨fetchCallee, arguments, parameters⟩ ∈ shader.calls fetchCallee :=
      mem_calls.2 ⟨rfl, ty, walked⟩
    have same : slot.val = n := (fetchTarget_eq_ok_iff.1 target).unique reads
    exact List.mem_filterMap.2 ⟨_, called, by simp only [target, same]⟩

end Shader

/-! ## The variables of colour outputs -/

/-- A semantic that names a colour output names no built-in variable. -/
theorem builtIn?_eq_none_of_slot {semantic : String} {slot : Slot}
    (target : Slot.ofSemantic? semantic = some slot) : builtIn? semantic = none := by
  have start : (foldCase semantic).take Slot.word.length = foldCase Slot.word := by
    unfold Slot.ofSemantic? at target
    dsimp only at target
    split at target
    · rename_i head
      rw [← head, foldCase, List.map_take]
    · cases target
  have apart : ∀ entry ∈ builtInSemantics,
      (foldCase entry.1).take Slot.word.length ≠ foldCase Slot.word := by
    decide
  cases named : builtIn? semantic with
  | none => rfl
  | some variableName =>
    obtain ⟨entry, found, -⟩ := Option.map_eq_some_iff.1 named
    have same : foldCase entry.1 = foldCase semantic :=
      (alike_iff _ _).1 (by simpa using List.find?_some found)
    exact absurd (same ▸ start) (apart entry (List.mem_of_find?_eq_some found))

/-- The field of a returned structure that names a colour output is the variable of that
output. -/
theorem Context.member_eq_color {c : Context} {object : Ty} {field : String} {term : Glsl.Term}
    {struct : Struct} {declared : Field} {slot : Slot}
    (role : c.interface.roleOf object = .output) (returned : c.interface.output = some struct)
    (selected : struct.field? field = some declared) (target : declared.slot? = some slot) :
    c.member object field term =
      .named (c.colorName slot) declared.ty.base.narrowing := by
  obtain ⟨semantic, named, found⟩ := Option.bind_eq_some_iff.1 target
  have plain : declared.semantic.bind builtIn? = none := by
    rw [named, Option.bind_some, builtIn?_eq_none_of_slot found]
  have binding : declared.binding? c.profile.stage .output = some (.color slot) := by
    simp only [Field.binding?, Field.outputBinding, plain, target]
  have bound : c.stageField? object field = some (c.boundField declared (.color slot)) := by
    refine stageField?_eq_some_iff.2 ⟨struct, declared, .color slot, ?_, selected, ?_, rfl⟩
    · rw [role]
      exact returned
    · rw [role]
      exact binding
  rw [member, bound]
  rfl

/-- A structure names no output but the first exactly when it has a single colour output. -/
theorem Struct.hasFurtherTarget_eq_false_iff {struct : Struct} :
    struct.hasFurtherTarget = false ↔
      ∀ field ∈ struct.fields, ∀ slot, field.slot? = some slot → slot.index = 0 := by
  simp only [hasFurtherTarget, List.any_eq_false, Field.isFurtherTarget]
  refine forall₂_congr fun field listed => ?_
  cases field.slot? <;> simp

/-- A fragment entry that returns a structure has several colour outputs exactly when a field of it
names one that is not the first. -/
theorem Context.contains_multipleTargets {shader : Shader} {profile : Profile} {entry : Function}
    {struct : Struct} (fragment : profile.isFragment = true)
    (returned : (Interface.ofEntry shader entry).output = some struct) :
    (ofEntry shader profile entry).features.contains .multipleTargets =
      struct.hasFurtherTarget := by
  have shows : .multipleTargets ∈ (ofEntry shader profile entry).features ↔
      struct.hasFurtherTarget = true := by
    rw [ofEntry, Shader.mem_features]
    simp [Feature.shows, Feature.words, fragment, returned]
  rw [Bool.eq_iff_iff, List.contains_iff_mem, shows]

/-- In a modern fragment text the variable of a slot has the number of the slot, whether there are
several colour outputs or only the first. -/
theorem Context.text_colorName {shader : Shader} {profile : Profile} {entry : Function}
    (fragment : profile.isFragment = true) (modern : profile.generation = .modern)
    {struct : Struct} {declared : Field} {slot : Slot}
    (returned : (Interface.ofEntry shader entry).output = some struct)
    (listed : declared ∈ struct.fields) (target : declared.slot? = some slot) (names : Renaming) :
    ((ofEntry shader profile entry).colorName slot).text names =
      "out_FragColor" ++ toString slot.index := by
  have generation : (ofEntry shader profile entry).profile.generation = .modern := modern
  rw [colorName, generation, contains_multipleTargets fragment returned]
  cases further : struct.hasFurtherTarget with
  | true => rfl
  | false =>
    -- With a single colour output every slot is the first.
    rw [Struct.hasFurtherTarget_eq_false_iff.1 further declared listed slot target]
    rfl

/-- The variables of a modern fragment interface are taken in. -/
theorem Interface.qualifier_declared {interface : Interface} {profile : Profile}
    (fragment : profile.stage = .fragment) (modern : profile.generation = .modern) :
    ∀ var ∈ interface.declared profile, var.qualifier = .input := by
  have taken : profile.inputQualifier = .input := by
    simp [Profile.inputQualifier, modern]
  intro var listed
  simp only [declared, fragment, List.mem_flatMap, List.mem_filterMap] at listed
  obtain ⟨struct, -, field, -, made⟩ := listed
  unfold Field.inputVariable? at made
  split at made
  · obtain rfl := Option.some.inj made
    exact taken
  · obtain rfl := Option.some.inj made
    exact taken
  · cases made

/-- What is appended to a text that has a first character does not change that character. -/
theorem head?_append {front back : String} {ch : Char} (begins : front.toList.head? = some ch) :
    (front ++ back).toList.head? = some ch := by
  rw [String.toList_append, List.head?_append, begins, Option.some_or]

/-- The declaration of a colour output starts with the letter of `layout`. -/
theorem ColorOutput.head?_text (output : ColorOutput) : output.text.toList.head? = some 'l' :=
  head?_append (head?_append (head?_append (head?_append (head?_append (head?_append rfl)))))

/-- The declaration of a variable that is taken in is no declaration of a colour output. -/
theorem InterfaceVariable.text_ne_color {var : InterfaceVariable} (taken : var.qualifier = .input)
    (names : Renaming) (output : ColorOutput) : var.text names ≠ output.text := by
  have qualifier : var.qualifier.text.toList.head? = some 'i' := by
    rw [taken]
    rfl
  have start : (var.text names).toList.head? = some 'i' :=
    head?_append (head?_append (head?_append (head?_append (head?_append
      (head?_append qualifier)))))
  intro same
  rw [same, output.head?_text] at start
  exact absurd start (by decide)

/-! ## The whole interface -/

/-- Colour outputs are declared in modern fragment texts. -/
theorem Context.declaresOutputs_iff {c : Context} :
    c.declaresOutputs = true ↔
      c.profile.stage = .fragment ∧ c.profile.generation = .modern := by
  cases stage : c.profile.stage <;> cases generation : c.profile.generation <;>
    simp [declaresOutputs, Profile.isFragment, Profile.isLegacy, stage, generation]

section Interface

variable {c : Context} (fragment : c.profile.stage = .fragment)
  (modern : c.profile.generation = .modern)

include fragment modern

/-- The outputs of a program are resolved from what the entry writes and what the shader reads. -/
theorem Context.outputs_eq : c.program.outputs =
    resolveOutputs (c.interface.slots c.entry) c.shader.fetchedSlots := by
  rw [program, if_pos (declaresOutputs_iff.2 ⟨fragment, modern⟩)]

/-- A program without faults has none in its reads of colour outputs. -/
theorem Context.fetchFaults_eq_nil (faultless : c.program.faults = []) :
    c.shader.fetchFaults = [] := by
  have outputFaults : c.program.outputFaults = c.shader.fetchFaults :=
    if_pos (declaresOutputs_iff.2 ⟨fragment, modern⟩)
  simp only [Glsl.Program.faults, List.append_eq_nil_iff] at faultless
  rw [← outputFaults]
  exact faultless.1.1.1

/-- The declared colour outputs are those written or read, for both directions where read. -/
theorem Context.mem_outputs (faultless : c.shader.fetchFaults = []) {output : ColorOutput} :
    output ∈ c.program.outputs ↔
      (c.Writes output.location ∨ c.shader.Fetches output.location) ∧
        (output.isFetched = true ↔ c.shader.Fetches output.location) := by
  rw [outputs_eq fragment modern, resolveOutputs, resolution_resolveLocations.mem_iff,
    mem_slots, Shader.mem_fetchedSlots faultless]

/-- A colour output is declared once in the interface, or not at all. -/
theorem Context.count_declaration (names : Renaming) (output : ColorOutput) :
    ((c.program.interfaceLines names).map Line.text).count output.text =
      if output ∈ c.program.outputs then 1 else 0 := by
  have filled : output.text ≠ "" := by
    intro empty
    have start := output.head?_text
    rw [empty] at start
    cases start
  have noVariable : ∀ var ∈ c.program.declared, var.text names ≠ output.text :=
    fun var listed => InterfaceVariable.text_ne_color
      (Interface.qualifier_declared fragment modern var listed) names output
  rw [Glsl.Program.count_interfaceLines filled noVariable, outputs_eq fragment modern]
  exact count_text_resolveOutputs _ _ output

end Interface

/-- A field of the returned structure writes the colour output that it names. -/
theorem Context.writes_of_slot {c : Context} {struct : Struct} {declared : Field} {slot : Slot}
    (returned : c.interface.output = some struct) (member : declared ∈ struct.fields)
    (target : declared.slot? = some slot) : c.Writes slot.index := by
  refine mem_slots.1 (List.mem_map_of_mem ?_)
  rw [Interface.slots, returned]
  exact List.mem_filterMap.2 ⟨declared, member, target⟩

/-- The numbers that are written or read are those of colour outputs. -/
theorem Context.lt_slotCount {c : Context} (faultless : c.shader.fetchFaults = []) {n : Nat}
    (used : c.Writes n ∨ c.shader.Fetches n) : n < slotCount := by
  rcases used with ⟨semantic, -, slot, -, rfl⟩ | ⟨arguments, parameters, ty, walked, reads⟩
  · exact slot.index_lt
  · obtain ⟨slot, target⟩ := Shader.fetchTarget_of_fetchFaults faultless walked
    have same : slot.val = n := (fetchTarget_eq_ok_iff.1 target).unique reads
    exact same ▸ slot.isLt

/-- A rendered read of a colour output is the variable of that output. -/
theorem Context.call_eq_color {c : Context} (modern : c.profile.generation = .modern)
    {arguments : List Expr} {slot : Fin slotCount} (target : fetchTarget arguments = .ok slot)
    (terms : List Glsl.Term) :
    c.call fetchCallee arguments terms = .named (.color .modern true slot) "" := by
  have noLegacy : c.profile.isLegacy = false := by simp [Profile.isLegacy, modern]
  simp only [call, if_true, target, noLegacy, Bool.false_eq_true, if_false]

/-- No type is named like a colour output. -/
theorem Ty.glslName_ne_color (ty : Ty) (generation : Generation) (several : Bool) (slot : Nat) :
    .color generation several slot ≠ ty.glslName := by
  rcases ty.glslName_eq with ⟨word, named⟩ | ⟨name, named⟩ <;> simp [named]

/-- No callee is written as a colour output. -/
theorem calleeName_ne_color (profile : Profile) (callee : String) (generation : Generation)
    (several : Bool) (slot : Nat) :
    .color generation several slot ≠ calleeName profile callee := by
  unfold calleeName
  split
  · rename_i intrinsic _
    cases intrinsic <;> simp [Intrinsic.name]
  · simp

/-- A field is bound to a colour output only in the returned structure. -/
theorem Field.binding?_eq_color {stage : Stage} {role : Role} {field : Field} {slot : Slot}
    (binds : field.binding? stage role = some (.color slot)) :
    role = .output ∧ field.slot? = some slot := by
  unfold binding? at binds
  split at binds
  · cases binds
  · cases binds
  · cases binds
  · refine ⟨rfl, ?_⟩
    have output := Option.some.inj binds
    unfold outputBinding at output
    split at output
    · cases output
    · split at output
      · rename_i found
        rw [found, Binding.color.inj output]
      · cases output

/-- An expression that writes the variable of a colour output selects a returned field that names
the output, or reads it. -/
theorem Expr.Writes.color {c : Context} {e : Expr} {name : Glsl.Name} (writes : e.Writes c name)
    {generation : Generation} {several : Bool} {n : Nat}
    (isColor : .color generation several n = name) :
    (∃ struct declared slot, c.interface.output = some struct ∧ declared ∈ struct.fields ∧
      declared.slot? = some slot ∧ name = c.colorName slot) ∨
    ∃ arguments parameters ty slot, e = .call fetchCallee arguments parameters ty ∧
      fetchTarget arguments = .ok slot ∧ name = .color .modern true slot := by
  cases writes with
  | @bound object field ty struct declared binding _ plays selected binds own =>
    cases binding with
    | color slot =>
      obtain ⟨role, target⟩ := Field.binding?_eq_color binds
      rw [role] at plays
      obtain rfl := List.mem_singleton.1 own
      exact Or.inl ⟨struct, declared, slot, plays, List.mem_of_find?_eq_some selected, target, rfl⟩
    | builtIn variableName =>
      obtain rfl := List.mem_singleton.1 own
      cases isColor
    | vertexInput isWidened =>
      obtain rfl := List.mem_singleton.1 own
      cases isColor
    | varying =>
      obtain rfl := List.mem_singleton.1 own
      cases isColor
  | read target => exact Or.inr ⟨_, _, _, _, rfl, target, rfl⟩
  | callee callee arguments parameters ty =>
    exact absurd isColor (calleeName_ne_color c.profile callee generation several n)
  | construct arguments ty => exact absurd isColor (ty.glslName_ne_color generation several n)
  | cast operand ty => exact absurd isColor (ty.glslName_ne_color generation several n)
  | identifier | texture | repeated | selected | saturation => cases isColor

/-- The origins of the colour variables in the code: the variable that the entry's own result is
stored in, returned fields that name a colour output, and reads. -/
theorem Context.origin_of_color {c : Context} (listed : c.EntryListed) {generation : Generation}
    {several : Bool} {n : Nat} (named : .color generation several n ∈ c.program.codeNames) :
    (∃ place, c.returnVariable? = some place ∧ .color generation several n ∈ place.names) ∨
    (∃ struct declared slot, c.interface.output = some struct ∧ declared ∈ struct.fields ∧
      declared.slot? = some slot ∧ .color generation several n = c.colorName slot) ∨
    ∃ arguments parameters ty, ∃ slot : Fin slotCount,
      .call fetchCallee arguments parameters ty ∈ c.shader.walk ∧
      fetchTarget arguments = .ok slot ∧
      Glsl.Name.color generation several n = .color .modern true slot := by
  rcases List.mem_append.1 named with head | inTerms
  · exact absurd (heads_program listed _ head) id
  rcases mem_names_terms inTerms with ⟨site, rendered, own⟩ | result
  · right
    rcases Site.writes_of_mem_head own with ⟨target, -, same⟩ | writes
    · exact absurd same (target.glslName_ne_color generation several n)
    rcases writes.color rfl with bound | ⟨arguments, parameters, ty, slot, isRead, target, same⟩
    · exact Or.inl bound
    · have walked := rendered_walked listed site rendered
      rw [isRead] at walked
      exact Or.inr ⟨arguments, parameters, ty, slot, walked, target, same⟩
  · exact Or.inl result

/-- The colour outputs that the code of a modern fragment text names are written or read, apart
from the one that the entry's own result is stored in. -/
theorem Context.color_mem_codeNames {shader : Shader} {profile : Profile} {entry : Function}
    (fragment : profile.isFragment = true) (modern : profile.generation = .modern)
    (listed : (ofEntry shader profile entry).EntryListed) (names : Renaming)
    {generation : Generation} {several : Bool} {n : Nat}
    (named : .color generation several n ∈ (ofEntry shader profile entry).program.codeNames) :
    (∃ place, (ofEntry shader profile entry).returnVariable? = some place ∧
      .color generation several n ∈ place.names) ∨
    ∃ m, ((ofEntry shader profile entry).Writes m ∨ shader.Fetches m) ∧
      (Glsl.Name.color generation several n).text names = "out_FragColor" ++ toString m := by
  rcases origin_of_color listed named with result |
      ⟨struct, declared, slot, returned, member, target, same⟩ |
      ⟨arguments, parameters, ty, slot, walked, target, same⟩
  · exact Or.inl result
  · refine Or.inr ⟨slot.index, Or.inl (writes_of_slot returned member target), ?_⟩
    rw [same]
    exact text_colorName fragment modern returned member target names
  · refine Or.inr ⟨slot, Or.inr ⟨_, _, _, walked, fetchTarget_eq_ok_iff.1 target⟩, ?_⟩
    rw [same]
    rfl

/-- In every modern fragment text the interface declares each colour output that the entry writes
or the shader reads exactly once, for both directions where it is read and else for writing, and
declares no other; their numbers are below eight. What a rendered access to a returned field with
such a semantic is written as, and what a rendered read is written as, is the variable of an
output that is declared; and so is every colour variable in the code but the one that the entry's
own result is stored in. -/
theorem color_outputs_declared {shader : Shader} {profile : Profile} {entryName : String}
    {output : Output} (generated : generate shader profile entryName = .ok output)
    (fragment : profile.stage = .fragment) (modern : profile.generation = .modern) :
    ∃ entry names, Generated shader profile entryName output entry names ∧
      let c := Context.ofEntry shader profile entry
      let lines := (c.program.interfaceLines names).map Line.text
      let declaration (direction : String) (n : Nat) : String :=
        "layout (location = " ++ toString n ++ ") " ++ direction ++ " vec4 out_FragColor"
          ++ toString n ++ ";"
      (∃ front back,
        output.text = Line.renderAll (front ++ c.program.interfaceLines names ++ back)) ∧
      (∀ n, shader.Fetches n →
        lines.count (declaration "inout" n) = 1 ∧ lines.count (declaration "out" n) = 0) ∧
      (∀ n, ¬shader.Fetches n → c.Writes n →
        lines.count (declaration "inout" n) = 0 ∧ lines.count (declaration "out" n) = 1) ∧
      (∀ n, ¬shader.Fetches n → ¬c.Writes n →
        lines.count (declaration "inout" n) = 0 ∧ lines.count (declaration "out" n) = 0) ∧
      (∀ n, c.Writes n ∨ shader.Fetches n → n < 8) ∧
      (∀ site ∈ c.rendered, ∀ object field ty struct declared slot,
        site.expr = .member object field ty → c.interface.roleOf object.ty = .output →
        c.interface.output = some struct → struct.field? field = some declared →
        declared.slot? = some slot →
        c.Writes slot.index ∧ ∃ name selection,
          site.lower c = castTo site.hint site.expr (.named name selection) ∧
          name.text names = "out_FragColor" ++ toString slot.index) ∧
      (∀ site ∈ c.rendered, ∀ arguments parameters ty,
        site.expr = .call fetchCallee arguments parameters ty →
        ∃ n name, ReadsOutput n arguments ∧ shader.Fetches n ∧
          site.lower c = castTo site.hint site.expr (.named name "") ∧
          name.text names = "out_FragColor" ++ toString n) ∧
      ∀ generation several slot, .color generation several slot ∈ c.program.codeNames →
        (∃ place, c.returnVariable? = some place ∧
          .color generation several slot ∈ place.names) ∨
        ∃ n, (c.Writes n ∨ shader.Fetches n) ∧
          (Glsl.Name.color generation several slot).text names =
            "out_FragColor" ++ toString n := by
  obtain ⟨entry, names, run⟩ := generate_eq_ok_iff.1 generated
  refine ⟨entry, names, run, ?_⟩
  intro c lines declaration
  have listed : c.EntryListed := Context.entryListed_ofEntry run.found
  have isFragment : profile.isFragment = true := by simp [Profile.isFragment, fragment]
  have faultless : shader.fetchFaults = [] :=
    Context.fetchFaults_eq_nil fragment modern run.faultless
  have count (n : Nat) (isFetched : Bool) :
      lines.count (ColorOutput.text ⟨n, isFetched⟩) =
        if ⟨n, isFetched⟩ ∈ c.program.outputs then 1 else 0 :=
    Context.count_declaration fragment modern names ⟨n, isFetched⟩
  have declared (n : Nat) (isFetched : Bool) :
      ⟨n, isFetched⟩ ∈ c.program.outputs ↔
        (c.Writes n ∨ shader.Fetches n) ∧ (isFetched = true ↔ shader.Fetches n) :=
    Context.mem_outputs fragment modern faultless
  have both (n : Nat) : declaration "inout" n = ColorOutput.text ⟨n, true⟩ := rfl
  have written (n : Nat) : declaration "out" n = ColorOutput.text ⟨n, false⟩ := rfl
  refine ⟨?_, ?_, ?_, ?_, fun n => Context.lt_slotCount faultless, ?_, ?_,
    fun generation several slot => Context.color_mem_codeNames isFragment modern listed names⟩
  · obtain ⟨front, back, split⟩ := Glsl.Program.interface_lines names c.program
    exact ⟨front, back, by rw [run.text, Glsl.Program.text, ← split]⟩
  · intro n fetched
    rw [both, written, count, count]
    simp [declared, fetched]
  · intro n unfetched writes
    rw [both, written, count, count]
    simp [declared, unfetched, writes]
  · intro n unfetched unwritten
    rw [both, written, count, count]
    simp [declared, unfetched, unwritten]
  · intro site rendered object field ty struct found slot isMember role returned selected target
    have member : found ∈ struct.fields := List.mem_of_find?_eq_some selected
    have text := Context.text_colorName isFragment modern returned member target names
    refine ⟨Context.writes_of_slot returned member target, c.colorName slot,
      found.ty.base.narrowing, ?_, text⟩
    obtain ⟨hint, e⟩ := site
    obtain rfl : e = .member object field ty := isMember
    rw [Site.lower, Expr.lower, Context.member_eq_color role returned selected target]
  · intro site rendered arguments parameters ty isCall
    have walked := Context.rendered_walked listed site rendered
    rw [isCall] at walked
    obtain ⟨slot, target⟩ := Shader.fetchTarget_of_fetchFaults faultless walked
    have reads := fetchTarget_eq_ok_iff.1 target
    refine ⟨slot, .color .modern true slot, reads, ⟨_, _, _, walked, reads⟩, ?_, rfl⟩
    obtain ⟨hint, e⟩ := site
    obtain rfl : e = .call fetchCallee arguments parameters ty := isCall
    rw [Site.lower, Expr.lower, Context.call_eq_color modern target]

/-- A fragment entry that returns the first and the third colour output and reads the third and
the sixth. -/
def blendedTargets : Shader :=
  let vec4 := Ty.ofBase (.vector (.float .full) .four)
  let targets : Ty := ⟨.userDefined, some "Targets", false, none, false, false⟩
  let read (n : Int) : Expr :=
    .ofCall fetchCallee [.literal (.int n) (Ty.ofBase .int)] vec4
  [.struct ⟨"Targets",
    [⟨"base", vec4, some "SV_Target", none⟩, ⟨"glow", vec4, some "SV_TARGET2", none⟩]⟩,
  .function ⟨"main", targets, none, []⟩
    [.evaluate (.ofAssign (.member (.identifier "o" targets) "base" vec4) (read 5)),
    .evaluate (.ofAssign (.member (.identifier "o" targets) "glow" vec4) (read 2)),
    .result (some (.identifier "o" targets))]]

/-- The first output is only written, the sixth only read, and the third both; each is declared on
one line. -/
theorem blendedTargets_declared :
    ∃ output, generate blendedTargets ⟨.desktopOther, .modern, .fragment⟩ "main" = .ok output ∧
      ∃ front inside back, output.text = Line.renderAll (front ++ inside ++ back) ∧
        let lines := inside.map Line.text
        lines.count "layout (location = 0) out vec4 out_FragColor0;" = 1 ∧
        lines.count "layout (location = 2) inout vec4 out_FragColor2;" = 1 ∧
        lines.count "layout (location = 5) inout vec4 out_FragColor5;" = 1 := by
  have generated :
      generate blendedTargets ⟨.desktopOther, .modern, .fragment⟩ "main" = .ok _ := rfl
  refine ⟨_, generated, ?_⟩
  obtain ⟨entry, names, run, ⟨front, back, text⟩, fetched, written, -, -, -, -, -⟩ :=
    color_outputs_declared generated rfl rfl
  obtain rfl := Option.some.inj (run.found.symm.trans rfl)
  have slots : blendedTargets.fetchedSlots = [5, 2] := rfl
  have reads (n : Nat) : n ∈ [5, 2] ↔ blendedTargets.Fetches n := by
    rw [← slots]
    exact Shader.mem_fetchedSlots rfl
  refine ⟨front, _, back, text, (written 0 ?_ ?_).2, (fetched 2 ?_).1, (fetched 5 ?_).1⟩
  · rw [← reads]
    decide
  · exact ⟨"SV_Target", List.mem_cons_self, .canonical, rfl, rfl⟩
  · exact (reads 2).1 (by decide)
  · exact (reads 5).1 (by decide)

end GlslText
