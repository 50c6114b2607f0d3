import GlslText.Proofs.Aliases
import GlslText.Proofs.Skeleton

/-!
# The text of an expression has one reading

The skeleton of an expression is said on the expression itself, with the casts that its
surroundings and its operators insert. The text of an expression whose names are identifiers and
whose literals have no sign is read back as that skeleton. So two expressions with the same text
group the same operands in the same order.
-/

namespace GlslText

/-! ## Words -/

/-- A name made of letters, digits and underscores, or of characters beyond ASCII. -/
structure IsIdentifier (word : String) : Prop where
  nonempty : word ≠ ""
  chars : ∀ ch ∈ word.toList, ch.isAlphanum = true ∨ ch = '_' ∨ 128 ≤ ch.toNat

instance (word : String) : Decidable (IsIdentifier word) :=
  have := List.decidableBAll (fun ch : Char => ch.isAlphanum = true ∨ ch = '_' ∨ 128 ≤ ch.toNat)
    word.toList
  decidable_of_iff (word ≠ "" ∧ ∀ ch ∈ word.toList, _)
    ⟨fun holds => ⟨holds.1, holds.2⟩, fun identifier => ⟨identifier.nonempty, identifier.chars⟩⟩

/-- An identifier is read as one word. -/
theorem IsIdentifier.isWord {word : String} (identifier : IsIdentifier word) : IsWord word where
  nonempty := fun empty => identifier.nonempty (String.toList_eq_nil_iff.1 empty)
  chars := by
    intro ch member
    rcases identifier.chars ch member with letter | rfl | beyond
    · simp [isWordChar, letter]
    · rfl
    · simp [isWordChar, beyond]

/-- A word goes on with characters of words. -/
theorem IsWord.append {front back : String} (isWord : IsWord front)
    (goesOn : ∀ ch ∈ back.toList, isWordChar ch = true) : IsWord (front ++ back) where
  nonempty := by
    rw [String.toList_append]
    exact fun empty => isWord.nonempty (List.append_eq_nil_iff.1 empty).1
  chars := by
    intro ch member
    rw [String.toList_append, List.mem_append] at member
    exact member.elim (isWord.chars ch) (goesOn ch)

/-- A digit is a character of words. -/
theorem isWordChar_of_isDigit {ch : Char} (digit : ch.isDigit = true) : isWordChar ch = true := by
  simp [isWordChar, Char.isAlphanum, digit]

/-- A number in decimal digits is a word. -/
theorem isWord_toString (n : Nat) : IsWord (toString n) where
  nonempty := by
    rw [Nat.toString_eq_repr, Nat.toList_repr]
    exact Nat.toDigits_ne_nil
  chars := by
    intro ch member
    rw [Nat.toString_eq_repr, Nat.toList_repr] at member
    exact isWordChar_of_isDigit (Nat.isDigit_of_mem_toDigits (by decide) (by decide) member)

/-- Digits that are filled up with zeros are characters of words. -/
theorem isWord_padded {places : Nat} (number : Nat) :
    ∀ ch ∈ (Decimal.padded places number).toList, isWordChar ch = true := by
  intro ch member
  simp only [Decimal.padded, String.toList_ofList, List.leftpad, List.mem_append,
    List.mem_replicate] at member
  rcases member with ⟨-, rfl⟩ | digit
  · rfl
  · exact isWordChar_of_isDigit (Nat.isDigit_of_mem_toDigits (by decide) (by decide) digit)

/-- Decimals are written with digits and a point. -/
theorem isWord_positional (d : Decimal) : IsWord d.positional := by
  unfold Decimal.positional
  split
  · have ending : IsWord ".0" := by decide
    exact (isWord_toString _).append ending.chars
  · have point : IsWord "." := by decide
    exact ((isWord_toString _).append point.chars).append (isWord_padded _)

/-! ## Names and literals that are words -/

/-- A literal that is finite and has no sign. A zero may have one too, and then its text has two
readings: see `negative_zero_read_twice`. -/
def Literal.IsPlain : Literal → Prop
  | float bits => ∃ mantissa exponent, Binary32.ofBits bits = .finite false mantissa exponent
  | int value => 0 ≤ value
  | uint _ => True
  | bool _ => True

/-- A plain literal is written as one word. -/
theorem Literal.IsPlain.isWord {value : Literal} (plain : value.IsPlain) : IsWord value.text := by
  cases value with
  | float bits =>
    obtain ⟨mantissa, exponent, finite⟩ := plain
    have written : (Binary32.ofBits bits).text =
        if mantissa = 0 then "0.0" else (Decimal.shortest mantissa exponent).positional := by
      rw [finite]
      exact String.empty_append
    rw [text, written]
    split
    · decide
    · exact isWord_positional _
  | int value =>
    obtain ⟨n, rfl⟩ := Int.eq_ofNat_of_zero_le plain
    exact isWord_toString n
  | uint value => exact isWord_toString value
  | bool value => cases value <;> decide

/-- A type whose name is an identifier, if the shader defines it. -/
def Ty.Named (ty : Ty) : Prop :=
  ty.base = .userDefined → ∃ name, ty.name = some name ∧ IsIdentifier name

namespace Renaming

variable {tokens : List String} {names : Renaming} (chosen : ofTokens tokens = .ok names)

include chosen

/-- The alias of a word that needs one is a word. -/
theorem isWord_aliasOf {base : String} (needed : base ∈ aliasBases) :
    IsWord (names.aliasOf base) := by
  obtain ⟨-, n, numbering⟩ := aliasOf_mem chosen needed
  have bases : ∀ base ∈ aliasBases, IsWord base := by decide +kernel
  rw [numbering]
  exact (bases base needed).append (isWord_toString n).chars

/-- The alias of a helper function is a word. -/
theorem isWord_helper (which : Helper) : IsWord (names.helper which) :=
  isWord_aliasOf chosen which.base_mem_aliasBases

/-- A name of the shader is written as one word. -/
theorem isWord_source {name : String} (identifier : IsIdentifier name) :
    IsWord (names.source name) := by
  by_cases reserved : name ∈ reservedWords
  · rw [source_of_reserved reserved]
    exact isWord_aliasOf chosen (List.mem_append_right _ reserved)
  · rw [source_of_not_reserved names name reserved]
    exact identifier.isWord

/-- A type that has a name is written as one word. -/
theorem isWord_glslName {ty : Ty} (named : ty.Named) : IsWord (ty.glslName.text names) := by
  unfold Ty.glslName
  by_cases user : ty.base = .userDefined
  · obtain ⟨name, present, identifier⟩ := named user
    simp only [user, present, if_true]
    exact isWord_source chosen identifier
  · rw [if_neg user]
    change IsWord ty.base.spelling
    unfold BaseType.spelling
    split <;> decide

/-- A callee is written as one word. -/
theorem isWord_calleeName (profile : Profile) {callee : String} (identifier : IsIdentifier callee) :
    IsWord ((calleeName profile callee).text names) := by
  unfold calleeName
  cases recognised : intrinsic? callee with
  | none => exact isWord_source chosen identifier
  | some intrinsic =>
    have table : ∀ entry ∈ intrinsics, ∀ word ∈ entry.2.words, IsWord word := by
      decide +kernel
    obtain ⟨entry, found, rfl⟩ := Option.map_eq_some_iff.1 recognised
    rcases entry.2.name_eq profile with ⟨word, possible, named⟩ | ⟨which, named⟩
    · simp only [named]
      exact table entry (List.mem_of_find?_eq_some found) word possible
    · simp only [named]
      exact isWord_helper chosen which

end Renaming

/-! ## Skeletons of expressions -/

/-- A skeleton in a constructor of the expected type where a cast is inserted. -/
def castSkeleton (names : Renaming) (hint : Option Ty) (e : Expr) (inner : Skeleton) : Skeleton :=
  match hint with
  | some target => if e.needsCast target then .apply (target.glslName.text names) [inner] else inner
  | none => inner

/-- The skeleton of a selection: a scalar is repeated by a helper function or stands for itself. -/
def memberSkeleton (names : Renaming) (object : Ty) (field : String) (inner : Skeleton) :
    Skeleton :=
  if object.base.isNumericScalar then
    match Helper.ofSwizzle? field.utf8ByteSize with
    | some helper => .apply (names.helper helper) [inner]
    | none => inner
  else
    .select inner (names.source field)

/-- The skeleton of a call. A product takes its factors in the opposite order, saturation is a
clamp, and a read of a colour output is a variable in the modern generation. -/
def callSkeleton (profile : Profile) (names : Renaming) (callee : String) (arguments : List Expr)
    (inner : List Skeleton) : Skeleton :=
  let plain := Skeleton.apply ((calleeName profile callee).text names) inner
  if callee = fetchCallee then
    match fetchTarget arguments with
    | .ok slot => if profile.isLegacy then plain else .leaf ("out_FragColor" ++ toString slot.val)
    | .error _ => plain
  else if alike callee "mul" then
    match inner with
    | [left, right] => .binary (.arithmetic .mul) right left
    | _ => plain
  else if alike callee "saturate" then
    match inner with
    | [value] => .apply "clamp" [value, .leaf "0.0", .leaf "1.0"]
    | _ => plain
  else
    plain

namespace Expr

mutual

/-- The skeleton of an expression under a hint. -/
def skeleton (c : Context) (names : Renaming) (hint : Option Ty) (e : Expr) : Skeleton :=
  castSkeleton names hint e <|
    match e with
    | .identifier name ty => .leaf ((c.identifier name ty).text names)
    | .literal value _ => .leaf value.text
    | .unary op operand ty =>
      .unary op (operand.skeleton c names (if op = .not then some ty else none))
    | .binary op left right ty =>
      .binary op (left.skeleton c names (op.leftHint ty)) (right.skeleton c names (op.rightHint ty))
    | .conditional condition whenTrue whenFalse ty =>
      .conditional (condition.skeleton c names (some boolTy)) (whenTrue.skeleton c names (some ty))
        (whenFalse.skeleton c names (some ty))
    | .member object field _ => memberSkeleton names object.ty field (object.skeleton c names none)
    | .index array position _ =>
      .index (array.skeleton c names none) (position.skeleton c names none)
    | .call callee arguments parameters _ =>
      callSkeleton c.profile names callee arguments (skeletonAll c names parameters arguments)
    | .construct arguments ty => .apply (ty.glslName.text names) (skeletonAll c names [] arguments)
    | .cast operand ty => .apply (ty.glslName.text names) [operand.skeleton c names none]

/-- The skeletons of arguments under the types of their parameters. -/
def skeletonAll (c : Context) (names : Renaming) (parameters : List Ty) :
    List Expr → List Skeleton
  | [] => []
  | e :: rest =>
    e.skeleton c names parameters.head? :: skeletonAll c names parameters.tail rest

end

/-- What an expression says by itself is legible: its names are identifiers, its types have names,
its literals no sign, and it selects no field of a stage structure. -/
def Legible (c : Context) : Expr → Prop
  | identifier name ty => IsIdentifier name ∧ ty.Named
  | literal value ty => value.IsPlain ∧ ty.Named
  | member object field ty =>
    IsIdentifier field ∧ c.stageField? object.ty field = none ∧ ty.Named
  | call callee _ parameters ty =>
    IsIdentifier callee ∧ (∀ parameter ∈ parameters, parameter.Named) ∧ ty.Named
  | e => e.ty.Named

end Expr

/-! ## Lowered expressions are read back -/

/-- A term that is read back as the given skeleton. -/
structure Glsl.Term.ReadsAs (names : Renaming) (term : Glsl.Term) (skeleton : Skeleton) :
    Prop where
  readable : term.Readable names
  same : term.skeleton names = skeleton

/-- Terms that are read back as the given skeletons. -/
structure Glsl.Term.ReadAllAs (names : Renaming) (terms : List Glsl.Term)
    (skeletons : List Skeleton) : Prop where
  readable : Glsl.Term.ReadableAll names terms
  same : Glsl.Term.skeletonAll names terms = skeletons

namespace Glsl.Term

variable {names : Renaming}

/-- A call is read back as the application of its callee to what its arguments are read as. -/
theorem ReadsAs.apply {callee : Glsl.Name} {terms : List Glsl.Term} {skeletons : List Skeleton}
    (isWord : IsWord (callee.text names)) (inner : ReadAllAs names terms skeletons) :
    (apply callee terms).ReadsAs names (.apply (callee.text names) skeletons) :=
  ⟨⟨isWord, inner.readable⟩, by rw [Term.skeleton, inner.same]⟩

/-- An empty list of arguments is read back as an empty list. -/
theorem ReadAllAs.nil : ReadAllAs names [] [] :=
  ⟨trivial, rfl⟩

/-- A further argument is read back in front of the others. -/
theorem ReadAllAs.cons {term : Glsl.Term} {terms : List Glsl.Term} {skeleton : Skeleton}
    {skeletons : List Skeleton} (first : term.ReadsAs names skeleton)
    (rest : ReadAllAs names terms skeletons) :
    ReadAllAs names (term :: terms) (skeleton :: skeletons) :=
  ⟨⟨first.readable, rest.readable⟩, by rw [skeletonAll, first.same, rest.same]⟩

/-- A name without a selection is read back as a leaf. -/
theorem ReadsAs.named {name : Glsl.Name} (isWord : IsWord (name.text names)) :
    (named name "").ReadsAs names (.leaf (name.text names)) := by
  have whole : name.text names ++ "" = name.text names := String.append_empty
  exact ⟨by rw [Readable, whole]; exact isWord, by rw [skeleton, whole]⟩

end Glsl.Term

section Lowered

variable {tokens : List String} {names : Renaming} {c : Context}
  (chosen : Renaming.ofTokens tokens = .ok names)

include chosen

/-- A cast that is inserted is read back as an application of its type. -/
theorem castTo_readsAs {hint : Option Ty} (hinted : ∀ ty, hint = some ty → ty.Named) (e : Expr)
    {term : Glsl.Term} {inner : Skeleton} (reads : term.ReadsAs names inner) :
    (castTo hint e term).ReadsAs names (castSkeleton names hint e inner) := by
  cases hint with
  | none => exact reads
  | some target =>
    simp only [castTo, castSkeleton]
    split
    · exact .apply (Renaming.isWord_glslName chosen (hinted target rfl)) (.cons reads .nil)
    · exact reads

/-- A sound identifier is read back as a leaf. -/
theorem identifier_readsAs {name : String} {ty : Ty} (isName : IsIdentifier name)
    (faultless : (c.identifier name ty).faults = []) :
    (c.identifier name ty).ReadsAs names (.leaf ((c.identifier name ty).text names)) := by
  have written {name : Glsl.Name} (isWord : IsWord (name.text names)) :
      (Glsl.Term.named name "").ReadsAs names (.leaf ((Glsl.Term.named name "").text names)) := by
    rw [Glsl.Term.text, String.append_empty]
    exact .named isWord
  have isWord : IsWord ((Glsl.Name.source name).text names) :=
    Renaming.isWord_source chosen isName
  have plain := written isWord
  unfold Context.identifier at faultless ⊢
  dsimp only at faultless ⊢
  split
  · split
    · exact plain
    · rename_i sampler _ found _
      split
      · rename_i unit _
        refine written ?_
        have stage : IsWord (c.profile.stage.word ++ "Texture") := by
          cases c.profile.stage <;> decide
        exact stage.append (isWord_toString unit).chars
      · rename_i fault unitless
        simp_all [Glsl.Term.faults]
  · exact plain

/-- A selection from what no variable stands for is read back as a selection, an application of a
helper function, or the scalar itself. -/
theorem member_readsAs {object : Ty} {field : String} {term : Glsl.Term} {inner : Skeleton}
    (isName : IsIdentifier field) (unbound : c.stageField? object field = none)
    (reads : term.ReadsAs names inner) :
    (c.member object field term).ReadsAs names (memberSkeleton names object field inner) := by
  unfold Context.member memberSkeleton
  rw [unbound]
  dsimp only
  by_cases scalar : object.base.isNumericScalar = true
  · rw [if_pos scalar, if_pos scalar]
    cases Helper.ofSwizzle? field.utf8ByteSize with
    | some helper =>
      have isWord : IsWord ((Glsl.Name.helper helper).text names) :=
        Renaming.isWord_helper chosen helper
      exact .apply isWord (.cons reads .nil)
    | none => exact ⟨reads.readable, reads.same⟩
  · rw [if_neg scalar, if_neg scalar]
    refine ⟨⟨reads.readable, Renaming.isWord_source chosen isName⟩, ?_⟩
    rw [Glsl.Term.skeleton, reads.same, Glsl.Name.text]

/-- A call is read back as its own skeleton, given that its arguments are where they are
rendered. -/
theorem call_readsAs {callee : String} {arguments : List Expr} {terms : List Glsl.Term}
    {inner : List Skeleton} (isName : IsIdentifier callee)
    (faultless : (c.call callee arguments terms).faults = [])
    (reads : Glsl.Term.faultsAll terms = [] → Glsl.Term.ReadAllAs names terms inner) :
    (c.call callee arguments terms).ReadsAs names
      (callSkeleton c.profile names callee arguments inner) := by
  have called := Renaming.isWord_calleeName chosen c.profile isName
  have form := c.callForm_call callee arguments terms
  generalize c.call callee arguments terms = whole at faultless form ⊢
  cases form with
  | ordinary noRead noProduct noSaturation =>
    have own : callSkeleton c.profile names callee arguments inner =
        .apply ((calleeName c.profile callee).text names) inner := by
      simp only [callSkeleton, noRead, noProduct, noSaturation, Bool.false_eq_true, if_false]
    rw [own]
    exact .apply called (reads faultless)
  | legacyRead slot read target legacy =>
    have own : callSkeleton c.profile names callee arguments inner =
        .apply ((calleeName c.profile callee).text names) inner := by
      simp only [callSkeleton, read, target, legacy, if_true]
    rw [own]
    exact .apply called (reads faultless)
  | modernRead slot read target modern =>
    have own : callSkeleton c.profile names callee arguments inner =
        .leaf ("out_FragColor" ++ toString slot.val) := by
      simp only [callSkeleton, read, target, modern, if_true, Bool.false_eq_true, if_false]
    have isWord : IsWord ((Glsl.Name.color .modern true slot).text names) := by
      have start : IsWord "out_FragColor" := by decide
      exact start.append (isWord_toString _).chars
    rw [own]
    exact .named isWord
  | faultyRead cause read target => cases faultless
  | product left right noRead isProduct two =>
    have both := List.append_eq_nil_iff.1 faultless
    have args := reads (by simp [two, Glsl.Term.faultsAll, both.1, both.2])
    rw [two] at args
    have skeletons : inner = [left.skeleton names, right.skeleton names] := args.same.symm
    have own : callSkeleton c.profile names callee arguments inner =
        .binary (.arithmetic .mul) (right.skeleton names) (left.skeleton names) := by
      simp only [callSkeleton, noRead, isProduct, if_false, if_true, skeletons]
    rw [own]
    exact ⟨⟨args.readable.2.1, args.readable.1⟩, rfl⟩
  | faultyProduct noRead isProduct count => cases faultless
  | saturation value noRead noProduct isSaturation one =>
    have args := reads (by
      rw [one]
      simpa [Glsl.Term.faults, Glsl.Term.faultsAll, Glsl.Term.ofWord] using faultless)
    rw [one] at args
    have skeletons : inner = [value.skeleton names] := args.same.symm
    have own : callSkeleton c.profile names callee arguments inner =
        .apply "clamp" [value.skeleton names, .leaf "0.0", .leaf "1.0"] := by
      simp only [callSkeleton, noRead, noProduct, isSaturation, Bool.false_eq_true, if_false,
        if_true, skeletons]
    have bound {word : String} (isWord : IsWord word) :
        (Glsl.Term.ofWord word).ReadsAs names (.leaf word) :=
      .named isWord
    have clamp : IsWord ((Glsl.Name.word "clamp").text names) :=
      (by decide : IsWord "clamp")
    rw [own]
    refine .apply clamp ?_
    refine .cons ⟨args.readable.1, rfl⟩ (.cons (bound ?_) (.cons (bound ?_) .nil))
    · decide
    · decide
  | faultySaturation noRead noProduct isSaturation count => cases faultless

end Lowered

mutual

/-- A lowered expression is read back as its skeleton. -/
theorem Expr.readsAs_lower {tokens : List String} {names : Renaming} {c : Context}
    (chosen : Renaming.ofTokens tokens = .ok names) : (e : Expr) → (hint : Option Ty) →
    (∀ ty, hint = some ty → ty.Named) → (∀ part ∈ e.walk, part.Legible c) →
    (e.lower c hint).faults = [] →
    (e.lower c hint).ReadsAs names (e.skeleton c names hint)
  | .identifier name ty, hint, hinted, legible, faultless => by
    have own := legible _ (mem_walk_self _)
    rw [lower, faults_castTo] at faultless
    rw [lower, skeleton]
    exact castTo_readsAs chosen hinted _ (identifier_readsAs chosen own.1 faultless)
  | .literal value ty, hint, hinted, legible, _ => by
    have own := legible _ (mem_walk_self _)
    rw [lower, skeleton]
    exact castTo_readsAs chosen hinted _ ⟨own.1.isWord, rfl⟩
  | .unary op operand ty, hint, hinted, legible, faultless => by
    have own : ty.Named := legible _ (mem_walk_self _)
    rw [lower, faults_castTo] at faultless
    have inner := readsAs_lower chosen operand (if op = .not then some ty else none)
      (by intro expected; split <;> rintro ⟨⟩; exact own)
      (fun part walked => legible part (by simp [walk, walked])) faultless
    rw [lower, skeleton]
    refine castTo_readsAs chosen hinted _ ⟨inner.readable, ?_⟩
    rw [Glsl.Term.skeleton, inner.same]
  | .binary op left right ty, hint, hinted, legible, faultless => by
    have own : ty.Named := legible _ (mem_walk_self _)
    rw [lower, faults_castTo] at faultless
    have both := List.append_eq_nil_iff.1 faultless
    have first := readsAs_lower chosen left (op.leftHint ty)
      (fun expected hinted => BinaryOp.leftHint_eq hinted ▸ own)
      (fun part walked => legible part (by simp [walk, walked])) both.1
    have second := readsAs_lower chosen right (op.rightHint ty)
      (fun expected hinted => BinaryOp.rightHint_eq hinted ▸ own)
      (fun part walked => legible part (by simp [walk, walked])) both.2
    rw [lower, skeleton]
    refine castTo_readsAs chosen hinted _ ⟨⟨first.readable, second.readable⟩, ?_⟩
    rw [Glsl.Term.skeleton, first.same, second.same]
  | .conditional condition whenTrue whenFalse ty, hint, hinted, legible, faultless => by
    have own : ty.Named := legible _ (mem_walk_self _)
    have expected : ∀ expected, some ty = some expected → expected.Named := by
      rintro _ ⟨⟩
      exact own
    rw [lower, faults_castTo] at faultless
    have parts := List.append_eq_nil_iff.1 faultless
    have front := List.append_eq_nil_iff.1 parts.1
    have test := readsAs_lower chosen condition (some boolTy) (by rintro _ ⟨⟩ ⟨⟩)
      (fun part walked => legible part (by simp [walk, walked])) front.1
    have first := readsAs_lower chosen whenTrue (some ty) expected
      (fun part walked => legible part (by simp [walk, walked])) front.2
    have second := readsAs_lower chosen whenFalse (some ty) expected
      (fun part walked => legible part (by simp [walk, walked])) parts.2
    rw [lower, skeleton]
    refine castTo_readsAs chosen hinted _
      ⟨⟨test.readable, first.readable, second.readable⟩, ?_⟩
    rw [Glsl.Term.skeleton, test.same, first.same, second.same]
  | .member object field ty, hint, hinted, legible, faultless => by
    have own := legible _ (mem_walk_self _)
    rw [lower, faults_castTo] at faultless
    have objectFaultless : (object.lower c none).faults = [] := by
      have bare := own.2.1
      unfold Context.member at faultless
      rw [bare] at faultless
      dsimp only at faultless
      split at faultless
      · split at faultless
        · simpa [Glsl.Term.faults, Glsl.Term.faultsAll] using faultless
        · exact faultless
      · exact faultless
    have inner := readsAs_lower chosen object none (by rintro _ ⟨⟩)
      (fun part walked => legible part (by simp [walk, walked])) objectFaultless
    rw [lower, skeleton]
    exact castTo_readsAs chosen hinted _ (member_readsAs chosen own.1 own.2.1 inner)
  | .index array position ty, hint, hinted, legible, faultless => by
    rw [lower, faults_castTo] at faultless
    have both := List.append_eq_nil_iff.1 faultless
    have first := readsAs_lower chosen array none (by rintro _ ⟨⟩)
      (fun part walked => legible part (by simp [walk, walked])) both.1
    have second := readsAs_lower chosen position none (by rintro _ ⟨⟩)
      (fun part walked => legible part (by simp [walk, walked])) both.2
    rw [lower, skeleton]
    refine castTo_readsAs chosen hinted _ ⟨⟨first.readable, second.readable⟩, ?_⟩
    rw [Glsl.Term.skeleton, first.same, second.same]
  | .call callee arguments parameters ty, hint, hinted, legible, faultless => by
    have own := legible _ (mem_walk_self _)
    rw [lower, faults_castTo] at faultless
    have inner := readsAs_lowerAll chosen arguments parameters own.2.1
      (fun part walked => legible part (by simp [walk, walked]))
    rw [lower, skeleton]
    exact castTo_readsAs chosen hinted _ (call_readsAs chosen own.1 faultless inner)
  | .construct arguments ty, hint, hinted, legible, faultless => by
    have own : ty.Named := legible _ (mem_walk_self _)
    rw [lower, faults_castTo] at faultless
    have inner := readsAs_lowerAll chosen arguments [] (by simp)
      (fun part walked => legible part (by simp [walk, walked])) faultless
    rw [lower, skeleton]
    exact castTo_readsAs chosen hinted _ (.apply (Renaming.isWord_glslName chosen own) inner)
  | .cast operand ty, hint, hinted, legible, faultless => by
    have own : ty.Named := legible _ (mem_walk_self _)
    rw [lower, faults_castTo, Glsl.Term.faults, Glsl.Term.faultsAll] at faultless
    have inner := readsAs_lower chosen operand none (by rintro _ ⟨⟩)
      (fun part walked => legible part (by simp [walk, walked]))
      (List.append_eq_nil_iff.1 faultless).1
    rw [lower, skeleton]
    refine castTo_readsAs chosen hinted _ ?_
    exact .apply (Renaming.isWord_glslName chosen own) (.cons inner .nil)

/-- Lowered arguments are read back as their skeletons. -/
theorem Expr.readsAs_lowerAll {tokens : List String} {names : Renaming} {c : Context}
    (chosen : Renaming.ofTokens tokens = .ok names) : (arguments : List Expr) →
    (parameters : List Ty) → (∀ parameter ∈ parameters, parameter.Named) →
    (∀ part ∈ walkAll arguments, part.Legible c) →
    Glsl.Term.faultsAll (lowerAll c parameters arguments) = [] →
    Glsl.Term.ReadAllAs names (lowerAll c parameters arguments)
      (skeletonAll c names parameters arguments)
  | [], _, _, _, _ => .nil
  | e :: rest, parameters, named, legible, faultless => by
    rw [lowerAll, Glsl.Term.faultsAll] at faultless
    have both := List.append_eq_nil_iff.1 faultless
    have first := readsAs_lower chosen e parameters.head?
      (fun ty expected => named ty (List.mem_of_mem_head? expected))
      (fun part walked => legible part (by simp [walkAll, walked])) both.1
    have later := readsAs_lowerAll chosen rest parameters.tail
      (fun parameter member => named parameter (List.mem_of_mem_tail member))
      (fun part walked => legible part (by simp [walkAll, walked])) both.2
    rw [lowerAll, skeletonAll]
    exact .cons first later

end

namespace Site

/-- The skeleton of an expression under the type expected of it. -/
def skeleton (c : Context) (names : Renaming) (site : Site) : Skeleton :=
  site.expr.skeleton c names site.hint

/-- An expression that is legible throughout, under a type that has a name, and comes to no
fault. -/
structure Legible (c : Context) (site : Site) : Prop where
  legible : ∀ part ∈ site.expr.walk, part.Legible c
  hinted : ∀ ty, site.hint = some ty → ty.Named
  faultless : (site.lower c).faults = []

/-- The text of a legible site is read back as its skeleton. -/
theorem readSkeleton_text {tokens : List String} {names : Renaming} {c : Context} {site : Site}
    (chosen : Renaming.ofTokens tokens = .ok names) (legible : site.Legible c) :
    readSkeleton ((site.lower c).text names) = some (site.skeleton c names) := by
  have reads := Expr.readsAs_lower chosen site.expr site.hint legible.hinted legible.legible
    legible.faultless
  have whole := Glsl.Term.readSkeleton_text reads.readable
  rw [reads.same] at whole
  exact whole

end Site

/-- Two legible expressions with the same text have the same skeleton, whatever types are expected
of them: the text keeps grouping, the order of operands and the bounds of arguments. -/
theorem skeleton_eq_of_text_eq {tokens : List String} {names : Renaming} {c : Context}
    {left right : Site} (chosen : Renaming.ofTokens tokens = .ok names)
    (leftLegible : left.Legible c) (rightLegible : right.Legible c)
    (same : (left.lower c).text names = (right.lower c).text names) :
    left.skeleton c names = right.skeleton c names := by
  have readLeft := Site.readSkeleton_text chosen leftLegible
  have readRight := Site.readSkeleton_text chosen rightLegible
  rw [same, readRight] at readLeft
  exact (Option.some.inj readLeft).symm

/-- A product by its function. -/
def calledProduct : Site :=
  ⟨none, .ofCall "mul" [.identifier "a" (Ty.ofBase .float), .identifier "b" (Ty.ofBase .float)]
    (Ty.ofBase .float)⟩

/-- A product of selections from scalars, in the opposite order. -/
def selectedProduct : Site :=
  ⟨none, .binary (.arithmetic .mul)
    (.member (.identifier "b" (Ty.ofBase .float)) "x" (Ty.ofBase .float))
    (.member (.identifier "a" (Ty.ofBase .float)) "x" (Ty.ofBase .float)) (Ty.ofBase .float)⟩

/-- The aliases where no token is in the way. -/
def firstAliases : Renaming :=
  ⟨aliasBases.map fun base => (base, numbered base 0)⟩

/-- The product that is called and the product that is written out, in the opposite order, have one
text and one skeleton. -/
theorem products_read_alike :
    let c := Context.ofEntry [] ⟨.desktopOther, .modern, .fragment⟩
      ⟨⟨"main", Ty.ofBase .void, none, []⟩, []⟩
    Renaming.ofTokens [] = .ok firstAliases ∧ calledProduct.Legible c ∧
      selectedProduct.Legible c ∧
      (calledProduct.lower c).text firstAliases = (selectedProduct.lower c).text firstAliases ∧
      calledProduct.skeleton c firstAliases = selectedProduct.skeleton c firstAliases := by
  intro c
  have chosen : Renaming.ofTokens [] = .ok firstAliases := rfl
  have float : (Ty.ofBase .float).Named := fun user => by cases user
  have a : IsIdentifier "a" := by decide
  have b : IsIdentifier "b" := by decide
  have x : IsIdentifier "x" := by decide
  have mul : IsIdentifier "mul" := by decide
  have called : calledProduct.Legible c := by
    refine ⟨?_, by rintro _ ⟨⟩, by decide +kernel⟩
    simp [calledProduct, Expr.ofCall, Expr.walk, Expr.walkAll, Expr.Legible, Expr.ty, a, b, mul,
      float]
  have selected : selectedProduct.Legible c := by
    have unbound : c.stageField? (Ty.ofBase .float) "x" = none := rfl
    refine ⟨?_, by rintro _ ⟨⟩, by decide +kernel⟩
    simp [selectedProduct, Expr.walk, Expr.Legible, Expr.ty, a, b, x, float, unbound]
  have same : (calledProduct.lower c).text firstAliases =
      (selectedProduct.lower c).text firstAliases := by
    decide +kernel
  exact ⟨chosen, called, selected, same, skeleton_eq_of_text_eq chosen called selected same⟩

/-- The only component of the literal of negative zero, which has a sign. -/
def selectedNegativeZero : Site :=
  ⟨none, .member (.literal (.float 0x80000000) (Ty.ofBase .float)) "x" (Ty.ofBase .float)⟩

/-- The negation of the literal of zero. -/
def negatedZero : Site :=
  ⟨none, .unary .negative (.literal (.float 0) (Ty.ofBase .float)) (Ty.ofBase .float)⟩

/-- Literals with a sign are left out for a reason. The component of negative zero is written as
the negation of zero is, so that one text stands for a leaf and for an operator. Of the two only the
negation is legible. -/
theorem negative_zero_read_twice :
    let c := Context.ofEntry [] ⟨.desktopOther, .modern, .fragment⟩
      ⟨⟨"main", Ty.ofBase .void, none, []⟩, []⟩
    (selectedNegativeZero.lower c).text firstAliases = "(-0.0)" ∧
      (negatedZero.lower c).text firstAliases = "(-0.0)" ∧
      selectedNegativeZero.skeleton c firstAliases ≠ negatedZero.skeleton c firstAliases ∧
      negatedZero.Legible c ∧ ¬selectedNegativeZero.Legible c := by
  intro c
  have float : (Ty.ofBase .float).Named := fun user => by cases user
  have plain : (Literal.float 0).IsPlain := ⟨0, Binary32.leastExponent, by decide⟩
  refine ⟨by decide +kernel, by decide +kernel, by rintro ⟨⟩, ⟨?_, by rintro _ ⟨⟩, rfl⟩, ?_⟩
  · simp [negatedZero, Expr.walk, Expr.Legible, Expr.ty, plain, float]
  · intro legible
    have signed := legible.legible (.literal (.float 0x80000000) (Ty.ofBase .float))
      (by simp [selectedNegativeZero, Expr.walk])
    obtain ⟨⟨mantissa, exponent, unsigned⟩, -⟩ := signed
    cases unsigned

end GlslText
