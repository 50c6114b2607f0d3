import GlslText.Proofs.Capture

/-!
# How a text is put together

A generated text is woven from pieces: names, words of the language, literals, and the fixed lines
and declarations in front. Between two pieces stands a mark, a bracket or a line end, every bracket
that opens around woven text is closed behind it, and lines end outside round brackets only. What
holds of the pieces and is kept by these few ways of joining texts holds of every generated text.
-/

namespace GlslText

/-- The characters of names: letters, digits, the underscore and everything beyond ASCII. -/
def isNameChar (ch : Char) : Bool :=
  ch.isAlphanum || ch == '_' || decide (128 ≤ ch.toNat)

/-- A digit is a character of names. -/
theorem isNameChar_of_isDigit {ch : Char} (digit : ch.isDigit = true) : isNameChar ch = true := by
  simp [isNameChar, Char.isAlphanum, digit]

/-- The characters that are brackets. -/
def brackets : List Char :=
  ['(', ')', '[', ']', '\x7b', '\x7d']

/-- A mark: no character of names, no bracket and no line end. -/
def isMark (ch : Char) : Bool :=
  !isNameChar ch && !brackets.contains ch && ch != '\n'

/-- Every character of a word passes a test. -/
def AllChars (test : Char → Bool) (word : String) : Prop :=
  ∀ ch ∈ word.toList, test ch = true

instance (test : Char → Bool) (word : String) : Decidable (AllChars test word) :=
  decidable_of_iff (word.toList.all test = true) List.all_eq_true

/-- A test that all characters of two words pass is passed by both together. -/
theorem AllChars.append {test : Char → Bool} {front back : String} (first : AllChars test front)
    (second : AllChars test back) : AllChars test (front ++ back) := by
  unfold AllChars
  rw [String.toList_append]
  exact List.forall_mem_append.2 ⟨first, second⟩

/-- Where a piece stands: in round brackets or not. -/
inductive Place where
  | outside
  | enclosed
deriving DecidableEq, Repr

/-- The texts woven from pieces. -/
inductive Woven (Piece : Place → String → Prop) : Place → List Char → Prop where
  | empty {place : Place} : Woven Piece place []
  | piece {place : Place} {text : String} (listed : Piece place text) :
      Woven Piece place text.toList
  | mark {place : Place} {left right : List Char} (ch : Char) (isMark : isMark ch = true)
      (first : Woven Piece place left) (second : Woven Piece place right) :
      Woven Piece place (left ++ ch :: right)
  | round {place : Place} {before inner after : List Char} (front : Woven Piece place before)
      (between : Woven Piece .enclosed inner) (back : Woven Piece place after) :
      Woven Piece place (before ++ '(' :: (inner ++ ')' :: after))
  | square {place : Place} {before inner after : List Char} (front : Woven Piece place before)
      (between : Woven Piece place inner) (back : Woven Piece place after) :
      Woven Piece place (before ++ '[' :: (inner ++ ']' :: after))
  | curly {place : Place} {before inner after : List Char} (front : Woven Piece place before)
      (between : Woven Piece place inner) (back : Woven Piece place after) :
      Woven Piece place (before ++ '\x7b' :: (inner ++ '\x7d' :: after))
  | lineEnd {before after : List Char} (front : Woven Piece .outside before)
      (back : Woven Piece .outside after) : Woven Piece .outside (before ++ '\n' :: after)

/-- The operators on one operand are written with marks. -/
theorem UnaryOp.marks (op : UnaryOp) : AllChars isMark op.before ∧ AllChars isMark op.after := by
  cases op <;> decide

/-- The operators on two operands are written with marks. -/
theorem BinaryOp.marks (op : BinaryOp) : AllChars isMark op.sign := by
  cases op with
  | arithmetic op => cases op <;> decide
  | compare op => cases op <;> decide
  | update op => cases op <;> decide
  | _ => decide

variable {Piece : Place → String → Prop} {place : Place}

namespace Woven

/-- Marks may stand in front. -/
theorem marks {marks text : List Char} (areMarks : ∀ ch ∈ marks, isMark ch = true)
    (woven : Woven Piece place text) : Woven Piece place (marks ++ text) := by
  induction marks with
  | nil => exact woven
  | cons ch rest ih =>
    obtain ⟨first, later⟩ := List.forall_mem_cons.1 areMarks
    exact .mark ch first .empty (ih later)

/-- Marks may stand behind. -/
theorem append_marks {marks text : List Char} (areMarks : ∀ ch ∈ marks, isMark ch = true)
    (woven : Woven Piece place text) : Woven Piece place (text ++ marks) := by
  induction marks generalizing text with
  | nil => rwa [List.append_nil]
  | cons ch rest ih =>
    obtain ⟨first, later⟩ := List.forall_mem_cons.1 areMarks
    rw [List.append_cons]
    exact ih later (.mark ch first woven .empty)

/-- Blanks may stand in front of a woven text. -/
theorem blanks (count : Nat) {text : List Char} (woven : Woven Piece place text) :
    Woven Piece place (List.replicate count ' ' ++ text) :=
  woven.marks fun _ listed => List.eq_of_mem_replicate listed ▸ rfl

/-- An operator stands between blanks. -/
theorem operator (op : BinaryOp) {left right : List Char} (first : Woven Piece place left)
    (second : Woven Piece place right) :
    Woven Piece place (left ++ ' ' :: (op.sign.toList ++ ' ' :: right)) := by
  have sign : Woven Piece place (op.sign.toList ++ ' ' :: right) :=
    Woven.marks op.marks (.mark ' ' rfl .empty second)
  exact .mark ' ' rfl first sign

/-- A decimal has a point between its digits. -/
theorem decimal {whole part : String} (first : Piece place whole) (second : Piece place part) :
    Woven Piece place (whole ++ "." ++ part).toList := by
  simpa using Woven.mark '.' rfl (.piece first) (.piece second)

end Woven

/-- Numbers are written in decimal digits. -/
theorem allDigits_toString (n : Nat) : AllChars Char.isDigit (toString n) := by
  intro ch inside
  rw [Nat.toString_eq_repr, Nat.toList_repr] at inside
  exact Nat.isDigit_of_mem_toDigits (by decide) (by decide) inside

/-- Digits that are filled up with zeros are digits. -/
theorem allDigits_padded (places number : Nat) :
    AllChars Char.isDigit (Decimal.padded places number) := by
  intro ch inside
  simp only [Decimal.padded, String.toList_ofList, List.leftpad, List.mem_append,
    List.mem_replicate] at inside
  rcases inside with ⟨-, rfl⟩ | digit
  · rfl
  · exact Nat.isDigit_of_mem_toDigits (by decide) (by decide) digit

/-! ## Terms -/

/-- The selections that cut a variable down to its first components. -/
def narrowings : List String :=
  ["", ".x", ".xy", ".xyz"]

/-- A variable is cut down by one of the four narrowings. -/
theorem BaseType.narrowing_mem (base : BaseType) : base.narrowing ∈ narrowings := by
  cases base with
  | vector element width => cases width <;> simp [narrowing, narrowings]
  | _ => simp [narrowing, narrowings]

/-- The words of the language that are written whatever the shader, apart from names. -/
def fixedWords : List String :=
  ["x", "xy", "xyz", "const", "uniform", "lowp", "mediump", "define", "struct", "if", "else", "for",
    "return", "discard", "break", "continue", "void", "main", "properties", "location", "true",
    "false"]

/-- The words in the definitions of helper functions, apart from types and keywords. -/
def helperWords : List String :=
  ["s", "c", "t", "w", "any", "lessThan", "sin", "cos", "texture", "textureLod", "texture2D",
    "texture3DLod", "textureCube"]

/-- The words that are written in either stage: only a fragment is discarded. -/
def commonWords : List String :=
  fixedWords.erase "discard" ++ helperWords

/-- The words of either stage are fixed words or words of helper functions. -/
theorem commonWords_subset : commonWords ⊆ fixedWords ++ helperWords :=
  List.append_subset.2 ⟨List.subset_append_of_subset_left _ List.erase_subset,
    List.subset_append_right _ _⟩

/-- What holds of the types, of the functions and variables that the language has, and of the few
words that stand for numbers and for nothing holds of all its words. -/
theorem Glsl.LanguageWord.induct {Holds : String → Prop} {word : String}
    (fixed : LanguageWord word) (types : ∀ base : BaseType, Holds base.spelling)
    (functions : ∀ entry ∈ intrinsics, ∀ word ∈ entry.2.words, Holds word)
    (builtIns : ∀ entry ∈ builtInSemantics, Holds entry.2)
    (others : ∀ word ∈ ["clamp", "0.0", "1.0", ""], Holds word) : Holds word := by
  cases fixed with
  | type base => exact types base
  | @function called _ intrinsic profile listed named =>
    rcases intrinsic.name_eq profile with ⟨fixed, possible, same⟩ | ⟨which, same⟩
    · obtain rfl := Name.word.inj (same.symm.trans named)
      exact functions (called, intrinsic) listed _ possible
    · cases same.symm.trans named
  | builtIn listed => exact builtIns _ listed
  | clamp => exact others _ (by simp)
  | zero => exact others _ (by simp)
  | one => exact others _ (by simp)
  | nothing => exact others _ (by simp)

/-- The pieces include what is written whatever the shader and the stage. -/
structure Lexicon (Piece : Place → String → Prop) : Prop where
  word : ∀ text ∈ commonWords, ∀ place, Piece place text
  language : ∀ text, Glsl.LanguageWord text → ∀ place, Piece place text
  numeral : ∀ text, AllChars Char.isDigit text → ∀ place, Piece place text
  /-- The way a parameter is passed is written in the head of a function only. -/
  passing : ∀ text ∈ ["in", "inout", "out"], Piece .enclosed text

namespace Lexicon

variable (lexicon : Lexicon Piece)

include lexicon

/-- The words of either stage are woven. -/
theorem woven_word (place : Place) (word : String) (listed : word ∈ commonWords) :
    Woven Piece place word.toList :=
  .piece (lexicon.word word listed place)

/-- The words of the language are woven. -/
theorem woven_language (place : Place) {word : String} (fixed : Glsl.LanguageWord word) :
    Woven Piece place word.toList :=
  .piece (lexicon.language word fixed place)

/-- A word of the language in front of a text. -/
theorem keyword (word : String) (listed : word ∈ commonWords) {text : List Char}
    (woven : Woven Piece place text) : Woven Piece place (word.toList ++ ' ' :: text) :=
  .mark ' ' rfl (lexicon.woven_word place word listed) woven

/-- Natural numbers are woven. -/
theorem woven_natural (place : Place) (n : Nat) : Woven Piece place (toString n).toList :=
  .piece (lexicon.numeral _ (allDigits_toString n) place)

/-- Decimals are woven from digits and a point. -/
theorem woven_positional (place : Place) (d : Decimal) :
    Woven Piece place d.positional.toList := by
  have whole (n : Nat) : Piece place (toString n) :=
    lexicon.numeral _ (allDigits_toString n) place
  unfold Decimal.positional
  split
  · have zero : Piece place "0" := lexicon.numeral "0" (by decide) place
    simpa using Woven.decimal (whole _) zero
  · exact Woven.decimal (whole _) (lexicon.numeral _ (allDigits_padded _ _) place)

/-- Literals are woven from digits. What is no finite number is a quotient. -/
theorem woven_literal (place : Place) (value : Literal) : Woven Piece place value.text.toList := by
  have minus {text : String} {place : Place} (woven : Woven Piece place text.toList) :
      Woven Piece place ("-" ++ text).toList := by
    simpa using Woven.mark '-' rfl .empty woven
  have digit (word : String) (digits : AllChars Char.isDigit word) (place : Place) :
      Woven Piece place (word ++ "." ++ "0").toList :=
    .decimal (lexicon.numeral word digits place) (lexicon.numeral "0" (by decide) place)
  have zero := digit "0" (by decide)
  have one := digit "1" (by decide)
  have quotient {text : String} (woven : Woven Piece .enclosed text.toList) :
      Woven Piece place ("(" ++ text ++ " / 0.0)").toList := by
    simpa using Woven.round .empty
      (.mark ' ' rfl woven (.mark '/' rfl .empty (.mark ' ' rfl .empty (zero .enclosed)))) .empty
  cases value with
  | float bits =>
    rw [Literal.text]
    cases Binary32.ofBits bits with
    | nan => exact quotient (zero .enclosed)
    | infinite negative =>
      cases negative
      · exact quotient (one .enclosed)
      · exact quotient (minus (one .enclosed))
    | finite negative mantissa exponent =>
      have digits : Woven Piece place (if mantissa = 0 then "0.0" else
          (Decimal.shortest mantissa exponent).positional).toList := by
        split
        · exact zero place
        · exact lexicon.woven_positional place _
      cases negative
      · simpa [Binary32.text] using digits
      · exact minus digits
  | int value =>
    cases value with
    | ofNat n => exact lexicon.woven_natural place n
    | negSucc n => exact minus (lexicon.woven_natural place (n + 1))
  | uint n => exact lexicon.woven_natural place n
  | bool value => cases value <;> exact lexicon.woven_word place _ (by decide)

end Lexicon

namespace Glsl

/-- A name is a piece wherever it is written. -/
def Name.Spelled (Piece : Place → String → Prop) (names : Renaming) (name : Name) : Prop :=
  ∀ place, Piece place (name.text names)

namespace Term

mutual

/-- A term in which variables are cut down to their first components or not at all. -/
def Narrows : Term → Prop
  | literal _ => True
  | named _ selection => selection ∈ narrowings
  | apply _ arguments => NarrowsAll arguments
  | unary _ operand => operand.Narrows
  | binary _ left right => left.Narrows ∧ right.Narrows
  | conditional condition whenTrue whenFalse =>
    condition.Narrows ∧ whenTrue.Narrows ∧ whenFalse.Narrows
  | select object _ => object.Narrows
  | index array position => array.Narrows ∧ position.Narrows
  | group inner => inner.Narrows
  | product left right => left.Narrows ∧ right.Narrows
  | missing => True
  | faulty _ inner => inner.Narrows

/-- Terms of which each narrows. -/
def NarrowsAll : List Term → Prop
  | [] => True
  | term :: rest => term.Narrows ∧ NarrowsAll rest

end

/-- The text of a term is woven at any place. -/
def IsWoven (Piece : Place → String → Prop) (names : Renaming) (term : Term) : Prop :=
  ∀ place, Woven Piece place (term.text names).toList

end Term

end Glsl

namespace Glsl.Term

variable {names : Renaming}

/-- A variable with the components selected from it. -/
theorem woven_named (lexicon : Lexicon Piece) {name : Name} {selection : String}
    (spelled : name.Spelled Piece names) (narrows : selection ∈ narrowings) :
    (named name selection).IsWoven Piece names := by
  intro place
  have whole : Woven Piece place (name.text names).toList := .piece (spelled place)
  have component (word : String) (listed : word ∈ commonWords) :
      Woven Piece place ((name.text names).toList ++ '.' :: word.toList) :=
    .mark '.' rfl whole (lexicon.woven_word place word listed)
  simp only [narrowings, List.mem_cons, List.not_mem_nil, or_false] at narrows
  rcases narrows with rfl | rfl | rfl | rfl
  · simpa [text] using whole
  · simpa [text] using component "x" (by decide)
  · simpa [text] using component "xy" (by decide)
  · simpa [text] using component "xyz" (by decide)

/-- Further terms each follow a comma. -/
theorem woven_textRest {terms : List Term} (each : ∀ term ∈ terms, term.IsWoven Piece names)
    {front : List Char} (woven : Woven Piece place front) :
    Woven Piece place (front ++ (textRest names terms).toList) := by
  induction terms generalizing front with
  | nil => simpa [textRest] using woven
  | cons term rest ih =>
    obtain ⟨next, later⟩ := List.forall_mem_cons.1 each
    have joined : Woven Piece place (front ++ ',' :: ' ' :: (term.text names).toList) :=
      .mark ',' rfl woven (.mark ' ' rfl .empty (next place))
    simpa [textRest] using ih later joined

/-- A list of arguments is woven from the terms in it. -/
theorem woven_textList {terms : List Term} (each : ∀ term ∈ terms, term.IsWoven Piece names) :
    Woven Piece place (textList names terms).toList := by
  cases terms with
  | nil => exact .empty
  | cons term rest =>
    obtain ⟨first, later⟩ := List.forall_mem_cons.1 each
    simpa [textList] using woven_textRest later (first place)

mutual

/-- A term is woven from its names, its literals and the components it selects. -/
theorem woven_text (lexicon : Lexicon Piece) :
    (term : Term) → (∀ name ∈ term.names, name.Spelled Piece names) → term.Narrows →
      term.IsWoven Piece names
  | literal value, _, _ => fun place => lexicon.woven_literal place value
  | named name selection, spelled, narrows =>
    woven_named lexicon (spelled name List.mem_cons_self) narrows
  | apply callee arguments, spelled, narrows => by
    obtain ⟨called, inside⟩ := List.forall_mem_cons.1 spelled
    intro place
    have list : Woven Piece .enclosed (textList names arguments).toList :=
      woven_textList (woven_each lexicon arguments inside narrows)
    simpa [text] using (Woven.piece (called place)).round list .empty
  | unary op operand, spelled, narrows => by
    intro place
    obtain ⟨before, after⟩ := op.marks
    have inner := woven_text lexicon operand spelled narrows .enclosed
    simpa [text] using Woven.round .empty ((inner.append_marks after).marks before) .empty
  | binary op left right, spelled, ⟨narrowsLeft, narrowsRight⟩ => by
    obtain ⟨inLeft, inRight⟩ := List.forall_mem_append.1 spelled
    intro place
    have first := woven_text lexicon left inLeft narrowsLeft .enclosed
    have second := woven_text lexicon right inRight narrowsRight .enclosed
    simpa [text] using Woven.round .empty (.operator op first second) .empty
  | conditional condition whenTrue whenFalse, spelled, ⟨narrows, narrowsTrue, narrowsFalse⟩ => by
    obtain ⟨inFirst, inFalse⟩ := List.forall_mem_append.1 spelled
    obtain ⟨inCondition, inTrue⟩ := List.forall_mem_append.1 inFirst
    intro place
    have test := woven_text lexicon condition inCondition narrows .enclosed
    have chosen := woven_text lexicon whenTrue inTrue narrowsTrue .enclosed
    have other := woven_text lexicon whenFalse inFalse narrowsFalse .enclosed
    simpa [text] using Woven.round .empty
      (.round .empty test (.mark '?' rfl .empty
        (.round .empty chosen (.mark ':' rfl .empty (.round .empty other .empty))))) .empty
  | select object field, spelled, narrows => by
    obtain ⟨inObject, selected⟩ := List.forall_mem_append.1 spelled
    intro place
    have inner := woven_text lexicon object inObject narrows .enclosed
    have name : Woven Piece place (field.text names).toList :=
      .piece (selected field List.mem_cons_self place)
    simpa [text] using Woven.round .empty inner (.mark '.' rfl .empty name)
  | index array position, spelled, ⟨narrowsArray, narrowsPosition⟩ => by
    obtain ⟨inArray, inPosition⟩ := List.forall_mem_append.1 spelled
    intro place
    have indexed := woven_text lexicon array inArray narrowsArray place
    have inner := woven_text lexicon position inPosition narrowsPosition place
    simpa [text] using indexed.square inner .empty
  | group inner, spelled, narrows => by
    intro place
    have enclosed := woven_text lexicon inner spelled narrows .enclosed
    simpa [text] using Woven.round .empty enclosed .empty
  | product left right, spelled, ⟨narrowsLeft, narrowsRight⟩ => by
    obtain ⟨inLeft, inRight⟩ := List.forall_mem_append.1 spelled
    intro place
    have first := woven_text lexicon left inLeft narrowsLeft .enclosed
    have second := woven_text lexicon right inRight narrowsRight .enclosed
    simpa [text] using Woven.round .empty
      (.round .empty first (.mark ' ' rfl .empty (.mark '*' rfl .empty (.mark ' ' rfl .empty
        (.round .empty second .empty))))) .empty
  | missing, _, _ => fun place => .empty
  | faulty _ inner, spelled, narrows => woven_text lexicon inner spelled narrows

/-- Each of several terms is woven when their names are spelled and they narrow. -/
theorem woven_each (lexicon : Lexicon Piece) :
    (terms : List Term) → (∀ name ∈ namesAll terms, name.Spelled Piece names) → NarrowsAll terms →
      ∀ term ∈ terms, term.IsWoven Piece names
  | [], _, _ => List.forall_mem_nil _
  | term :: rest, spelled, ⟨narrows, narrowsRest⟩ => by
    obtain ⟨inTerm, inRest⟩ := List.forall_mem_append.1 spelled
    exact List.forall_mem_cons.2
      ⟨woven_text lexicon term inTerm narrows, woven_each lexicon rest inRest narrowsRest⟩

end

end Glsl.Term

/-! ## Lowered terms -/

namespace Context

/-- An identifier selects no components. -/
theorem narrows_identifier (c : Context) (name : String) (ty : Ty) :
    (c.identifier name ty).Narrows := by
  unfold identifier
  dsimp only
  split
  · split
    · exact List.mem_cons_self
    · split <;> exact List.mem_cons_self
  · exact List.mem_cons_self

/-- The variable of a bound field is cut down to the width of the field or not at all. -/
theorem narrows_boundField (c : Context) (field : Field) (binding : Binding) :
    (c.boundField field binding).Narrows := by
  cases binding with
  | builtIn variableName => exact List.mem_cons_self
  | vertexInput isWidened =>
    cases isWidened
    · exact List.mem_cons_self
    · exact field.ty.base.narrowing_mem
  | varying => exact List.mem_cons_self
  | color slot => exact field.ty.base.narrowing_mem

/-- A selection narrows when its object does. -/
theorem narrows_member (c : Context) (object : Ty) (field : String) {term : Glsl.Term}
    (narrows : term.Narrows) : (c.member object field term).Narrows := by
  unfold member
  split
  · rename_i bound
    obtain ⟨struct, declared, binding, -, -, -, rfl⟩ := stageField?_eq_some_iff.1 bound
    exact c.narrows_boundField declared binding
  · split
    · split
      · exact ⟨narrows, trivial⟩
      · exact narrows
    · exact narrows

/-- A call narrows when its arguments do. -/
theorem narrows_call (c : Context) (callee : String) (arguments : List Expr)
    {terms : List Glsl.Term} (narrows : Glsl.Term.NarrowsAll terms) :
    (c.call callee arguments terms).Narrows := by
  have form := c.callForm_call callee arguments terms
  generalize c.call callee arguments terms = whole at form ⊢
  cases form with
  | ordinary => exact narrows
  | legacyRead => exact narrows
  | modernRead => exact List.mem_cons_self
  | faultyRead => exact narrows
  | product left right noRead isProduct two =>
    subst two
    exact ⟨narrows.2.1, narrows.1⟩
  | faultyProduct => trivial
  | saturation value noRead noProduct isSaturation one =>
    subst one
    exact ⟨narrows.1, List.mem_cons_self, List.mem_cons_self, trivial⟩
  | faultySaturation => trivial

end Context

/-- An inserted cast narrows when its operand does. -/
theorem narrows_castTo (hint : Option Ty) (e : Expr) {term : Glsl.Term} (narrows : term.Narrows) :
    (castTo hint e term).Narrows := by
  unfold castTo
  split
  · split
    · exact ⟨narrows, trivial⟩
    · exact narrows
  · exact narrows

namespace Expr

mutual

/-- A lowered expression cuts variables down to their first components or not at all. -/
theorem narrows_lower (c : Context) (hint : Option Ty) : (e : Expr) → (e.lower c hint).Narrows
  | identifier name ty => by
    rw [lower]
    exact narrows_castTo hint _ (c.narrows_identifier name ty)
  | literal value ty => by
    rw [lower]
    exact narrows_castTo hint _ trivial
  | unary op operand ty => by
    rw [lower]
    exact narrows_castTo hint _ (operand.narrows_lower c _)
  | binary op left right ty => by
    rw [lower]
    exact narrows_castTo hint _ ⟨left.narrows_lower c _, right.narrows_lower c _⟩
  | conditional condition whenTrue whenFalse ty => by
    rw [lower]
    exact narrows_castTo hint _
      ⟨condition.narrows_lower c _, whenTrue.narrows_lower c _, whenFalse.narrows_lower c _⟩
  | member object field ty => by
    rw [lower]
    exact narrows_castTo hint _ (c.narrows_member object.ty field (object.narrows_lower c none))
  | index array position ty => by
    rw [lower]
    exact narrows_castTo hint _ ⟨array.narrows_lower c none, position.narrows_lower c none⟩
  | call callee arguments parameters ty => by
    rw [lower]
    exact narrows_castTo hint _
      (c.narrows_call callee arguments (narrowsAll_lowerAll c parameters arguments))
  | construct arguments ty => by
    rw [lower]
    exact narrows_castTo hint _ (narrowsAll_lowerAll c [] arguments)
  | cast operand ty => by
    rw [lower]
    exact narrows_castTo hint _ ⟨operand.narrows_lower c none, trivial⟩

/-- Lowered arguments narrow. -/
theorem narrowsAll_lowerAll (c : Context) (parameters : List Ty) :
    (es : List Expr) → Glsl.Term.NarrowsAll (lowerAll c parameters es)
  | [] => trivial
  | e :: rest => ⟨e.narrows_lower c parameters.head?, narrowsAll_lowerAll c parameters.tail rest⟩

end

end Expr

/-! ## Names -/

/-- The colour outputs of the legacy generation are the elements of an array. -/
theorem toList_colorVariable_several (slot : Nat) : (colorVariable .legacy true slot).toList =
    "gl_FragData".toList ++ '[' :: ((toString slot).toList ++ [']']) := by
  have indexed {opening front : String} (opens : opening = front ++ "[") :
      (opening ++ toString slot ++ "]").toList =
        front.toList ++ '[' :: ((toString slot).toList ++ [']']) := by
    simp [opens]
  exact indexed (by decide +kernel)

/-- The pieces include all names, given the words that may be copied from the shader. -/
structure Vocabulary (Word : String → Prop) (Piece : Place → String → Prop) : Prop
    extends Lexicon Piece where
  copied : ∀ text, Word text → ∀ place, Piece place text
  interface : ∀ text, Word text → ∀ start ∈ ["attr_", "var_"], ∀ place, Piece place (start ++ text)
  aliases : ∀ base ∈ aliasBases, ∀ n place, Piece place (numbered base n)
  texture : ∀ (stage : Stage) (unit : Nat) (place : Place),
    Piece place (stage.word ++ "Texture" ++ toString unit)
  color : ∀ (generation : Generation) (several : Bool) (slot : Nat) (place : Place),
    Piece place (colorVariable generation several slot)

namespace Vocabulary

variable {Word : String → Prop} (vocabulary : Vocabulary Word Piece) {tokens : List String}
  {names : Renaming} (chosen : Renaming.ofTokens tokens = .ok names)

include vocabulary chosen

/-- The alias of a word that needs one is a piece. -/
theorem aliasOf {base : String} (needed : base ∈ aliasBases) (place : Place) :
    Piece place (names.aliasOf base) := by
  obtain ⟨-, n, same⟩ := Renaming.aliasOf_mem chosen needed
  rw [same]
  exact vocabulary.aliases base needed n place

/-- The name of a helper function is spelled. -/
theorem helper (which : Helper) : (Glsl.Name.helper which).Spelled Piece names :=
  vocabulary.aliasOf chosen which.base_mem_aliasBases

/-- A name that is accounted for is spelled by the vocabulary of its shader. -/
theorem name {shader : Shader} (words : ∀ word ∈ shader.tokens, Word word) {name : Glsl.Name}
    (accounted : name.Accounted shader) : name.Spelled Piece names := by
  intro place
  cases name with
  | word text => exact vocabulary.language text (accounted.fixed text rfl) place
  | source name =>
    have token := words name (accounted.copied name rfl)
    rw [Glsl.Name.text]
    by_cases reserved : name ∈ reservedWords
    · rw [Renaming.source_of_reserved reserved]
      exact vocabulary.aliasOf chosen (List.mem_append_right _ reserved) place
    · rw [names.source_of_not_reserved name reserved]
      exact vocabulary.copied name token place
  | verbatim text => exact vocabulary.copied text (words text (accounted.copied text rfl)) place
  | helper which => exact vocabulary.helper chosen which place
  | vertexInput field =>
    exact vocabulary.interface field (words field (accounted.copied field rfl)) _
      List.mem_cons_self place
  | varying field =>
    exact vocabulary.interface field (words field (accounted.copied field rfl)) _
      (List.mem_cons_of_mem _ List.mem_cons_self) place
  | texture stage unit => exact vocabulary.texture stage unit place
  | color generation several slot => exact vocabulary.color generation several slot place

/-- The text of a site of a shader is woven, whatever the context it is lowered in. -/
theorem woven_lower {shader : Shader} (words : ∀ word ∈ shader.tokens, Word word) (c : Context)
    {site : Site} (belongs : site.BelongsTo shader) : (site.lower c).IsWoven Piece names := by
  refine Glsl.Term.woven_text vocabulary.toLexicon _ (fun written inside => ?_)
    (site.expr.narrows_lower c site.hint)
  obtain ⟨part, below, own⟩ := Site.mem_names_lower.1 inside
  exact vocabulary.name chosen words
    (Site.head_accounted (Site.parts_belong belongs part below) written own)

end Vocabulary

end GlslText
