import GlslText.Glsl.Term

/-!
# Reading terms back

The skeleton of a term is its operator tree with the texts of its leaves and callees. Brackets
around a whole term leave no trace in it, and a product is a multiplication like any other.

A reader goes through a text from left to right. It keeps what the text has opened and not yet
closed, and the term that it has just read. From wherever a term is expected, the text of a term
leads it to the skeleton of that term, so that a text has one skeleton at most.
-/

namespace GlslText

/-- An operator tree over texts. -/
inductive Skeleton where
  | leaf (text : String)
  | apply (callee : String) (arguments : List Skeleton)
  | unary (op : UnaryOp) (operand : Skeleton)
  | binary (op : BinaryOp) (left right : Skeleton)
  | conditional (condition whenTrue whenFalse : Skeleton)
  | select (object : Skeleton) (field : String)
  | index (array position : Skeleton)

/-! ## Words and marks -/

/-- The characters of names and of numbers: letters, digits, the underscore, the point, and
everything beyond ASCII. -/
def isWordChar (ch : Char) : Bool :=
  ch.isAlphanum || ch == '_' || ch == '.' || decide (128 ≤ ch.toNat)

/-- A text that is read as one word. -/
structure IsWord (text : String) : Prop where
  nonempty : text.toList ≠ []
  chars : ∀ ch ∈ text.toList, isWordChar ch = true

instance (text : String) : Decidable (IsWord text) :=
  decidable_of_iff (text.toList ≠ [] ∧ text.toList.all isWordChar = true)
    ⟨fun holds => ⟨holds.1, List.all_eq_true.1 holds.2⟩,
      fun isWord => ⟨isWord.nonempty, List.all_eq_true.2 isWord.chars⟩⟩

/-- What a text is read by: whole words and single marks. -/
inductive Lexeme where
  | word (chars : List Char)
  | mark (ch : Char)

/-- The words and marks of a text. -/
def lexemes : List Char → List Lexeme
  | [] => []
  | ch :: rest =>
    if isWordChar ch then
      match lexemes rest with
      | .word chars :: later => .word (ch :: chars) :: later
      | later => .word [ch] :: later
    else
      .mark ch :: lexemes rest

/-- A text that does not go on with a word. -/
def EndsWord : List Char → Prop
  | [] => True
  | ch :: _ => isWordChar ch = false

/-- A mark ends a word. -/
theorem EndsWord.ofMark {ch : Char} {rest : List Char} (isMark : isWordChar ch = false) :
    EndsWord (ch :: rest) :=
  isMark

/-- A mark is read by itself. -/
theorem lexemes_mark {ch : Char} (isMark : isWordChar ch = false) (rest : List Char) :
    lexemes (ch :: rest) = .mark ch :: lexemes rest := by
  simp [lexemes, isMark]

/-- The characters of a word are read as one word, up to where it ends. -/
theorem lexemes_word {chars : List Char} (nonempty : chars ≠ [])
    (each : ∀ ch ∈ chars, isWordChar ch = true) {rest : List Char} (ends : EndsWord rest) :
    lexemes (chars ++ rest) = .word chars :: lexemes rest := by
  induction chars with
  | nil => exact absurd rfl nonempty
  | cons ch more ih =>
    have first : isWordChar ch = true := each ch List.mem_cons_self
    rw [List.cons_append, lexemes, if_pos first]
    cases more with
    | nil =>
      cases rest with
      | nil => rfl
      | cons next later => rw [List.nil_append, lexemes_mark ends]
    | cons second others =>
      rw [ih (List.cons_ne_nil _ _) fun ch member => each ch (List.mem_cons_of_mem _ member)]

/-! ## The reader -/

/-- The operator that stands in front of its operand. -/
def UnaryOp.ofMark? : Char → Option UnaryOp
  | '-' => some .negative
  | '+' => some .positive
  | '!' => some .not
  | _ => none

/-- The operator that a second mark of the same kind makes of the first. -/
def UnaryOp.doubled? : UnaryOp → Char → Option UnaryOp
  | .negative, '-' => some .preDecrement
  | .positive, '+' => some .preIncrement
  | _, _ => none

/-- All operators on two operands. -/
def BinaryOp.all : List BinaryOp :=
  [.arithmetic .add, .arithmetic .sub, .arithmetic .mul, .arithmetic .div,
    .compare .less, .compare .greater, .compare .lessEqual, .compare .greaterEqual,
    .compare .equal, .compare .notEqual, .and, .or, .assign,
    .update .add, .update .sub, .update .mul, .update .div]

/-- The operator of a sign. -/
def BinaryOp.ofSign? (sign : List Char) : Option BinaryOp :=
  all.find? fun op => op.sign.toList = sign

/-- What the text has opened, each with the terms read inside it so far. -/
inductive Frame where
  /-- A round bracket. -/
  | bracket
  /-- A round bracket and an operator in front of its operand. -/
  | prefixed (op : UnaryOp)
  /-- A round bracket, the left operand and the operator. -/
  | operator (left : Skeleton) (op : BinaryOp)
  /-- A round bracket and a condition. -/
  | whenTrue (condition : Skeleton)
  /-- A round bracket, a condition and its first branch. -/
  | whenFalse (condition whenTrue : Skeleton)
  /-- The brackets of an application with its earlier arguments. -/
  | arguments (callee : String) (earlier : List Skeleton)
  /-- The square brackets behind an array. -/
  | position (array : Skeleton)

/-- What the reader is at. -/
inductive Focus where
  /-- A term is to come. -/
  | start
  /-- A term has just been read. -/
  | done (term : Skeleton)
  /-- A term has been read, and the first mark of an operator behind it. -/
  | half (term : Skeleton) (mark : Char)
  /-- A left operand has been read, and part of a sign. -/
  | sign (left : Skeleton) (marks : List Char)

/-- The state of the reader, the innermost frame first. -/
structure Reader where
  frames : List Frame
  focus : Focus

namespace Reader

/-- A mark where a term is to come. -/
def opening : List Frame → Char → Option Reader
  | frames, '(' => some ⟨.bracket :: frames, .start⟩
  | frames, ' ' => some ⟨frames, .start⟩
  | .arguments callee [] :: outer, ')' => some ⟨outer, .done (.apply callee [])⟩
  | .bracket :: outer, ch => (UnaryOp.ofMark? ch).map fun op => ⟨.prefixed op :: outer, .start⟩
  | .prefixed op :: outer, ch => (op.doubled? ch).map fun op => ⟨.prefixed op :: outer, .start⟩
  | _, _ => none

/-- A mark behind a term. -/
def closing (term : Skeleton) : List Frame → Char → Option Reader
  | frames, '[' => some ⟨.position term :: frames, .start⟩
  | frames, '(' =>
    match term with
    | .leaf callee => some ⟨.arguments callee [] :: frames, .start⟩
    | _ => none
  | .bracket :: outer, ')' => some ⟨outer, .done term⟩
  | .bracket :: outer, ' ' => some ⟨outer, .sign term []⟩
  | .bracket :: outer, '?' => some ⟨.whenTrue term :: outer, .start⟩
  | .bracket :: outer, ch => some ⟨.bracket :: outer, .half term ch⟩
  | .prefixed op :: outer, ')' => some ⟨outer, .done (.unary op term)⟩
  | .operator left op :: outer, ')' => some ⟨outer, .done (.binary op left term)⟩
  | .whenTrue condition :: outer, ':' => some ⟨.whenFalse condition term :: outer, .start⟩
  | .whenFalse condition whenTrue :: outer, ')' =>
    some ⟨outer, .done (.conditional condition whenTrue term)⟩
  | .arguments callee earlier :: outer, ',' =>
    some ⟨.arguments callee (earlier ++ [term]) :: outer, .start⟩
  | .arguments callee earlier :: outer, ')' =>
    some ⟨outer, .done (.apply callee (earlier ++ [term]))⟩
  | .position array :: outer, ']' => some ⟨outer, .done (.index array term)⟩
  | _, _ => none

/-- One word or mark. A word behind a term selects from it. -/
def step : Reader → Lexeme → Option Reader
  | ⟨frames, .start⟩, .word chars => some ⟨frames, .done (.leaf (String.ofList chars))⟩
  | ⟨frames, .start⟩, .mark ch => opening frames ch
  | ⟨frames, .done term⟩, .word ('.' :: field) =>
    some ⟨frames, .done (.select term (String.ofList field))⟩
  | ⟨frames, .done term⟩, .mark ch => closing term frames ch
  | ⟨frames, .half term '+'⟩, .mark '+' => some ⟨frames, .done (.unary .postIncrement term)⟩
  | ⟨frames, .half term '-'⟩, .mark '-' => some ⟨frames, .done (.unary .postDecrement term)⟩
  | ⟨frames, .sign left marks⟩, .mark ' ' =>
    (BinaryOp.ofSign? marks).map fun op => ⟨.operator left op :: frames, .start⟩
  | ⟨frames, .sign left marks⟩, .mark ch => some ⟨frames, .sign left (marks ++ [ch])⟩
  | _, _ => none

/-- Reads a text to its end. -/
def read (reader : Reader) (text : List Char) : Option Reader :=
  (lexemes text).foldlM step reader

/-- A mark takes the reader one step on. -/
theorem read_mark {before after : Reader} {ch : Char} (isMark : isWordChar ch = false)
    (steps : before.step (.mark ch) = some after) (rest : List Char) :
    before.read (ch :: rest) = after.read rest := by
  rw [read, lexemes_mark isMark, List.foldlM_cons, steps]
  rfl

/-- A whole word takes the reader one step on. -/
theorem read_word {before after : Reader} {text : String} (isWord : IsWord text)
    (steps : before.step (.word text.toList) = some after) {rest : List Char}
    (ends : EndsWord rest) : before.read (text.toList ++ rest) = after.read rest := by
  rw [read, lexemes_word isWord.nonempty isWord.chars ends, List.foldlM_cons, steps]
  rfl

/-- Every operator is known by its sign. -/
theorem ofSign?_sign (op : BinaryOp) : BinaryOp.ofSign? op.sign.toList = some op := by
  cases op with
  | arithmetic op => cases op <;> decide
  | compare op => cases op <;> decide
  | and => decide
  | or => decide
  | assign => decide
  | update op => cases op <;> decide

/-- The marks of a sign are gathered one by one. -/
theorem read_marks (frames : List Frame) (left : Skeleton) (earlier : List Char) {marks : List Char}
    (isMark : ∀ ch ∈ marks, isWordChar ch = false ∧ ch ≠ ' ') (rest : List Char) :
    (⟨frames, .sign left earlier⟩ : Reader).read (marks ++ rest) =
      (⟨frames, .sign left (earlier ++ marks)⟩ : Reader).read rest := by
  induction marks generalizing earlier with
  | nil => rw [List.nil_append, List.append_nil]
  | cons ch later ih =>
    obtain ⟨mark, noSpace⟩ := isMark ch List.mem_cons_self
    have steps : (⟨frames, .sign left earlier⟩ : Reader).step (.mark ch) =
        some ⟨frames, .sign left (earlier ++ [ch])⟩ := by
      simp [step]
    rw [List.cons_append, read_mark mark steps,
      ih _ fun ch member => isMark ch (List.mem_cons_of_mem _ member), List.append_assoc,
      List.singleton_append]

/-- A sign between two spaces makes an operator. -/
theorem read_sign (frames : List Frame) (left : Skeleton) (op : BinaryOp) (rest : List Char) :
    (⟨frames, .sign left []⟩ : Reader).read (op.sign.toList ++ ' ' :: rest) =
      (⟨.operator left op :: frames, .start⟩ : Reader).read rest := by
  have noWord : op.sign.toList.all (fun ch => !isWordChar ch && ch != ' ') = true := by
    cases op with
    | arithmetic op => cases op <;> decide
    | compare op => cases op <;> decide
    | and => decide
    | or => decide
    | assign => decide
    | update op => cases op <;> decide
  have isMark : ∀ ch ∈ op.sign.toList, isWordChar ch = false ∧ ch ≠ ' ' := by
    simpa using noWord
  rw [read_marks frames left [] isMark, List.nil_append]
  exact read_mark rfl (by simp [step, ofSign?_sign]) rest

end Reader

/-- Reads a whole text as a term. -/
def readSkeleton (text : String) : Option Skeleton :=
  match (⟨[], .start⟩ : Reader).read text.toList with
  | some ⟨[], .done term⟩ => some term
  | _ => none

namespace Glsl.Term

/-! ## Terms are read back -/

mutual

/-- The skeleton of a term. -/
def skeleton (names : Renaming) : Term → Skeleton
  | literal value => .leaf value.text
  | named name selection => .leaf (name.text names ++ selection)
  | apply callee arguments => .apply (callee.text names) (skeletonAll names arguments)
  | unary op operand => .unary op (operand.skeleton names)
  | binary op left right => .binary op (left.skeleton names) (right.skeleton names)
  | conditional condition whenTrue whenFalse =>
    .conditional (condition.skeleton names) (whenTrue.skeleton names) (whenFalse.skeleton names)
  | select object field => .select (object.skeleton names) (field.text names)
  | index array position => .index (array.skeleton names) (position.skeleton names)
  | group inner => inner.skeleton names
  | product left right =>
    .binary (.arithmetic .mul) (left.skeleton names) (right.skeleton names)
  | missing => .leaf ""
  | faulty _ inner => inner.skeleton names

/-- The skeletons of several terms. -/
def skeletonAll (names : Renaming) : List Term → List Skeleton
  | [] => []
  | term :: rest => term.skeleton names :: skeletonAll names rest

end

mutual

/-- A term without faults whose leaves, callees and fields are words. -/
def Readable (names : Renaming) : Term → Prop
  | literal value => IsWord value.text
  | named name selection => IsWord (name.text names ++ selection)
  | apply callee arguments => IsWord (callee.text names) ∧ ReadableAll names arguments
  | unary _ operand => operand.Readable names
  | binary _ left right => left.Readable names ∧ right.Readable names
  | conditional condition whenTrue whenFalse =>
    condition.Readable names ∧ whenTrue.Readable names ∧ whenFalse.Readable names
  | select object field => object.Readable names ∧ IsWord (field.text names)
  | index array position => array.Readable names ∧ position.Readable names
  | group inner => inner.Readable names
  | product left right => left.Readable names ∧ right.Readable names
  | missing => False
  | faulty _ _ => False

/-- Several readable terms. -/
def ReadableAll (names : Renaming) : List Term → Prop
  | [] => True
  | term :: rest => term.Readable names ∧ ReadableAll names rest

end

open Reader

variable {names : Renaming}

/-- What follows an argument of a call ends a word: a comma, or the closing bracket. -/
theorem endsWord_textRest (terms : List Term) (rest : List Char) :
    EndsWord ((textRest names terms).toList ++ ')' :: rest) := by
  cases terms with
  | nil => exact (rfl : isWordChar ')' = false)
  | cons term more =>
    have comma : (textRest names (term :: more)).toList ++ ')' :: rest =
        ',' :: (' ' :: (term.text names).toList ++ (textRest names more).toList
          ++ ')' :: rest) := by
      simp [textRest]
    rw [comma]
    exact .ofMark rfl

mutual

/-- The text of a term leads the reader to its skeleton. -/
theorem read_text (frames : List Frame) {rest : List Char} (ends : EndsWord rest) :
    (term : Term) → term.Readable names →
      (⟨frames, .start⟩ : Reader).read ((term.text names).toList ++ rest) =
        (⟨frames, .done (term.skeleton names)⟩ : Reader).read rest
  | literal value, readable => by
    rw [text, skeleton]
    exact read_word readable (by simp [step]) ends
  | named name selection, readable => by
    rw [text, skeleton]
    exact read_word readable (by simp [step]) ends
  | apply callee arguments, ⟨isWord, readable⟩ => by
    have whole : ((apply callee arguments).text names).toList ++ rest =
        (callee.text names).toList
          ++ '(' :: ((textList names arguments).toList ++ ')' :: rest) := by
      simp [text]
    have first : (⟨frames, .start⟩ : Reader).step (.word (callee.text names).toList) =
        some ⟨frames, .done (.leaf (callee.text names))⟩ := by
      simp [step]
    rw [whole, skeleton]
    refine (read_word isWord first (.ofMark rfl)).trans ?_
    refine (read_mark rfl rfl _).trans ?_
    exact read_textList frames (callee.text names) rest arguments readable
  | unary op operand, readable => by
    have whole : ((unary op operand).text names).toList ++ rest =
        '(' :: (op.before.toList ++ ((operand.text names).toList ++
          (op.after.toList ++ ')' :: rest))) := by
      simp [text]
    have inner (frame : Frame) {later : List Char} (ends : EndsWord later) :=
      read_text (frame :: frames) ends operand readable
    rw [whole, skeleton]
    refine (read_mark rfl rfl _).trans ?_
    cases op with
    | negative | positive | not =>
      refine (read_mark rfl rfl _).trans ?_
      exact (inner _ (.ofMark rfl)).trans (read_mark rfl rfl rest)
    | preIncrement | preDecrement =>
      refine (read_mark rfl rfl _).trans ((read_mark rfl rfl _).trans ?_)
      exact (inner _ (.ofMark rfl)).trans (read_mark rfl rfl rest)
    | postIncrement | postDecrement =>
      refine (inner _ (.ofMark rfl)).trans ?_
      exact (read_mark rfl rfl _).trans ((read_mark rfl rfl _).trans (read_mark rfl rfl rest))
  | binary op left right, ⟨readableLeft, readableRight⟩ => by
    have whole : ((binary op left right).text names).toList ++ rest =
        '(' :: ((left.text names).toList ++ ' ' :: (op.sign.toList ++ ' ' ::
          ((right.text names).toList ++ ')' :: rest))) := by
      simp [text]
    rw [whole, skeleton]
    refine (read_mark rfl rfl _).trans ?_
    refine (read_text (.bracket :: frames) (.ofMark rfl) left readableLeft).trans ?_
    refine (read_mark rfl rfl _).trans ?_
    refine (read_sign frames (left.skeleton names) op _).trans ?_
    refine (read_text _ (.ofMark rfl) right readableRight).trans ?_
    exact read_mark rfl rfl rest
  | conditional condition whenTrue whenFalse, ⟨readable, readableTrue, readableFalse⟩ => by
    have whole : ((conditional condition whenTrue whenFalse).text names).toList ++ rest =
        '(' :: '(' :: ((condition.text names).toList ++ ')' :: '?' :: '(' ::
          ((whenTrue.text names).toList ++ ')' :: ':' :: '(' ::
            ((whenFalse.text names).toList ++ ')' :: ')' :: rest))) := by
      simp [text]
    rw [whole, skeleton]
    refine (read_mark rfl rfl _).trans ((read_mark rfl rfl _).trans ?_)
    refine (read_text _ (.ofMark rfl) condition readable).trans ?_
    refine (read_mark rfl rfl _).trans ((read_mark rfl rfl _).trans ?_)
    refine (read_mark rfl rfl _).trans ?_
    refine (read_text _ (.ofMark rfl) whenTrue readableTrue).trans ?_
    refine (read_mark rfl rfl _).trans ((read_mark rfl rfl _).trans ?_)
    refine (read_mark rfl rfl _).trans ?_
    refine (read_text _ (.ofMark rfl) whenFalse readableFalse).trans ?_
    exact (read_mark rfl rfl _).trans (read_mark rfl rfl rest)
  | select object field, ⟨readable, isWord⟩ => by
    have whole : ((select object field).text names).toList ++ rest =
        '(' :: ((object.text names).toList
          ++ ')' :: (("." ++ field.text names).toList ++ rest)) := by
      simp [text]
    have selection : IsWord ("." ++ field.text names) := by
      refine ⟨by simp, fun ch member => ?_⟩
      rw [String.toList_append, List.mem_append] at member
      rcases member with point | inField
      · obtain rfl := List.mem_singleton.1 point
        rfl
      · exact isWord.chars ch inField
    have last : (⟨frames, .done (object.skeleton names)⟩ : Reader).step
        (.word ("." ++ field.text names).toList) =
          some ⟨frames, .done (.select (object.skeleton names) (field.text names))⟩ := by
      simp [step]
    rw [whole, skeleton]
    refine (read_mark rfl rfl _).trans ?_
    refine (read_text _ (.ofMark rfl) object readable).trans ?_
    refine (read_mark rfl rfl _).trans ?_
    exact read_word selection last ends
  | index array position, ⟨readableArray, readablePosition⟩ => by
    have whole : ((index array position).text names).toList ++ rest =
        (array.text names).toList ++ '[' :: ((position.text names).toList ++ ']' :: rest) := by
      simp [text]
    rw [whole, skeleton]
    refine (read_text frames (.ofMark rfl) array readableArray).trans ?_
    refine (read_mark rfl rfl _).trans ?_
    refine (read_text _ (.ofMark rfl) position readablePosition).trans ?_
    exact read_mark rfl rfl rest
  | group inner, readable => by
    have whole : ((group inner).text names).toList ++ rest =
        '(' :: ((inner.text names).toList ++ ')' :: rest) := by
      simp [text]
    rw [whole, skeleton]
    refine (read_mark rfl rfl _).trans ?_
    refine (read_text _ (.ofMark rfl) inner readable).trans ?_
    exact read_mark rfl rfl rest
  | product left right, ⟨readableLeft, readableRight⟩ => by
    have whole : ((product left right).text names).toList ++ rest =
        '(' :: '(' :: ((left.text names).toList ++ ')' :: ' ' :: '*' :: ' ' :: '(' ::
          ((right.text names).toList ++ ')' :: ')' :: rest)) := by
      simp [text]
    rw [whole, skeleton]
    refine (read_mark rfl rfl _).trans ((read_mark rfl rfl _).trans ?_)
    refine (read_text _ (.ofMark rfl) left readableLeft).trans ?_
    refine (read_mark rfl rfl _).trans ((read_mark rfl rfl _).trans ?_)
    refine (read_sign frames (left.skeleton names) (.arithmetic .mul) _).trans ?_
    refine (read_mark rfl rfl _).trans ?_
    refine (read_text _ (.ofMark rfl) right readableRight).trans ?_
    exact (read_mark rfl rfl _).trans (read_mark rfl rfl rest)

/-- The text of arguments with the bracket behind them ends an application. -/
theorem read_textList (frames : List Frame) (callee : String) (rest : List Char) :
    (terms : List Term) → ReadableAll names terms →
      (⟨.arguments callee [] :: frames, .start⟩ : Reader).read
          ((textList names terms).toList ++ ')' :: rest) =
        (⟨frames, .done (.apply callee (skeletonAll names terms))⟩ : Reader).read rest
  | [], _ => read_mark rfl rfl rest
  | term :: more, ⟨readable, readableMore⟩ => by
    have whole : (textList names (term :: more)).toList ++ ')' :: rest =
        (term.text names).toList ++ ((textRest names more).toList ++ ')' :: rest) := by
      simp [textList]
    rw [whole, skeletonAll]
    refine (read_text _ (endsWord_textRest more rest) term readable).trans ?_
    exact read_textRest frames callee rest [] (term.skeleton names) more readableMore

/-- The text of further arguments goes on behind the last one. -/
theorem read_textRest (frames : List Frame) (callee : String) (rest : List Char)
    (earlier : List Skeleton) (last : Skeleton) :
    (terms : List Term) → ReadableAll names terms →
      (⟨.arguments callee earlier :: frames, .done last⟩ : Reader).read
          ((textRest names terms).toList ++ ')' :: rest) =
        (⟨frames, .done (.apply callee (earlier ++ last :: skeletonAll names terms))⟩ :
          Reader).read rest
  | [], _ => read_mark rfl rfl rest
  | term :: more, ⟨readable, readableMore⟩ => by
    have whole : (textRest names (term :: more)).toList ++ ')' :: rest =
        ',' :: ' ' :: ((term.text names).toList
          ++ ((textRest names more).toList ++ ')' :: rest)) := by
      simp [textRest]
    have gathered : earlier ++ last :: skeletonAll names (term :: more) =
        (earlier ++ [last]) ++ term.skeleton names :: skeletonAll names more := by
      simp [skeletonAll]
    rw [whole, gathered]
    refine (read_mark rfl rfl _).trans ((read_mark rfl rfl _).trans ?_)
    refine (read_text _ (endsWord_textRest more rest) term readable).trans ?_
    exact read_textRest frames callee rest (earlier ++ [last]) (term.skeleton names) more
      readableMore

end

/-- The text of a term is read as its skeleton. -/
theorem readSkeleton_text {term : Term} (readable : term.Readable names) :
    readSkeleton (term.text names) = some (term.skeleton names) := by
  have ends : EndsWord [] := trivial
  have whole := read_text [] ends term readable
  rw [List.append_nil] at whole
  rw [readSkeleton, whole]
  rfl

end Glsl.Term

end GlslText
