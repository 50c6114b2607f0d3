import GlslText.Proofs.LongestMatch
import GlslText.Proofs.ShortestDecimal
import GlslText.Proofs.UniqueReading

/-!
# Increments and decrements in a text

Two signs in a row are read as an increment or a decrement. A text that ends where an operand ends
brings a fixed number of such tokens, whatever goes on behind it, and the numbers of the parts of a
text are added. Only a minus in front of an operand that starts with a minus itself makes one token
of two signs.
-/

namespace GlslText

open LongestMatch

/-- The token of a decrement. -/
def decrement : List Char := ['-', '-']

/-- The token of an increment. -/
def increment : List Char := ['+', '+']

/-- Whether a literal is written with a minus in front. -/
def Literal.isSigned : Literal → Bool
  | float bits => Binary32.isFinite bits && Binary32.isNegative bits
  | int value => decide (value < 0)
  | uint _ => false
  | bool _ => false

/-! ## Texts that bring a step -/

/-- The characters that follow the text of an operand. -/
def stoppers : List Char :=
  [')', ']', '[', '(', ',', ' ', '+', '-']

/-- A text that goes on behind an operand. -/
def Stops (rest : List Char) : Prop :=
  ∀ ch ∈ rest.head?, ch ∈ stoppers

/-- A text that brings a token as often as given, whatever goes on behind it. -/
def Brings (step : List Char) (count : Nat) (text : List Char) : Prop :=
  ∀ rest, Stops rest → (tokens (text ++ rest)).count step = count + (tokens rest).count step

/-- A text that is an operand: a minus if it is signed, and behind it what starts with no sign. -/
def IsOperand (step : List Char) (count : Nat) (signed : Bool) (text : List Char) : Prop :=
  ∃ body, text = (if signed then ['-'] else []) ++ body ∧ (signed = true → body ≠ []) ∧
    (∀ ch ∈ body.head?, ch ∉ ['-', '+', '!', '=']) ∧ Brings step count body

section Step

variable {step : List Char} (isStep : step ∈ [decrement, increment])

/-- A text that starts with a stopper goes on behind an operand. -/
theorem stops_cons {ch : Char} (listed : ch ∈ stoppers) (rest : List Char) :
    Stops (ch :: rest) := by
  rintro _ ⟨⟩
  exact listed

/-- A number does not go on with what goes on behind an operand. -/
theorem Stops.endsNumber {rest : List Char} (stops : Stops rest) : EndsNumber rest := by
  intro ch next
  have shapes : stoppers.all (fun ch => !ch.isAlphanum && ch != '.') = true := by decide
  simpa using List.all_eq_true.1 shapes ch (stops ch next)

/-- A name does not go on with what goes on behind an operand. -/
theorem Stops.noNameChar {rest : List Char} (stops : Stops rest) :
    ∀ ch ∈ rest.head?, isNameChar ch = false := by
  intro ch next
  have shapes : stoppers.all (fun ch => !isNameChar ch) = true := by decide
  simpa using List.all_eq_true.1 shapes ch (stops ch next)

/-- A text that starts with no sign is an operand without one. -/
theorem IsOperand.ofBrings {count : Nat} {text : List Char}
    (starts : ∀ ch ∈ text.head?, ch ∉ ['-', '+', '!', '=']) (brings : Brings step count text) :
    IsOperand step count false text :=
  ⟨text, rfl, by simp, starts, brings⟩

/-- The first character of a name is no sign. -/
theorem no_sign_of_isNameChar {ch : Char} (nameChar : isNameChar ch = true) :
    ch ∉ ['-', '+', '!', '='] := by
  intro listed
  have shapes : ['-', '+', '!', '='].all (fun ch => !isNameChar ch) = true := by decide
  have noName := List.all_eq_true.1 shapes ch listed
  simp [nameChar] at noName

/-- No step starts with a character of names. -/
theorem notMem_steps {token : List Char} (nameChar : ∀ ch ∈ token.head?, isNameChar ch = true) :
    token ∉ [decrement, increment] := by
  intro listed
  have noSteps : [decrement, increment].all (fun step => !step.head?.all isNameChar) = true := by
    decide
  have noStep := List.all_eq_true.1 noSteps token listed
  rw [(Option.all_eq_true _ _).2 nameChar] at noStep
  cases noStep

/-- A minus in front of digits. -/
theorem IsOperand.minus {count : Nat} {text : List Char} (operand : IsOperand step count false text)
    (nonempty : text ≠ []) : IsOperand step count true ('-' :: text) := by
  obtain ⟨body, same, -, starts, brings⟩ := operand
  obtain rfl : text = body := same
  exact ⟨text, rfl, fun _ => nonempty, starts, brings⟩

/-- What is in brackets starts with no sign. -/
theorem IsOperand.ofBracket {count : Nat} {text : List Char}
    (brings : Brings step count ('(' :: text)) : IsOperand step count false ('(' :: text) := by
  refine .ofBrings ?_ brings
  rintro _ ⟨⟩
  decide

/-- What is closed behind an operand starts with a minus at most, and only if the operand is
signed. -/
theorem IsOperand.head_closed {count : Nat} {signed : Bool} {text : List Char}
    (operand : IsOperand step count signed text) :
    ∀ next ∈ (text ++ [')']).head?,
      next ∉ ['+', '!', '='] ∧ (next = '-' → signed = true) := by
  obtain ⟨body, rfl, -, starts, -⟩ := operand
  cases signed with
  | true =>
    rintro _ ⟨⟩
    exact ⟨by decide, fun _ => rfl⟩
  | false =>
    cases body with
    | nil =>
      rintro _ ⟨⟩
      exact ⟨by decide, by decide⟩
    | cons first others =>
      have noSign := starts first rfl
      rintro _ ⟨⟩
      simp_all

/-- The empty text brings nothing. -/
theorem Brings.nil : Brings step 0 [] := by
  intro rest _
  rw [List.nil_append, Nat.zero_add]

/-- The empty text is an operand that brings nothing. -/
theorem operand_nothing : IsOperand step 0 false [] :=
  .ofBrings (by simp) .nil

/-- A text brings what its parts bring, the second of which starts where the first one may end. -/
theorem Brings.append {m n : Nat} {left right : List Char} {ch : Char} (first : Brings step m left)
    (second : Brings step n (ch :: right)) (stopper : ch ∈ stoppers) :
    Brings step (m + n) (left ++ ch :: right) := by
  intro rest stops
  have behind := stops_cons stopper (right ++ rest)
  rw [List.append_assoc, first (ch :: right ++ rest) behind, second rest stops, Nat.add_assoc]

/-- What follows an operand keeps its sign in front. -/
theorem IsOperand.append {m n : Nat} {signed : Bool} {left right : List Char} {ch : Char}
    (operand : IsOperand step m signed left) (second : Brings step n (ch :: right))
    (stopper : ch ∈ ['(', '[']) : IsOperand step (m + n) signed (left ++ ch :: right) := by
  obtain ⟨body, rfl, -, starts, brings⟩ := operand
  have stops : ch ∈ stoppers ∧ ch ∉ ['-', '+', '!', '='] := by
    rcases List.mem_pair.1 stopper with rfl | rfl <;> decide
  refine ⟨body ++ ch :: right, by simp, by simp, ?_, brings.append second stops.1⟩
  cases body with
  | nil =>
    rintro _ ⟨⟩
    exact stops.2
  | cons first others => exact starts

/-- A blank in front brings nothing. -/
theorem Brings.blank {n : Nat} {text : List Char} (brings : Brings step n text) :
    Brings step n (' ' :: text) := by
  intro rest stops
  rw [List.cons_append, tokens_blank, brings rest stops]

/-- Two signs in a row are one token. -/
theorem Brings.doubled {n : Nat} {text : List Char} {ch : Char} (listed : ch ∈ ['+', '-'])
    (brings : Brings step n text) : Brings step ([[ch, ch]].count step + n) (ch :: ch :: text) := by
  intro rest stops
  rw [List.cons_append, List.cons_append, tokens_doubled listed, List.count_cons, brings rest stops,
    List.count_singleton]
  omega

include isStep

/-- A token that is read and is no step. -/
theorem count_skip {token : List Char} (noStep : token ∉ [decrement, increment])
    (later : List (List Char)) : (token :: later).count step = later.count step := by
  refine List.count_cons_of_ne ?_
  rintro rfl
  exact noStep isStep

/-- A bracket, a comma or a mark of a choice in front brings nothing. -/
theorem Brings.mark {n : Nat} {text : List Char} {ch : Char}
    (listed : ch ∈ ['(', ')', '[', ']', ',', '?', ':']) (brings : Brings step n text) :
    Brings step n (ch :: text) := by
  intro rest stops
  rw [List.cons_append, tokens_mark listed, count_skip isStep, brings rest stops]
  simp [decrement, increment]

/-- A text with the bracket that closes behind it. -/
theorem Brings.closed {n : Nat} {text : List Char} {ch : Char} (brings : Brings step n text)
    (listed : ch ∈ [')', ']']) : Brings step n (text ++ [ch]) := by
  rcases List.mem_pair.1 listed with rfl | rfl
  · exact brings.append (.mark isStep (by decide) .nil) (by decide)
  · exact brings.append (.mark isStep (by decide) .nil) (by decide)

/-- A sign in front of what starts with none is a token by itself. -/
theorem Brings.single {n : Nat} {text : List Char} {ch : Char} (listed : ch ∈ ['+', '-', '!'])
    (brings : Brings step n text) (nonempty : text ≠ [])
    (other : ∀ next ∈ text.head?, next ≠ ch ∧ next ≠ '=') : Brings step n (ch :: text) := by
  intro rest stops
  rw [← List.head?_append_of_ne_nil text nonempty] at other
  rw [List.cons_append, tokens_single listed other, count_skip isStep, brings rest stops]
  simp [decrement, increment]

/-- An operator between blanks brings no step, not even one that is written with two signs. -/
theorem Brings.operator {n : Nat} {text : List Char} (op : BinaryOp)
    (brings : Brings step n text) : Brings step n (op.sign.toList ++ ' ' :: text) := by
  intro rest stops
  rw [List.append_assoc, List.cons_append, tokens_operator, count_skip isStep, brings rest stops]
  cases op with
  | arithmetic op => cases op <;> decide
  | compare op => cases op <;> decide
  | and => decide
  | or => decide
  | assign => decide
  | update op => cases op <;> decide

/-- An operand brings the steps behind its sign: a minus in front of it is no step by itself. -/
theorem IsOperand.brings {count : Nat} {signed : Bool} {text : List Char}
    (operand : IsOperand step count signed text) : Brings step count text := by
  obtain ⟨body, rfl, nonempty, starts, brings⟩ := operand
  cases signed with
  | false => exact brings
  | true =>
    refine .single isStep (by decide) brings (nonempty rfl) fun next first => ?_
    have noSign := starts next first
    simp_all

/-! ## Names and literals -/

/-- A name in front of what does not go on with it. -/
theorem Brings.name {n : Nat} {name text : List Char} (isOne : isName name = true)
    (brings : Brings step n text) (ends : ∀ ch ∈ text.head?, isNameChar ch = false) :
    Brings step n (name ++ text) := by
  intro rest stops
  have noChar : ∀ ch ∈ (text ++ rest).head?, isNameChar ch = false := by
    cases text with
    | nil => exact stops.noNameChar
    | cons first others => exact ends
  have noStep := notMem_steps fun ch first => (head_of_isName isOne ch first).1
  rw [List.append_assoc, tokens_name isOne noChar, count_skip isStep noStep, brings rest stops]

/-- A name behind a point is selected. -/
theorem Brings.point {name : List Char} (isOne : isName name = true) :
    Brings step 0 ('.' :: name) := by
  intro rest stops
  have noDigit : ∀ next ∈ (name ++ rest).head?, next.isDigit = false := by
    rw [List.head?_append_of_ne_nil name (ne_nil_of_isName isOne)]
    exact fun next first => (head_of_isName isOne next first).2
  have selected : Brings step 0 (name ++ []) := .name isStep isOne .nil (by simp)
  rw [List.append_nil] at selected
  rw [List.cons_append, tokens_point noDigit, count_skip isStep (by decide), selected rest stops]

/-- The components that are selected from a variable, if any. -/
theorem brings_narrowing {selection : String} (narrows : selection ∈ narrowings) :
    Brings step 0 selection.toList := by
  simp only [narrowings, List.mem_cons, List.not_mem_nil, or_false] at narrows
  rcases narrows with rfl | rfl | rfl | rfl
  · exact .nil
  · exact .point isStep (by decide : isName ['x'] = true)
  · exact .point isStep (by decide : isName ['x', 'y'] = true)
  · exact .point isStep (by decide : isName ['x', 'y', 'z'] = true)

/-- A variable with the components selected from it. -/
theorem operand_narrowed {name : List Char} (isOne : isName name = true) {selection : String}
    (narrows : selection ∈ narrowings) : IsOperand step 0 false (name ++ selection.toList) := by
  refine .ofBrings (fun ch first => ?_) (.name isStep isOne (brings_narrowing isStep narrows) ?_)
  · rw [List.head?_append_of_ne_nil name (ne_nil_of_isName isOne)] at first
    exact no_sign_of_isNameChar (head_of_isName isOne ch first).1
  · have points : narrowings.all (fun word => word.toList.head?.all (!isNameChar ·)) = true := by
      decide
    intro ch first
    simpa using (Option.all_eq_true _ _).1 (List.all_eq_true.1 points selection narrows) ch first

/-- A name is an operand without steps. -/
theorem operand_name {name : List Char} (isOne : isName name = true) :
    IsOperand step 0 false name := by
  simpa using operand_narrowed isStep isOne (by decide : "" ∈ narrowings)

/-- A number brings no step. -/
theorem operand_number {number : List Char} (digit : ∀ ch ∈ number.head?, ch.isDigit = true)
    (single : ∀ rest, Stops rest → tokens (number ++ rest) = number :: tokens rest) :
    IsOperand step 0 false number := by
  have nameChar : ∀ ch ∈ number.head?, isNameChar ch = true :=
    fun ch first => isNameChar_of_isDigit (digit ch first)
  refine .ofBrings (fun ch first => no_sign_of_isNameChar (nameChar ch first)) fun rest stops => ?_
  rw [single rest stops, count_skip isStep (notMem_steps nameChar), Nat.zero_add]

/-- An integer is an operand without steps. -/
theorem operand_digits {whole : List Char} (digits : ∀ ch ∈ whole, ch.isDigit = true)
    (nonempty : whole ≠ []) : IsOperand step 0 false whole :=
  operand_number isStep (fun ch first => digits ch (List.mem_of_mem_head? first))
    fun _ stops => tokens_digits digits nonempty stops.endsNumber

/-- A number in decimal digits is an operand without steps. -/
theorem operand_toString (n : Nat) : IsOperand step 0 false (toString n).toList :=
  operand_digits isStep (allDigits_toString n) (isWord_toString n).nonempty

/-- A decimal is an operand without steps. -/
theorem operand_decimal {whole fraction : List Char} (digits : ∀ ch ∈ whole, ch.isDigit = true)
    (nonempty : whole ≠ []) (digits' : ∀ ch ∈ fraction, ch.isDigit = true) :
    IsOperand step 0 false (whole ++ '.' :: fraction) := by
  refine operand_number isStep (fun ch first => digits ch ?_)
    fun _ stops => tokens_decimal digits nonempty digits' stops.endsNumber
  rw [List.head?_append_of_ne_nil _ nonempty] at first
  exact List.mem_of_mem_head? first

/-- A digit, a point and a zero, as in the bounds of a saturation, are an operand without steps. -/
theorem operand_pointZero {digit : Char} (isDigit : digit.isDigit = true) :
    IsOperand step 0 false [digit, '.', '0'] :=
  operand_decimal isStep (List.forall_mem_singleton.2 isDigit) (List.cons_ne_nil digit [])
    (List.forall_mem_singleton.2 (by decide : '0'.isDigit = true))

/-- The operator between two operands. -/
theorem operand_operator (op : BinaryOp) {m n : Nat} {left right : List Char}
    (first : Brings step m left) (second : Brings step n right) :
    IsOperand step (m + n) false
      ('(' :: (left ++ ' ' :: (op.sign.toList ++ ' ' :: (right ++ [')'])))) := by
  have behind := (Brings.operator isStep op (second.closed isStep (by decide : ')' ∈ _))).blank
  exact .ofBracket (.mark isStep (by decide) (first.append behind (by decide)))

/-- A quotient by zero stands for what is no finite number. -/
theorem operand_quotient {left : String} (first : Brings step 0 left.toList) :
    IsOperand step 0 false ("(" ++ left ++ " / 0.0)").toList := by
  have sign : (BinaryOp.arithmetic .div).sign.toList = ['/'] := by decide
  have zero : IsOperand step 0 false ['0', '.', '0'] := operand_pointZero isStep (by decide)
  have quotient := operand_operator isStep (.arithmetic .div) first (zero.brings isStep)
  have whole : ("(" ++ left ++ " / 0.0)").toList =
      '(' :: (left.toList ++ ' ' :: (['/'] ++ ' ' :: (['0', '.', '0'] ++ [')']))) := by
    simp
  rw [whole]
  rwa [sign] at quotient

/-- A literal brings no step. -/
theorem operand_literal (value : Literal) :
    IsOperand step 0 value.isSigned value.text.toList := by
  cases value with
  | float bits =>
    by_cases finite : Binary32.isFinite bits = true
    · obtain ⟨whole, fraction, w, f, shape, wholeRead, fractionRead, -⟩ :=
        Binary32.exists_digits finite
      obtain ⟨nonempty, digits⟩ := digits_of_readDigits wholeRead
      have plain := operand_decimal isStep digits nonempty (digits_of_readDigits fractionRead).2
      rw [shape, Literal.isSigned, finite, Bool.true_and, List.append_assoc]
      cases Binary32.isNegative bits with
      | false => exact plain
      | true => exact plain.minus (by simp)
    · have zero : IsOperand step 0 false ['0', '.', '0'] := operand_pointZero isStep (by decide)
      have one : IsOperand step 0 false ['1', '.', '0'] := operand_pointZero isStep (by decide)
      rw [Bool.not_eq_true] at finite
      rw [Literal.isSigned, finite, Bool.false_and, Literal.text]
      cases word : Binary32.ofBits bits with
      | nan =>
        have quotient : "(0.0 / 0.0)" = "(" ++ "0.0" ++ " / 0.0)" := by decide
        rw [Binary32.text, quotient]
        exact operand_quotient isStep (zero.brings isStep)
      | infinite negative =>
        cases negative with
        | false =>
          have quotient : "(1.0 / 0.0)" = "(" ++ "1.0" ++ " / 0.0)" := by decide
          rw [Binary32.text, quotient]
          exact operand_quotient isStep (one.brings isStep)
        | true =>
          have quotient : "(-1.0 / 0.0)" = "(" ++ "-1.0" ++ " / 0.0)" := by decide
          rw [Binary32.text, quotient]
          exact operand_quotient isStep ((one.minus (by decide)).brings isStep)
      | finite negative mantissa exponent => simp [Binary32.isFinite, word] at finite
  | int value =>
    cases value with
    | ofNat n =>
      have positive : (Literal.int (.ofNat n)).isSigned = false := by
        simp [Literal.isSigned]
      rw [positive]
      exact operand_toString isStep n
    | negSucc n =>
      have negative : (Literal.int (.negSucc n)).isSigned = true := by
        simp [Literal.isSigned, Int.negSucc_lt_zero]
      have whole : (Literal.int (.negSucc n)).text.toList = '-' :: (toString (n + 1)).toList := by
        simp [Literal.text, signedText]
      rw [negative, whole]
      exact (operand_toString isStep (n + 1)).minus (isWord_toString (n + 1)).nonempty
  | uint n => exact operand_toString isStep n
  | bool value => cases value <;> exact operand_name isStep (by decide)

end Step

/-! ## Terms -/

/-- The steps that an operator on one operand writes, given whether the operand is signed. -/
def UnaryOp.steps (signed : Bool) : UnaryOp → List (List Char)
  | negative => if signed then [decrement] else []
  | positive => []
  | not => []
  | preIncrement => [increment]
  | preDecrement => [decrement]
  | postIncrement => [increment]
  | postDecrement => [decrement]

namespace Glsl.Term

variable {step : List Char} (isStep : step ∈ [decrement, increment]) {names : Renaming}

include isStep

/-- A step, or the sign of a negation that joins the minus of its operand, is a token. -/
theorem brings_unary (op : UnaryOp) {n : Nat} {signed : Bool} {operand : List Char}
    (inner : IsOperand step n signed operand) :
    Brings step ((op.steps signed).count step + n)
      (op.before.toList ++ (operand ++ (op.after.toList ++ [')']))) := by
  have brings := inner.brings isStep
  have close : Brings step 0 [')'] := .mark isStep (by decide) .nil
  have closed : Brings step n (operand ++ [')']) := brings.closed isStep (by decide)
  have apart {ch : Char} (sign : ch ∈ ['+', '-', '!']) (other : ch = '-' → signed = false) :
      Brings step n (ch :: (operand ++ [')'])) := by
    refine .single isStep sign closed (by simp) fun next first => ?_
    obtain ⟨noSign, minus⟩ := inner.head_closed next first
    constructor
    · rintro rfl
      simp_all
    · rintro rfl
      simp at noSign
  cases op with
  | preIncrement => exact closed.doubled (by decide)
  | preDecrement => exact closed.doubled (by decide)
  | postIncrement =>
    have behind : Brings step ([increment].count step + 0) ['+', '+', ')'] :=
      close.doubled (by decide)
    rw [Nat.add_comm]
    exact brings.append behind (by decide)
  | postDecrement =>
    have behind : Brings step ([decrement].count step + 0) ['-', '-', ')'] :=
      close.doubled (by decide)
    rw [Nat.add_comm]
    exact brings.append behind (by decide)
  | positive =>
    simpa [UnaryOp.steps, UnaryOp.before, UnaryOp.after] using apart (by decide : '+' ∈ _) (by simp)
  | not =>
    simpa [UnaryOp.steps, UnaryOp.before, UnaryOp.after] using apart (by decide : '!' ∈ _) (by simp)
  | negative =>
    cases signed with
    | false =>
      simpa [UnaryOp.steps, UnaryOp.before, UnaryOp.after] using
        apart (by decide : '-' ∈ _) (fun _ => rfl)
    | true =>
      -- Longest match joins the two minus signs.
      obtain ⟨body, rfl, -, -, inside⟩ := inner
      have rest : Brings step n (body ++ [')']) := inside.closed isStep (by decide)
      exact rest.doubled (by decide)

/-- An operator on one operand adds its own steps to those of the operand, and in its brackets it
has no sign in front. -/
theorem operand_unary (op : UnaryOp) {operand : Term} {n : Nat} {signed : Bool}
    (inner : IsOperand step n signed (operand.text names).toList) :
    IsOperand step (n + (op.steps signed).count step) false
      ((unary op operand).text names).toList := by
  have whole : ((unary op operand).text names).toList =
      '(' :: (op.before.toList ++ ((operand.text names).toList ++ (op.after.toList ++ [')']))) := by
    simp [text]
  rw [whole, Nat.add_comm]
  exact .ofBracket (.mark isStep (by decide) (brings_unary isStep op inner))

/-- An operator on two operands brings what both bring. -/
theorem operand_binary {left right : Term} {m n : Nat} (op : BinaryOp)
    (first : Brings step m (left.text names).toList)
    (second : Brings step n (right.text names).toList) :
    IsOperand step (m + n) false ((binary op left right).text names).toList := by
  have whole : ((binary op left right).text names).toList =
      '(' :: ((left.text names).toList ++ ' ' :: (op.sign.toList ++ ' ' ::
        ((right.text names).toList ++ [')']))) := by
    simp [text]
  rw [whole]
  exact operand_operator isStep op first second

/-- A text in brackets. -/
theorem operand_round {n : Nat} {inner : List Char} (brings : Brings step n inner) :
    IsOperand step n false ('(' :: (inner ++ [')'])) :=
  .ofBracket (.mark isStep (by decide) (brings.closed isStep (by decide)))

omit isStep in
/-- Further arguments start with a comma, or the bracket behind them. -/
theorem textRest_closed (names : Renaming) (terms : List Term) :
    ∃ ch right, (textRest names terms).toList ++ [')'] = ch :: right ∧ ch ∈ stoppers := by
  cases terms with
  | nil => exact ⟨')', [], rfl, by decide⟩
  | cons term rest =>
    exact ⟨',', ' ' :: ((term.text names).toList ++ ((textRest names rest).toList ++ [')'])),
      by simp [textRest], by decide⟩

section Arguments

variable {α : Type} {term : α → Term} {count : α → Nat}

/-- Further arguments bring what each of them brings. -/
theorem brings_textRest {items : List α}
    (each : ∀ item ∈ items, Brings step (count item) ((term item).text names).toList) :
    Brings step (items.map count).sum ((textRest names (items.map term)).toList ++ [')']) := by
  induction items with
  | nil => exact .mark isStep (by decide) .nil
  | cons item rest ih =>
    obtain ⟨own, others⟩ := List.forall_mem_cons.1 each
    obtain ⟨ch, right, same, stopper⟩ := textRest_closed names (rest.map term)
    have behind := ih others
    rw [same] at behind
    have whole : (textRest names ((item :: rest).map term)).toList ++ [')'] =
        ',' :: ' ' :: (((term item).text names).toList ++ ch :: right) := by
      simp [textRest, ← same]
    rw [whole]
    exact .mark isStep (by decide) (own.append behind stopper).blank

/-- Arguments bring what each of them brings. -/
theorem brings_textList {items : List α}
    (each : ∀ item ∈ items, Brings step (count item) ((term item).text names).toList) :
    Brings step (items.map count).sum ((textList names (items.map term)).toList ++ [')']) := by
  cases items with
  | nil => exact .mark isStep (by decide) .nil
  | cons item rest =>
    obtain ⟨own, others⟩ := List.forall_mem_cons.1 each
    obtain ⟨ch, right, same, stopper⟩ := textRest_closed names (rest.map term)
    have behind := brings_textRest isStep others
    rw [same] at behind
    have whole : (textList names ((item :: rest).map term)).toList ++ [')'] =
        ((term item).text names).toList ++ ch :: right := by
      simp [textList, ← same]
    rw [whole]
    exact own.append behind stopper

/-- An application brings what its arguments bring. -/
theorem operand_apply {callee : Name} (called : IsOperand step 0 false (callee.text names).toList)
    {items : List α}
    (each : ∀ item ∈ items, Brings step (count item) ((term item).text names).toList) :
    IsOperand step (items.map count).sum false
      ((apply callee (items.map term)).text names).toList := by
  have list : Brings step (items.map count).sum
      ('(' :: ((textList names (items.map term)).toList ++ [')'])) :=
    .mark isStep (by decide) (brings_textList isStep each)
  have whole : ((apply callee (items.map term)).text names).toList =
      (callee.text names).toList ++ '(' :: ((textList names (items.map term)).toList ++ [')']) := by
    simp [text]
  rw [whole, ← Nat.zero_add (items.map count).sum]
  exact called.append list (by decide)

end Arguments

/-- A call with one argument brings what the argument brings. -/
theorem operand_apply_one {callee : Name} {argument : Term} {n : Nat}
    (called : IsOperand step 0 false (callee.text names).toList)
    (inner : Brings step n (argument.text names).toList) :
    IsOperand step n false ((apply callee [argument]).text names).toList := by
  have only : ∀ item ∈ [(argument, n)], Brings step item.2 (item.1.text names).toList := by
    simpa using inner
  simpa using operand_apply isStep called only

/-- An element of an array brings what the array and the position bring, and keeps the sign of the
array. -/
theorem operand_index {array position : Term} {m n : Nat} {signed : Bool}
    (first : IsOperand step m signed (array.text names).toList)
    (second : Brings step n (position.text names).toList) :
    IsOperand step (m + n) signed ((index array position).text names).toList := by
  have brackets : Brings step n ('[' :: ((position.text names).toList ++ [']'])) :=
    .mark isStep (by decide) (second.closed isStep (by decide))
  have whole : ((index array position).text names).toList =
      (array.text names).toList ++ '[' :: ((position.text names).toList ++ [']']) := by
    simp [text]
  rw [whole]
  exact first.append brackets (by decide)

/-- A choice brings what its condition and both values bring. -/
theorem operand_conditional {condition whenTrue whenFalse : Term} {k m n : Nat}
    (test : Brings step k (condition.text names).toList)
    (first : Brings step m (whenTrue.text names).toList)
    (second : Brings step n (whenFalse.text names).toList) :
    IsOperand step (k + (m + n)) false
      ((conditional condition whenTrue whenFalse).text names).toList := by
  have last : Brings step n ((whenFalse.text names).toList ++ [')', ')']) :=
    second.append (.mark isStep (by decide) (.mark isStep (by decide) .nil)) (by decide)
  have later := first.append
    (.mark isStep (by decide : ')' ∈ _) (.mark isStep (by decide : ':' ∈ _)
      (.mark isStep (by decide : '(' ∈ _) last))) (by decide)
  have inner := test.append
    (.mark isStep (by decide : ')' ∈ _) (.mark isStep (by decide : '?' ∈ _)
      (.mark isStep (by decide : '(' ∈ _) later))) (by decide)
  have whole : ((conditional condition whenTrue whenFalse).text names).toList =
      '(' :: '(' :: ((condition.text names).toList ++ ')' :: '?' :: '(' ::
        ((whenTrue.text names).toList ++ ')' :: ':' :: '(' ::
          ((whenFalse.text names).toList ++ [')', ')']))) := by
    simp [text]
  rw [whole]
  exact .ofBracket (.mark isStep (by decide) (.mark isStep (by decide) inner))

/-- The factors of a product in brackets are operands of the multiplication. -/
theorem operand_product {left right : Term} {m n : Nat}
    (first : Brings step m (left.text names).toList)
    (second : Brings step n (right.text names).toList) :
    IsOperand step (m + n) false ((product left right).text names).toList := by
  have sign : (BinaryOp.arithmetic .mul).sign.toList = ['*'] := by decide
  have multiplied := operand_operator isStep (.arithmetic .mul)
    ((operand_round isStep first).brings isStep) ((operand_round isStep second).brings isStep)
  have whole : ((product left right).text names).toList =
      '(' :: ('(' :: ((left.text names).toList ++ [')']) ++ ' ' :: (['*'] ++ ' ' ::
        ('(' :: ((right.text names).toList ++ [')']) ++ [')']))) := by
    simp [text]
  rw [whole]
  rwa [sign] at multiplied

/-- A selection brings what its object brings. -/
theorem operand_select {object : Term} {field : Name} {n : Nat}
    (inner : Brings step n (object.text names).toList)
    (isOne : isName (field.text names).toList = true) :
    IsOperand step n false ((select object field).text names).toList := by
  have whole : ((select object field).text names).toList =
      '(' :: ((object.text names).toList ++ ')' :: '.' :: (field.text names).toList) := by
    simp [text]
  rw [whole]
  exact .ofBracket (.mark isStep (by decide)
    (inner.append (.mark isStep (by decide) (.point isStep isOne)) (by decide)))

end Glsl.Term

end GlslText
