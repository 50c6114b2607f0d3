import GlslText.Proofs.Weaving
import Mathlib.Data.List.TakeWhile
import Mathlib.Data.Nat.Find

/-!
# Tokens by longest match

A text of the language is cut from left to right. Each time the longest start of what is left is
taken that is a name, a number, a sign, a blank or a comment; blanks and comments only keep apart
what stands on either side. So a token ends where nothing that goes on with the next character is a
lexeme, and the lemmas here say where that is for each kind of token.
-/

namespace GlslText.LongestMatch

/-! ## Lexemes -/

/-- A name starts with no digit. Characters beyond ASCII count as letters. -/
def isName : List Char → Bool
  | [] => false
  | first :: rest => !first.isDigit && isNameChar first && rest.all isNameChar

/-- What may stand behind the digits of a floating-point number. -/
def floatSuffixes : List (List Char) :=
  [[], ['f'], ['F'], ['l', 'f'], ['L', 'F']]

/-- What may stand behind the digits of an integer. -/
def integerSuffixes : List (List Char) :=
  [[], ['u'], ['U']]

/-- An exponent, which may have a sign, and a suffix behind it. -/
def isExponent : List Char → Bool
  | [] => false
  | mark :: rest =>
    let digits := if rest.head?.any ['+', '-'].contains then rest.tail else rest
    ['e', 'E'].contains mark && digits.head?.any Char.isDigit
      && floatSuffixes.contains (digits.dropWhile Char.isDigit)

/-- The digits of a number to the base sixteen and a suffix behind them, with the letter in
front. -/
def isHexadecimal : List Char → Bool
  | [] => false
  | mark :: rest =>
    let isHexDigit (ch : Char) := ch.isDigit || ['a', 'b', 'c', 'd', 'e', 'f'].contains ch.toLower
    ['x', 'X'].contains mark && rest.head?.any isHexDigit
      && integerSuffixes.contains (rest.dropWhile isHexDigit)

/-- A number without a sign: an integer, or a floating-point number with a point or an exponent. -/
def isNumber (chars : List Char) : Bool :=
  let whole := chars.takeWhile Char.isDigit
  match chars.dropWhile Char.isDigit with
  | '.' :: rest =>
    let behind := rest.dropWhile Char.isDigit
    (!whole.isEmpty || rest.head?.any Char.isDigit)
      && (floatSuffixes.contains behind || isExponent behind)
  | rest =>
    !whole.isEmpty && (integerSuffixes.contains rest || isExponent rest
      || whole == ['0'] && isHexadecimal rest)

/-- The signs of the language. -/
def signs : List (List Char) :=
  [['<', '<', '='], ['>', '>', '='], ['+', '+'], ['-', '-'], ['<', '='], ['>', '='], ['=', '='],
    ['!', '='], ['&', '&'], ['|', '|'], ['^', '^'], ['+', '='], ['-', '='], ['*', '='], ['/', '='],
    ['%', '='], ['&', '='], ['|', '='], ['^', '='], ['<', '<'], ['>', '>'], ['('], [')'], ['['],
    [']'], ['\x7b'], ['\x7d'], ['.'], [','], [':'], ['='], [';'], ['!'], ['-'], ['~'], ['+'], ['*'],
    ['/'], ['%'], ['<'], ['>'], ['|'], ['^'], ['&'], ['?']]

/-- A comment is closed at its end and not before. -/
def closesAtEnd : List Char → Bool
  | [] => false
  | '*' :: '/' :: rest => rest.isEmpty
  | _ :: rest => closesAtEnd rest

/-- A comment to the end of the line, or one that is closed. -/
def isComment : List Char → Bool
  | '/' :: '/' :: rest => !rest.contains '\n'
  | '/' :: '*' :: rest => closesAtEnd rest
  | _ => false

/-- A blank. -/
def isBlank : List Char → Bool
  | [ch] => ch.isWhitespace
  | _ => false

/-- What only keeps tokens apart. -/
def isGap (chars : List Char) : Bool :=
  isBlank chars || isComment chars

/-- What a text is cut into. -/
def isLexeme (chars : List Char) : Bool :=
  isName chars || isNumber chars || signs.contains chars || isGap chars

/-! ## Cutting a text -/

/-- The length of the longest lexeme that a text starts with. -/
def longest (chars : List Char) : Nat :=
  Nat.findGreatest (fun count => isLexeme (chars.take count) = true) chars.length

/-- The tokens behind as many characters as given. A character that starts no lexeme is a token by
itself. -/
def tokensBehind : Nat → List Char → List (List Char)
  | _, [] => []
  | count + 1, _ :: rest => tokensBehind count rest
  | 0, ch :: rest =>
    let more := longest (ch :: rest) - 1
    if isGap (ch :: rest.take more) then tokensBehind more rest
    else (ch :: rest.take more) :: tokensBehind more rest

/-- The tokens of a text: its names, numbers and signs. Comments and blanks are left out. -/
def tokens (chars : List Char) : List (List Char) :=
  tokensBehind 0 chars

/-- Once the rest of a lexeme is passed over, the tokens are those of what follows it. -/
theorem tokensBehind_append (front rest : List Char) :
    tokensBehind front.length (front ++ rest) = tokens rest := by
  induction front with
  | nil => rfl
  | cons ch front ih => exact ih

/-- The lexeme ends where the rest starts: nothing that goes on with the next character is a
lexeme. -/
def EndsAt (lexeme rest : List Char) : Prop :=
  ∀ ch ∈ rest.head?, ∀ more, isLexeme (lexeme ++ ch :: more) = false

/-- A lexeme that ends where the rest starts is the longest that the text starts with. -/
theorem longest_append {lexeme rest : List Char} (isOne : isLexeme lexeme = true)
    (ends : EndsAt lexeme rest) : longest (lexeme ++ rest) = lexeme.length := by
  refine Nat.findGreatest_eq_iff.2 ⟨by simp, fun _ => by simpa using isOne, ?_⟩
  intro count longer inside
  cases rest with
  | nil =>
    rw [List.append_nil] at inside
    omega
  | cons ch later =>
    have start : (lexeme ++ ch :: later).take count =
        lexeme ++ ch :: later.take (count - lexeme.length - 1) := by
      obtain ⟨extra, rfl⟩ : ∃ extra, count = lexeme.length + (extra + 1) :=
        ⟨count - lexeme.length - 1, by omega⟩
      rw [List.take_length_add_append]
      simp
    rw [start, ends ch rfl]
    exact Bool.false_ne_true

/-- A lexeme is cut off where it ends. -/
theorem tokens_append {lexeme rest : List Char} (isOne : isLexeme lexeme = true)
    (ends : EndsAt lexeme rest) :
    tokens (lexeme ++ rest) = (if isGap lexeme then [] else [lexeme]) ++ tokens rest := by
  cases lexeme with
  | nil => cases isOne
  | cons ch more =>
    have length := longest_append isOne ends
    have taken : (more ++ rest).take more.length = more := by simp
    rw [List.cons_append] at length ⊢
    rw [tokens, tokensBehind]
    simp only [length, List.length_cons, Nat.add_sub_cancel, taken, tokensBehind_append]
    split <;> rfl

example : tokens ['a', '-', '-', '-', '.', '5', 'e', '+', '1', ' ', '/', '*', '*', '/', '+', '+'] =
    [['a'], ['-', '-'], ['-'], ['.', '5', 'e', '+', '1'], ['+', '+']] := by
  decide +kernel

/-! ## Where tokens end -/

/-- A number goes on with a letter, a digit or a point only. -/
theorem numberTail_eq_false {ch : Char} (noLetter : ch.isAlphanum = false) (later : List Char) :
    ch :: later ∉ integerSuffixes ∧ ch :: later ∉ floatSuffixes ∧
      isExponent (ch :: later) = false ∧ isHexadecimal (ch :: later) = false := by
  have other {letter : Char} (isLetter : letter.isAlphanum = true) : ch ≠ letter := by
    rintro rfl
    rw [noLetter] at isLetter
    cases isLetter
  refine ⟨?_, ?_, ?_, ?_⟩
  · simp [integerSuffixes, other]
  · simp [floatSuffixes, other]
  · simp [isExponent, other]
  · simp [isHexadecimal, other]

section Digits

variable {whole : List Char} (digits : ∀ ch ∈ whole, ch.isDigit = true)

include digits

/-- Digits are followed by what is no digit. -/
theorem span_digits {ch : Char} (noDigit : ch.isDigit = false) (later : List Char) :
    (whole ++ ch :: later).takeWhile Char.isDigit = whole ∧
      (whole ++ ch :: later).dropWhile Char.isDigit = ch :: later := by
  rw [List.takeWhile_append_of_pos digits, List.dropWhile_append_of_pos digits]
  simp [noDigit]

/-- Digits are a number. -/
theorem isNumber_digits (nonempty : whole ≠ []) : isNumber whole = true := by
  have taken := List.takeWhile_eq_self_iff.2 digits
  have dropped := List.dropWhile_eq_nil_iff.2 digits
  simp [isNumber, taken, dropped, nonempty, integerSuffixes]

/-- Digits with a character behind them that is neither a letter, a digit nor a point are no
number. -/
theorem isNumber_digits_append {ch : Char} (noLetter : ch.isAlphanum = false) (noPoint : ch ≠ '.')
    (later : List Char) : isNumber (whole ++ ch :: later) = false := by
  have noDigit : ch.isDigit = false := by simp_all [Char.isAlphanum]
  obtain ⟨taken, dropped⟩ := span_digits digits noDigit later
  obtain ⟨noSuffix, -, noExponent, noHexadecimal⟩ := numberTail_eq_false noLetter later
  simp [isNumber, taken, dropped, noPoint, noSuffix, noExponent, noHexadecimal]

variable {fraction : List Char} (digits' : ∀ ch ∈ fraction, ch.isDigit = true)

include digits'

/-- Digits, a point and digits are a number. -/
theorem isNumber_decimal (nonempty : whole ≠ []) : isNumber (whole ++ '.' :: fraction) = true := by
  obtain ⟨taken, dropped⟩ := span_digits digits (by decide : '.'.isDigit = false) fraction
  have dropped' := List.dropWhile_eq_nil_iff.2 digits'
  simp [isNumber, taken, dropped, dropped', nonempty, floatSuffixes]

/-- Digits, a point and digits with a character behind them that is neither a letter nor a digit are
no number. -/
theorem isNumber_decimal_append {ch : Char} (noLetter : ch.isAlphanum = false) (later : List Char) :
    isNumber (whole ++ '.' :: fraction ++ ch :: later) = false := by
  have noDigit : ch.isDigit = false := by simp_all [Char.isAlphanum]
  rw [List.append_assoc, List.cons_append]
  obtain ⟨taken, dropped⟩ :=
    span_digits digits (by decide : '.'.isDigit = false) (fraction ++ ch :: later)
  obtain ⟨-, dropped'⟩ := span_digits digits' noDigit later
  obtain ⟨-, noSuffix, noExponent, -⟩ := numberTail_eq_false noLetter later
  simp [isNumber, taken, dropped, dropped', noSuffix, noExponent]

end Digits

/-- No blank or comment starts with a character of names. -/
theorem isGap_nameChar {first : Char} (nameChar : isNameChar first = true) (rest : List Char) :
    isGap (first :: rest) = false := by
  have other {ch : Char} (mark : isNameChar ch = false) : first ≠ ch := by
    rintro rfl
    rw [mark] at nameChar
    cases nameChar
  have noBlank : first.isWhitespace = false := by
    simp [Char.isWhitespace, other, isNameChar]
  have noComment : isComment (first :: rest) = false := by
    unfold isComment
    split
    · exact absurd (List.cons.inj ‹_›).1 (other (by decide))
    · exact absurd (List.cons.inj ‹_›).1 (other (by decide))
    · rfl
  cases rest <;> simp [isGap, isBlank, noBlank, noComment]

/-- What starts with a character of names is a name or a number. -/
theorem isLexeme_nameChar {first : Char} (nameChar : isNameChar first = true) (rest : List Char) :
    isLexeme (first :: rest) = (isName (first :: rest) || isNumber (first :: rest)) := by
  have heads : signs.all (fun sign => !sign.head?.any isNameChar) = true := by decide
  have noSign : signs.contains (first :: rest) = false := by
    by_contra listed
    have head := List.all_eq_true.1 heads _ (by simpa using listed)
    simp [nameChar] at head
  rw [isLexeme, noSign, isGap_nameChar nameChar, Bool.or_false, Bool.or_false]

/-- What starts with a digit is a number. -/
theorem isLexeme_digit {first : Char} (digit : first.isDigit = true) (rest : List Char) :
    isLexeme (first :: rest) = isNumber (first :: rest) := by
  simp [isLexeme_nameChar (isNameChar_of_isDigit digit), isName, digit]

/-- What starts with no character of names and no point is a sign or a comment, or a blank alone. -/
theorem isLexeme_mark {first second : Char} (mark : isNameChar first = false)
    (noPoint : first ≠ '.') (rest : List Char) :
    isLexeme (first :: second :: rest) =
      (signs.contains (first :: second :: rest) || isComment (first :: second :: rest)) := by
  have noDigit : first.isDigit = false := by
    by_contra digit
    simp [isNameChar, Char.isAlphanum, digit] at mark
  have noNumber : isNumber (first :: second :: rest) = false := by
    simp [isNumber, noDigit, noPoint]
  simp [isLexeme, isName, isGap, isBlank, mark, noNumber]

/-! ## The characters of names -/

/-- A name starts with a character of names that is no digit. -/
theorem head_of_isName {name : List Char} (isOne : isName name = true) :
    ∀ ch ∈ name.head?, isNameChar ch = true ∧ ch.isDigit = false := by
  cases name with
  | nil => cases isOne
  | cons first others =>
    rintro _ ⟨⟩
    simp_all [isName]

/-- A name has only characters of names. -/
theorem nameChars_of_isName {name : List Char} (isOne : isName name = true) :
    ∀ ch ∈ name, isNameChar ch = true := by
  cases name with
  | nil => cases isOne
  | cons first others => simp_all [isName]

/-- A name is not empty. -/
theorem ne_nil_of_isName {name : List Char} (isOne : isName name = true) : name ≠ [] := by
  rintro rfl
  cases isOne

/-- A name goes on with characters of names. -/
theorem isName_append {front back : List Char} (isOne : isName front = true)
    (goesOn : ∀ ch ∈ back, isNameChar ch = true) : isName (front ++ back) = true := by
  cases front with
  | nil => cases isOne
  | cons first others =>
    simp only [isName, List.cons_append, List.all_append, Bool.and_eq_true] at isOne ⊢
    exact ⟨isOne.1, isOne.2, List.all_eq_true.2 goesOn⟩

/-! ## Tokens at the start of a text -/

variable {rest : List Char}

/-- A name goes as far as characters of names. -/
theorem tokens_name {name : List Char} (isOne : isName name = true)
    (noChar : ∀ ch ∈ rest.head?, isNameChar ch = false) :
    tokens (name ++ rest) = name :: tokens rest := by
  cases name with
  | nil => cases isOne
  | cons first others =>
    have parts := isOne
    simp only [isName, Bool.and_eq_true, Bool.not_eq_true'] at parts
    obtain ⟨⟨noDigit, nameChar⟩, -⟩ := parts
    have noPoint : first ≠ '.' := by
      rintro rfl
      exact absurd nameChar (by decide)
    have ends : EndsAt (first :: others) rest := by
      intro ch next more
      have noNumber : isNumber (first :: (others ++ ch :: more)) = false := by
        simp [isNumber, noDigit, noPoint]
      rw [List.cons_append, isLexeme_nameChar nameChar, noNumber]
      simp [isName, noChar ch next]
    rw [tokens_append (by rw [isLexeme_nameChar nameChar, isOne, Bool.true_or]) ends,
      isGap_nameChar nameChar]
    rfl

/-- A text that a number does not go on with. -/
def EndsNumber (rest : List Char) : Prop :=
  ∀ ch ∈ rest.head?, ch.isAlphanum = false ∧ ch ≠ '.'

/-- A number is one token where no longer number starts with it. -/
theorem tokens_number {number : List Char} (digit : ∀ ch ∈ number.head?, ch.isDigit = true)
    (isOne : isNumber number = true)
    (ends : ∀ ch ∈ rest.head?, ∀ more, isNumber (number ++ ch :: more) = false) :
    tokens (number ++ rest) = number :: tokens rest := by
  cases number with
  | nil => cases isOne
  | cons first others =>
    have isDigit := digit first rfl
    have noLonger : EndsAt (first :: others) rest := by
      intro ch next more
      rw [List.cons_append, isLexeme_digit isDigit]
      exact ends ch next more
    rw [tokens_append (by rw [isLexeme_digit isDigit, isOne]) noLonger,
      isGap_nameChar (isNameChar_of_isDigit isDigit)]
    rfl

/-- An integer is one token. -/
theorem tokens_digits {whole : List Char} (digits : ∀ ch ∈ whole, ch.isDigit = true)
    (nonempty : whole ≠ []) (ends : EndsNumber rest) :
    tokens (whole ++ rest) = whole :: tokens rest := by
  refine tokens_number (fun ch first => digits ch (List.mem_of_mem_head? first))
    (isNumber_digits digits nonempty) fun ch next more => ?_
  exact isNumber_digits_append digits (ends ch next).1 (ends ch next).2 more

/-- Digits, a point and digits are one token. -/
theorem tokens_decimal {whole fraction : List Char} (digits : ∀ ch ∈ whole, ch.isDigit = true)
    (nonempty : whole ≠ []) (digits' : ∀ ch ∈ fraction, ch.isDigit = true)
    (ends : EndsNumber rest) :
    tokens (whole ++ '.' :: fraction ++ rest) = (whole ++ '.' :: fraction) :: tokens rest := by
  refine tokens_number (fun ch first => digits ch ?_)
    (isNumber_decimal digits digits' nonempty) fun ch next more => ?_
  · rw [List.head?_append_of_ne_nil _ nonempty] at first
    exact List.mem_of_mem_head? first
  · exact isNumber_decimal_append digits digits' (ends ch next).1 more

/-- A sign is one token where no longer lexeme starts with it. -/
theorem tokens_sign {sign : List Char} (listed : sign ∈ signs) (ends : EndsAt sign rest) :
    tokens (sign ++ rest) = sign :: tokens rest := by
  have noGaps : signs.all (fun sign => !isGap sign) = true := by decide
  have noGap : isGap sign = false := by simpa using List.all_eq_true.1 noGaps sign listed
  have isOne : isLexeme sign = true := by simp [isLexeme, listed]
  rw [tokens_append isOne ends, noGap]
  rfl

/-- Brackets and what stands between operands are tokens by themselves. -/
theorem tokens_mark {ch : Char} (listed : ch ∈ ['(', ')', '[', ']', ',', '?', ':'])
    (rest : List Char) : tokens (ch :: rest) = [ch] :: tokens rest := by
  simp only [List.mem_cons, List.not_mem_nil, or_false] at listed
  refine tokens_sign (?_ : [ch] ∈ signs) fun next _ more => ?_
  · rcases listed with rfl | rfl | rfl | rfl | rfl | rfl | rfl <;> decide
  · rcases listed with rfl | rfl | rfl | rfl | rfl | rfl | rfl <;>
      simp [isLexeme_mark, isNameChar, signs, isComment]

/-- Two signs in a row are one token, whatever follows. -/
theorem tokens_doubled {ch : Char} (listed : ch ∈ ['+', '-']) (rest : List Char) :
    tokens (ch :: ch :: rest) = [ch, ch] :: tokens rest := by
  simp only [List.mem_cons, List.not_mem_nil, or_false] at listed
  refine tokens_sign (?_ : [ch, ch] ∈ signs) fun next _ more => ?_
  · rcases listed with rfl | rfl <;> decide
  · rcases listed with rfl | rfl <;> simp [isLexeme_mark, isNameChar, signs, isComment]

/-- The sign of an operand is a token by itself unless another one follows. -/
theorem tokens_single {ch : Char} (listed : ch ∈ ['+', '-', '!'])
    (other : ∀ next ∈ rest.head?, next ≠ ch ∧ next ≠ '=') :
    tokens (ch :: rest) = [ch] :: tokens rest := by
  simp only [List.mem_cons, List.not_mem_nil, or_false] at listed
  refine tokens_sign (?_ : [ch] ∈ signs) fun next follows more => ?_
  · rcases listed with rfl | rfl | rfl <;> decide
  · obtain ⟨noDouble, noUpdate⟩ := other next follows
    rcases listed with rfl | rfl | rfl <;>
      simp [isLexeme_mark, isNameChar, signs, isComment, noDouble, noUpdate]

/-- A point in front of no digit selects. -/
theorem tokens_point (noDigit : ∀ next ∈ rest.head?, next.isDigit = false) :
    tokens ('.' :: rest) = ['.'] :: tokens rest := by
  refine tokens_sign (by decide : ['.'] ∈ signs) fun next follows more => ?_
  have noNumber : isNumber ('.' :: next :: more) = false := by
    simp [isNumber, noDigit next follows]
  simp [isLexeme, noNumber, isName, isNameChar, signs, isGap, isBlank, isComment]

/-- A blank is left out. -/
theorem tokens_blank (rest : List Char) : tokens (' ' :: rest) = tokens rest := by
  have ends : EndsAt [' '] rest := by
    intro next _ more
    simp [isLexeme_mark, isNameChar, signs, isComment]
  exact tokens_append (by decide : isLexeme [' '] = true) ends

/-- A comment is told by its first two characters. -/
theorem isComment_eq_false {first second : Char} (noLine : [first, second] ≠ ['/', '/'])
    (noBlock : [first, second] ≠ ['/', '*']) (rest : List Char) :
    isComment (first :: second :: rest) = false := by
  unfold isComment
  split <;> simp_all

/-- A sign ends at a blank. -/
theorem endsAt_blank {sign : List Char} (listed : sign ∈ signs) (noPoint : sign ≠ ['.']) :
    EndsAt sign (' ' :: rest) := by
  rintro _ ⟨⟩ more
  have noBlanks : signs.all (fun sign => !sign.contains ' ') = true := by decide
  have noSign : signs.contains (sign ++ ' ' :: more) = false := by
    by_contra found
    have noBlank := List.all_eq_true.1 noBlanks _ (by simpa using found)
    simp at noBlank
  have heads : signs.all (fun sign => sign.head?.all fun ch =>
      !isNameChar ch && (ch != '.' || sign == ['.'])) = true := by decide
  have head := List.all_eq_true.1 heads sign listed
  have starts : signs.all (fun sign => sign.take 2 != ['/', '/'] && sign.take 2 != ['/', '*']) =
      true := by decide
  have start := List.all_eq_true.1 starts sign listed
  match sign with
  | [] => exact absurd listed (by decide)
  | [first] =>
    have marked : isNameChar first = false ∧ first ≠ '.' := by simp_all
    rw [List.singleton_append] at noSign ⊢
    rw [isLexeme_mark marked.1 marked.2, noSign, isComment_eq_false (by simp) (by simp)]
    rfl
  | first :: second :: others =>
    have marked : isNameChar first = false ∧ first ≠ '.' := by simp_all
    have noComment : [first, second] ≠ ['/', '/'] ∧ [first, second] ≠ ['/', '*'] := by simp_all
    rw [List.cons_append, List.cons_append] at noSign ⊢
    rw [isLexeme_mark marked.1 marked.2, noSign, isComment_eq_false noComment.1 noComment.2]
    rfl

/-- The sign of an operator ends at the blank behind it. -/
theorem tokens_operator (op : BinaryOp) (rest : List Char) :
    tokens (op.sign.toList ++ ' ' :: rest) = op.sign.toList :: tokens rest := by
  have listed : op.sign.toList ∈ signs ∧ op.sign.toList ≠ ['.'] := by
    cases op with
    | arithmetic op => cases op <;> decide
    | compare op => cases op <;> decide
    | and => decide
    | or => decide
    | assign => decide
    | update op => cases op <;> decide
  rw [tokens_sign listed.1 (endsAt_blank listed.1 listed.2), tokens_blank]

end GlslText.LongestMatch
