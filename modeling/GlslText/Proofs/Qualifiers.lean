import GlslText.Proofs.UniqueReading
import GlslText.Proofs.WovenProgram

/-!
# Qualifiers follow the generation

The legacy generation declares its interface by `attribute` and `varying`, the modern one by `in`,
`out` and `layout`. A reader of words goes through a text, keeps the word it is in and whether a
round bracket was opened on the line, and stops behind a word that is refused there. Woven texts are
read to their end as soon as their pieces are, so a modern text has no token of the legacy
qualifiers, and no line of a legacy text begins with a modern one: there the words stand behind the
round bracket of a function head only.
-/

namespace GlslText

/-! ## Tokens and lines -/

/-- A word stands in a text by itself: no character of a name is next to it. -/
def HasToken (text word : String) : Prop :=
  ∃ front back, text.toList = front ++ (word.toList ++ back) ∧
    (∀ ch ∈ front.getLast?, isNameChar ch = false) ∧ ∀ ch ∈ back.head?, isNameChar ch = false

/-- A line of a text begins in the given way. -/
def HasLine (text start : String) : Prop :=
  ∃ front back, text.toList = front ++ (start.toList ++ back) ∧ ∀ ch ∈ front.getLast?, ch = '\n'

/-! ## The reader -/

/-- What a reader of words keeps: whether a round bracket was opened on the line, and the word it is
in. -/
structure WordReader where
  opened : Bool
  word : List Char
deriving DecidableEq, Repr

/-- Whether a round bracket is opened on the line behind a character that is in no name. -/
def openedAfter (opened : Bool) (ch : Char) : Bool :=
  (opened || ch == '(') && ch != '\n'

namespace WordReader

/-- The reader takes the characters of names into its word, and stops at the end of a word that is
refused. -/
def step (refused : Bool → List (List Char)) (reader : WordReader) (ch : Char) :
    Option WordReader :=
  if isNameChar ch then some ⟨reader.opened, reader.word ++ [ch]⟩
  else if reader.word ∈ refused reader.opened then none
  else some ⟨openedAfter reader.opened ch, []⟩

variable {refused : Bool → List (List Char)}

/-- A character of a name goes into the word. -/
theorem step_of_isNameChar {ch : Char} (inName : isNameChar ch = true) (reader : WordReader) :
    step refused reader ch = some ⟨reader.opened, reader.word ++ [ch]⟩ := by
  rw [step, if_pos inName]

/-- A character that is in no name ends the word, which must not be a refused one, and the next word
starts empty. -/
theorem step_eq_some_iff {ch : Char} (ends : isNameChar ch = false) {reader after : WordReader} :
    step refused reader ch = some after ↔
      reader.word ∉ refused reader.opened ∧ after = ⟨openedAfter reader.opened ch, []⟩ := by
  rw [step, if_neg (by simp [ends]), Option.ite_none_left_eq_some, Option.some.injEq,
    eq_comm (b := after)]

/-- The characters of a name are all taken into the word. -/
theorem foldlM_word {word : List Char} (inName : ∀ ch ∈ word, isNameChar ch = true)
    (opened : Bool) (front : List Char) :
    word.foldlM (step refused) ⟨opened, front⟩ = some ⟨opened, front ++ word⟩ := by
  induction word generalizing front with
  | nil => simp
  | cons ch rest ih =>
    obtain ⟨first, later⟩ := List.forall_mem_cons.1 inName
    rw [List.foldlM_cons, step_of_isNameChar first]
    simpa using ih later (front ++ [ch])

/-- A reader that refuses fewer words goes on alike. -/
theorem foldlM_mono {other : Bool → List (List Char)}
    (fewer : ∀ opened, refused opened ⊆ other opened) {text : List Char} {before after : WordReader}
    (read : text.foldlM (step other) before = some after) :
    text.foldlM (step refused) before = some after := by
  induction text generalizing before with
  | nil => exact read
  | cons ch rest ih =>
    rw [List.foldlM_cons, Option.bind_eq_bind, Option.bind_eq_some_iff] at read ⊢
    obtain ⟨next, stepped, read⟩ := read
    refine ⟨next, ?_, ih read⟩
    cases inName : isNameChar ch with
    | true => rwa [step_of_isNameChar inName] at stepped ⊢
    | false =>
      rw [step_eq_some_iff inName] at stepped ⊢
      exact ⟨fun refuses => stepped.1 (fewer _ refuses), stepped.2⟩

end WordReader

/-- A text is read to its end, the last word included, from the beginning of a word. -/
def Reads (refused : Bool → List (List Char)) (before : Bool) (text : List Char) (after : Bool) :
    Prop :=
  ∃ word, text.foldlM (WordReader.step refused) ⟨before, []⟩ = some ⟨after, word⟩ ∧
    word ∉ refused after

namespace Reads

variable {refused : Bool → List (List Char)} {before middle after : Bool}

/-- A single word is read to its end unless it is refused. -/
theorem word {text : List Char} (inName : ∀ ch ∈ text, isNameChar ch = true)
    (allowed : text ∉ refused before) : Reads refused before text before :=
  ⟨text, WordReader.foldlM_word inName before [], allowed⟩

/-- A text that is read is read by whoever refuses less. -/
theorem mono {other : Bool → List (List Char)} (fewer : ∀ opened, refused opened ⊆ other opened)
    {text : List Char} (reads : Reads other before text after) :
    Reads refused before text after := by
  obtain ⟨last, read, allowed⟩ := reads
  exact ⟨last, WordReader.foldlM_mono fewer read, fun refuses => allowed (fewer after refuses)⟩

/-- Two texts are read one behind the other when a character that is in no name stands between
them. -/
theorem join {left right : List Char} {ch : Char} (first : Reads refused before left middle)
    (ends : isNameChar ch = false) (second : Reads refused (openedAfter middle ch) right after) :
    Reads refused before (left ++ ch :: right) after := by
  obtain ⟨word, read, allowed⟩ := first
  obtain ⟨last, readOn, allowedLast⟩ := second
  refine ⟨last, ?_, allowedLast⟩
  have stepped : WordReader.step refused ⟨middle, word⟩ ch = some ⟨openedAfter middle ch, []⟩ :=
    (WordReader.step_eq_some_iff ends).2 ⟨allowed, rfl⟩
  rw [List.foldlM_append, read]
  change (ch :: right).foldlM (WordReader.step refused) ⟨middle, word⟩ = _
  rw [List.foldlM_cons, stepped]
  exact readOn

/-- What stands behind the end of a word is read from the beginning of a word. -/
theorem behind {front back : List Char} {ch : Char} (ends : isNameChar ch = false)
    (reads : Reads refused before (front ++ ch :: back) after) :
    ∃ reader, front.foldlM (WordReader.step refused) ⟨before, []⟩ = some reader ∧
      Reads refused (openedAfter reader.opened ch) back after := by
  obtain ⟨last, read, allowed⟩ := reads
  rw [List.foldlM_append, Option.bind_eq_bind, Option.bind_eq_some_iff] at read
  obtain ⟨reader, readFront, read⟩ := read
  rw [List.foldlM_cons, Option.bind_eq_bind, Option.bind_eq_some_iff] at read
  obtain ⟨next, stepped, read⟩ := read
  obtain ⟨-, rfl⟩ := (WordReader.step_eq_some_iff ends).1 stepped
  exact ⟨reader, readFront, last, read, allowed⟩

/-- Blanks at the beginning of a line change nothing. -/
theorem behind_blanks {count : Nat} {back : List Char}
    (reads : Reads refused false (List.replicate count ' ' ++ back) after) :
    Reads refused false back after := by
  induction count with
  | zero => exact reads
  | succ count ih =>
    change Reads refused false ([] ++ ' ' :: (List.replicate count ' ' ++ back)) after at reads
    obtain ⟨reader, readNone, reads⟩ := reads.behind rfl
    obtain rfl := Option.some.inj readNone
    exact ih reads

/-- No refused word is read at the beginning of a text. -/
theorem notMem {text back : List Char} (inName : ∀ ch ∈ text, isNameChar ch = true)
    (ends : ∀ ch ∈ back.head?, isNameChar ch = false)
    (reads : Reads refused before (text ++ back) after) : text ∉ refused before := by
  obtain ⟨last, read, allowed⟩ := reads
  rw [List.foldlM_append, WordReader.foldlM_word inName] at read
  change back.foldlM (WordReader.step refused) ⟨before, text⟩ = _ at read
  cases back with
  | nil =>
    obtain ⟨rfl, rfl⟩ := WordReader.mk.inj (Option.some.inj read)
    exact allowed
  | cons ch rest =>
    rw [List.foldlM_cons, Option.bind_eq_bind, Option.bind_eq_some_iff] at read
    obtain ⟨next, stepped, -⟩ := read
    exact ((WordReader.step_eq_some_iff (ends ch rfl)).1 stepped).1

/-- A word that is refused everywhere is no token of the text. -/
theorem not_hasToken {text word : String} (inName : AllChars isNameChar word)
    (refuses : ∀ opened, word.toList ∈ refused opened)
    (reads : Reads refused before text.toList after) : ¬HasToken text word := by
  rintro ⟨front, back, split, startsWord, endsWord⟩
  rw [split] at reads
  rcases front.eq_nil_or_concat' with rfl | ⟨earlier, ch, rfl⟩
  · exact reads.notMem inName endsWord (refuses before)
  · rw [← List.append_cons] at reads
    obtain ⟨reader, -, reads⟩ := reads.behind (startsWord ch (by simp))
    exact reads.notMem inName endsWord (refuses _)

/-- A word that is refused where no round bracket is open begins no line, whatever the
indentation. -/
theorem not_hasLine {text word : String} (inName : AllChars isNameChar word)
    (refuses : word.toList ∈ refused false) (reads : Reads refused false text.toList after)
    (depth : Nat) : ¬HasLine text (indentation depth ++ (word ++ " ")) := by
  rintro ⟨front, back, split, startsLine⟩
  rw [split] at reads
  have atLine :
      Reads refused false ((indentation depth ++ (word ++ " ")).toList ++ back) after := by
    rcases front.eq_nil_or_concat' with rfl | ⟨earlier, ch, rfl⟩
    · exact reads
    · -- A line end takes back whatever bracket was opened in front of it.
      obtain rfl : ch = '\n' := startsLine ch (by simp)
      rw [← List.append_cons] at reads
      obtain ⟨reader, -, reads⟩ := reads.behind rfl
      rwa [openedAfter, bne_self_eq_false, Bool.and_false] at reads
  have indented : (indentation depth ++ (word ++ " ")).toList ++ back =
      List.replicate (4 * depth) ' ' ++ (word.toList ++ ' ' :: back) := by
    simp [indentation]
  rw [indented] at atLine
  refine atLine.behind_blanks.notMem inName (fun ch first => ?_) refuses
  obtain rfl := Option.some.inj first
  rfl

end Reads

/-! ## Texts that pass -/

/-- A text that is read to its end. Outside round brackets it is so whatever the line has in front;
within them a bracket has been opened and the line goes on. -/
def Passes (refused : Bool → List (List Char)) : Place → List Char → Prop
  | .outside, text => ∀ before, ∃ after, Reads refused before text after
  | .enclosed, text => Reads refused true text true

namespace Passes

variable {refused : Bool → List (List Char)} {place : Place}

/-- A word that is refused nowhere passes wherever it stands. -/
theorem word {text : List Char} (inName : ∀ ch ∈ text, isNameChar ch = true)
    (allowed : ∀ opened, text ∉ refused opened) : Passes refused place text := by
  cases place with
  | outside => exact fun before => ⟨before, .word inName (allowed before)⟩
  | enclosed => exact .word inName (allowed true)

/-- A text that passes does so where less is refused. -/
theorem mono {other : Bool → List (List Char)} (fewer : ∀ opened, refused opened ⊆ other opened)
    {text : List Char} (passes : Passes other place text) : Passes refused place text := by
  cases place with
  | outside =>
    intro before
    obtain ⟨after, reads⟩ := passes before
    exact ⟨after, reads.mono fewer⟩
  | enclosed => exact Reads.mono fewer passes

/-- A character that neither opens a round bracket nor ends a line joins two texts. -/
theorem join {left right : List Char} {ch : Char} (first : Passes refused place left)
    (ends : isNameChar ch = false) (kept : ∀ opened, openedAfter opened ch = opened)
    (second : Passes refused place right) : Passes refused place (left ++ ch :: right) := by
  cases place with
  | outside =>
    intro before
    obtain ⟨middle, first⟩ := first before
    obtain ⟨after, second⟩ := second middle
    exact ⟨after, first.join ends ((kept middle).symm ▸ second)⟩
  | enclosed => exact Reads.join first ends ((kept true).symm ▸ second)

/-- What stands between round brackets has to pass behind an opened one only. -/
theorem round {before inner after : List Char} (front : Passes refused place before)
    (between : Passes refused .enclosed inner) (back : Passes refused place after) :
    Passes refused place (before ++ '(' :: (inner ++ ')' :: after)) := by
  have opens (opened : Bool) : openedAfter opened '(' = true := by cases opened <;> rfl
  cases place with
  | outside =>
    intro start
    obtain ⟨middle, front⟩ := front start
    -- The line stays opened behind the closing bracket.
    obtain ⟨last, back⟩ := back true
    exact ⟨last, front.join rfl ((opens middle).symm ▸ Reads.join between rfl back)⟩
  | enclosed => exact Reads.join front rfl (Reads.join between rfl back)

/-- Outside round brackets any character that is in no name joins two texts. -/
theorem join_outside {left right : List Char} {ch : Char} (first : Passes refused .outside left)
    (ends : isNameChar ch = false) (second : Passes refused .outside right) :
    Passes refused .outside (left ++ ch :: right) := by
  intro before
  obtain ⟨middle, first⟩ := first before
  obtain ⟨after, second⟩ := second (openedAfter middle ch)
  exact ⟨after, first.join ends second⟩

end Passes

/-- A mark is in no name. -/
theorem isNameChar_of_isMark {ch : Char} (mark : isMark ch = true) : isNameChar ch = false := by
  simp only [isMark, Bool.and_eq_true, Bool.not_eq_true'] at mark
  exact mark.1.1

/-- Whether a bracket is opened on the line changes at an opening bracket and at a line end only. -/
theorem openedAfter_of_ne {ch : Char} (noBracket : ch ≠ '(') (noEnd : ch ≠ '\n') (opened : Bool) :
    openedAfter opened ch = opened := by
  rw [openedAfter, beq_eq_false_iff_ne.2 noBracket, bne_iff_ne.2 noEnd, Bool.or_false,
    Bool.and_true]

/-- A mark neither opens a bracket nor ends a line. -/
theorem openedAfter_of_isMark {ch : Char} (mark : isMark ch = true) (opened : Bool) :
    openedAfter opened ch = opened := by
  have others : isMark '(' = false ∧ isMark '\n' = false := by decide
  refine openedAfter_of_ne ?_ ?_ opened
  · rintro rfl
    exact Bool.false_ne_true (others.1.symm.trans mark)
  · rintro rfl
    exact Bool.false_ne_true (others.2.symm.trans mark)

/-- What is woven from pieces that pass passes. -/
theorem Woven.passes {refused : Bool → List (List Char)} (quiet : ∀ opened, [] ∉ refused opened)
    {place : Place} {text : List Char}
    (woven : Woven (fun place piece => Passes refused place piece.toList) place text) :
    Passes refused place text := by
  induction woven with
  | empty => exact .word (List.forall_mem_nil _) quiet
  | piece passes => exact passes
  | mark ch mark _ _ first second =>
    exact first.join (isNameChar_of_isMark mark) (openedAfter_of_isMark mark) second
  | round _ _ _ front between back => exact .round front between back
  | square _ _ _ front between back =>
    exact front.join rfl (openedAfter_of_ne (by decide) (by decide))
      (between.join rfl (openedAfter_of_ne (by decide) (by decide)) back)
  | curly _ _ _ front between back =>
    exact front.join rfl (openedAfter_of_ne (by decide) (by decide))
      (between.join rfl (openedAfter_of_ne (by decide) (by decide)) back)
  | lineEnd _ _ front back => exact front.join_outside rfl back

/-! ## Plain words -/

/-- The words by which one of the generations declares its interface. -/
def qualifierWords : List String :=
  ["attribute", "varying", "in", "out", "inout", "layout"]

/-- The words that texts are read for: the qualifiers and the discard. -/
def markedWords : List String :=
  qualifierWords ++ ["discard"]

/-- The marked words by their characters, refused wherever they stand. -/
def markedChars (_ : Bool) : List (List Char) :=
  markedWords.map String.toList

/-- A name that is no marked word. -/
structure IsPlain (word : String) : Prop where
  chars : AllChars isNameChar word
  notMem : word ∉ markedWords

instance (word : String) : Decidable (IsPlain word) :=
  decidable_of_iff (AllChars isNameChar word ∧ word ∉ markedWords)
    ⟨fun holds => ⟨holds.1, holds.2⟩, fun plain => ⟨plain.chars, plain.notMem⟩⟩

/-- A digit is no small letter. -/
theorem isLower_of_isDigit {ch : Char} (digit : ch.isDigit = true) : ch.isLower = false := by
  have order : '9'.val.toNat < 'a'.val.toNat := by decide
  change (decide ('a'.val ≤ ch.val) && decide (ch.val ≤ 'z'.val)) = false
  simp only [Char.isDigit, Bool.and_eq_true, decide_eq_true_eq, ge_iff_le, Bool.and_eq_false_imp,
    decide_eq_false_iff_not, UInt32.le_iff_toNat_le] at digit ⊢
  omega

namespace IsPlain

/-- A plain word passes wherever it stands. -/
theorem passes {word : String} (plain : IsPlain word) (place : Place) :
    Passes markedChars place word.toList := by
  refine .word plain.chars fun opened refuses => ?_
  obtain ⟨other, listed, same⟩ := List.mem_map.1 refuses
  rw [String.toList_inj] at same
  exact plain.notMem (same ▸ listed)

/-- Marked words are written in small letters only. -/
theorem of_mem {word : String} (chars : AllChars isNameChar word) {ch : Char}
    (inside : ch ∈ word.toList) (other : ch.isLower = false) : IsPlain word where
  chars := chars
  notMem listed := by
    have small : ∀ word ∈ markedWords, AllChars Char.isLower word := by decide
    exact Bool.false_ne_true (other.symm.trans (small word listed ch inside))

/-- Digits are a plain word. -/
theorem of_digits {word : String} (digits : AllChars Char.isDigit word) : IsPlain word := by
  have chars : AllChars isNameChar word := fun ch inside =>
    isNameChar_of_isDigit (digits ch inside)
  cases word.toList.eq_nil_or_concat' with
  | inl empty =>
    rw [String.toList_eq_nil_iff] at empty
    exact ⟨chars, by rw [empty]; decide⟩
  | inr filled =>
    obtain ⟨front, ch, split⟩ := filled
    have inside : ch ∈ word.toList := by simp [split]
    exact of_mem chars inside (isLower_of_isDigit (digits ch inside))

/-- A name that ends in a number is plain. -/
theorem append_number {front : String} (starts : AllChars isNameChar front) (n : Nat) :
    IsPlain (front ++ toString n) := by
  obtain ⟨ch, inside⟩ := List.exists_mem_of_ne_nil _ (isWord_toString n).nonempty
  have digits := allDigits_toString n
  have written : ch ∈ (front ++ toString n).toList := by
    rw [String.toList_append]
    exact List.mem_append_right _ inside
  exact of_mem (starts.append (of_digits digits).chars) written
    (isLower_of_isDigit (digits ch inside))

end IsPlain

/-! ## What is written whatever the shader -/

/-- Whether a text is read to its end, by reading it. -/
theorem Passes.of_read {refused : Bool → List (List Char)} {chars : List Char}
    (read : ∀ before, (chars.foldlM (WordReader.step refused) ⟨before, []⟩).any
      (fun reader => reader.word ∉ refused reader.opened) = true) :
    Passes refused .outside (String.ofList chars).toList := by
  intro before
  obtain ⟨reader, isRead, allowed⟩ := (Option.any_eq_true _ _).1 (read before)
  rw [String.toList_ofList]
  exact ⟨reader.opened, reader.word, isRead, of_decide_eq_true allowed⟩

/-- No line in front of a text has a marked word. -/
theorem Profile.preamble_passes (profile : Profile) :
    ∀ line ∈ profile.dialect.fullest.preamble Feature.all,
      Passes markedChars .outside line.toList := by
  -- Each line of the fullest preamble is read by itself.
  cases profile.dialect
  all_goals
    repeat refine List.forall_mem_cons.2 ⟨Passes.of_read (by decide), ?_⟩
    exact List.forall_mem_nil _

section Vocabulary

variable {Piece : Place → String → Prop}
  (plain : ∀ word, IsPlain word → ∀ place, Piece place word)
  (woven : ∀ place text, Woven Piece place text.toList → Piece place text)

include plain woven

/-- Digits around a point are a piece as soon as plain words and whatever is woven from pieces
are. -/
theorem IsPlain.decimal (place : Place) (whole part : String) (first : AllChars Char.isDigit whole)
    (second : AllChars Char.isDigit part) : Piece place (whole ++ "." ++ part) :=
  woven _ _ (.decimal (plain whole (.of_digits first) place) (plain part (.of_digits second) place))

/-- The words of the language are pieces: each is a plain word or a decimal. -/
theorem IsPlain.language {word : String} (fixed : Glsl.LanguageWord word) (place : Place) :
    Piece place word := by
  have holds {word : String} (isPlain : IsPlain word) : Piece place word := plain word isPlain place
  refine fixed.induct (fun base => ?_) (fun entry listed word possible => ?_)
    (fun entry listed => ?_) ?_
  · unfold BaseType.spelling
    split <;> exact holds (by decide)
  · have table : ∀ entry ∈ intrinsics, ∀ word ∈ entry.2.words, IsPlain word := by
      decide +kernel
    exact holds (table entry listed word possible)
  · have table : ∀ entry ∈ builtInSemantics, IsPlain entry.2 := by decide +kernel
    exact holds (table entry listed)
  · have zero : Piece place "0.0" :=
      IsPlain.decimal plain woven place "0" "0" (by decide) (by decide)
    have one : Piece place "1.0" :=
      IsPlain.decimal plain woven place "1" "0" (by decide) (by decide)
    simp only [List.forall_mem_cons]
    exact ⟨holds (by decide), zero, one, holds (by decide), List.forall_mem_nil _⟩

/-- Pieces that include the plain words and whatever is woven from pieces include all that a text is
written with, as soon as they include the ways to pass a parameter and the words of the shader. -/
theorem IsPlain.vocabulary {Word : String → Prop}
    (passing : ∀ text ∈ ["in", "inout", "out"], Piece .enclosed text)
    (copied : ∀ text, Word text → ∀ place, Piece place text)
    (interface : ∀ text, Word text → ∀ start ∈ ["attr_", "var_"], ∀ place,
      Piece place (start ++ text)) : Vocabulary Word Piece where
  word text listed := by
    have table : ∀ text ∈ commonWords, IsPlain text := by decide +kernel
    exact plain text (table text listed)
  language _ fixed := IsPlain.language plain woven fixed
  numeral text digits := plain text (.of_digits digits)
  passing := passing
  copied := copied
  interface := interface
  aliases base needed n := by
    have table : ∀ base ∈ aliasBases, AllChars isNameChar base := by decide +kernel
    exact plain _ (.append_number (table base needed) n)
  texture stage unit := by
    have front : AllChars isNameChar (stage.word ++ "Texture") := by cases stage <;> decide
    exact plain _ (.append_number front unit)
  color generation several slot place := by
    cases generation <;> cases several
    · exact plain "gl_FragColor" (by decide) place
    · have array : Piece place "gl_FragData" := plain _ (by decide) place
      have number : Piece place (toString slot) :=
        plain _ (.of_digits (allDigits_toString slot)) place
      refine woven _ _ ?_
      rw [toList_colorVariable_several]
      exact (Woven.piece array).square (.piece number) .empty
    · exact plain "out_FragColor0" (by decide) place
    · exact plain _ (.append_number (by decide) slot) place

end Vocabulary

/-! ## Refused qualifiers -/

/-- The words that a generation refuses on a line, before and behind its first round bracket. -/
def Generation.refused : Generation → Bool → List String
  | modern, _ => ["attribute", "varying"]
  | legacy, false => ["in", "out", "inout", "layout"]
  | legacy, true => []

/-- The refused words by their characters. -/
def Generation.refusedChars (generation : Generation) (opened : Bool) : List (List Char) :=
  (generation.refused opened).map String.toList

/-- A name that is no qualifier of either generation. -/
structure IsOrdinary (word : String) : Prop where
  chars : AllChars isNameChar word
  notMem : word ∉ qualifierWords

/-- A piece that passes in the texts of a generation. -/
def Generation.Admits (generation : Generation) (place : Place) (piece : String) : Prop :=
  Passes generation.refusedChars place piece.toList

/-- An identifier is made of characters of names. -/
theorem IsIdentifier.allNameChars {word : String} (identifier : IsIdentifier word) :
    AllChars isNameChar word := by
  intro ch inside
  simpa [isNameChar, or_assoc] using identifier.chars ch inside

namespace Generation

variable (generation : Generation)

/-- A word is refused by its characters exactly when it is refused. -/
theorem mem_refusedChars {generation : Generation} {opened : Bool} {word : String} :
    word.toList ∈ generation.refusedChars opened ↔ word ∈ generation.refused opened := by
  simp [refusedChars, String.toList_inj]

/-- Only qualifiers are refused. -/
theorem refused_subset (opened : Bool) : generation.refused opened ⊆ qualifierWords := by
  cases generation <;> cases opened <;> decide

/-- The empty word is never refused. -/
theorem nil_notMem (opened : Bool) : [] ∉ generation.refusedChars opened := by
  cases generation <;> cases opened <;> decide

/-- What has no marked word is admitted by both generations. -/
theorem admits_of_marked {place : Place} {piece : String}
    (passes : Passes markedChars place piece.toList) : generation.Admits place piece :=
  passes.mono fun opened =>
    List.map_subset _ (List.subset_append_of_subset_left _ (generation.refused_subset opened))

/-- An ordinary word is admitted by both generations. -/
theorem admits_ordinary {word : String} (ordinary : IsOrdinary word) (place : Place) :
    generation.Admits place word :=
  .word ordinary.chars fun opened refuses =>
    ordinary.notMem (generation.refused_subset opened (mem_refusedChars.1 refuses))

/-- Whatever a text is woven from passes, given ordinary words. -/
theorem vocabulary : Vocabulary IsOrdinary generation.Admits := by
  have plain {word : String} (isPlain : IsPlain word) (place : Place) :
      generation.Admits place word :=
    generation.admits_of_marked (isPlain.passes place)
  refine IsPlain.vocabulary (fun _ => plain)
    (fun place text woven => Woven.passes generation.nil_notMem woven) (fun text listed => ?_)
    (fun text ordinary => generation.admits_ordinary ordinary) fun text ordinary start listed => ?_
  · have table : ∀ text ∈ ["in", "inout", "out"],
        AllChars isNameChar text ∧ text.toList ∉ generation.refusedChars true := by
      cases generation <;> decide
    exact Reads.word (table text listed).1 (table text listed).2
  · have table : ∀ start ∈ ["attr_", "var_"],
        AllChars isNameChar start ∧ '_' ∈ start.toList := by
      decide
    obtain ⟨starts, underscore⟩ := table start listed
    have written : '_' ∈ (start ++ text).toList := by
      rw [String.toList_append]
      exact List.mem_append_left _ underscore
    exact plain (.of_mem (starts.append ordinary.chars) written rfl)

end Generation

/-- The lines in front of a text and the qualifiers of its interface pass. -/
theorem Profile.generationPhrases (profile : Profile) :
    profile.Phrases profile.generation.Admits where
  preamble line listed := profile.generation.admits_of_marked (profile.preamble_passes line listed)
  qualifier qualifier listed := by
    obtain ⟨platform, requested, stage⟩ := profile
    have table : ∀ qualifier ∈
        [inputQualifier ⟨platform, requested, stage⟩, outputQualifier ⟨platform, requested, stage⟩],
        AllChars isNameChar qualifier.text ∧ ∀ opened, qualifier.text.toList ∉
          (generation ⟨platform, requested, stage⟩).refusedChars opened := by
      cases platform <;> cases requested <;> cases stage <;> decide
    exact .word (table qualifier listed).1 (table qualifier listed).2
  direction modern word listed := by
    have table : ∀ word ∈ ["layout", "inout", "out"],
        AllChars isNameChar word ∧
          ∀ opened, word.toList ∉ Generation.modern.refusedChars opened := by
      decide
    have same : profile.generation = .modern := by
      cases written : profile.generation with
      | legacy => simp [isLegacy, written] at modern
      | modern => rfl
    rw [same]
    exact .word (table word listed).1 (table word listed).2
  discard _ := profile.generation.admits_ordinary ⟨by decide, by decide⟩ .outside

/-! ## Generated texts -/

/-- In the texts of a shader whose strings are identifiers, and none of them a qualifier, the
qualifiers are those of the generation. A modern text has no token of the legacy ones. No line of a
legacy text begins with a modern one, whatever its indentation. The generation is the one that is
written, which is not the requested one on every platform. -/
theorem qualifiers_follow_generation {shader : Shader} {profile : Profile} {entryName : String}
    {output : Output} (words : ∀ word ∈ shader.tokens, IsIdentifier word ∧ word ∉ qualifierWords)
    (generated : generate shader profile entryName = .ok output) :
    (profile.generation = .modern →
      ∀ word ∈ ["attribute", "varying"], ¬HasToken output.text word) ∧
    (profile.generation = .legacy → ∀ word ∈ ["in", "out", "inout", "layout"], ∀ depth,
      ¬HasLine output.text (indentation depth ++ (word ++ " "))) := by
  have ordinary : ∀ word ∈ shader.tokens, IsOrdinary word := by
    intro word listed
    obtain ⟨identifier, notMem⟩ := words word listed
    exact ⟨identifier.allNameChars, notMem⟩
  obtain ⟨entry, names, run⟩ := generate_eq_ok_iff.1 generated
  have woven := profile.generation.vocabulary.woven_program profile.generationPhrases run.found
    run.chosen ordinary
  rw [← run.text] at woven
  obtain ⟨after, reads⟩ := woven.passes profile.generation.nil_notMem false
  have chars : ∀ word ∈ qualifierWords, AllChars isNameChar word := by decide
  have refuses {word : String} {opened : Bool} (listed : word ∈ profile.generation.refused opened) :
      word.toList ∈ profile.generation.refusedChars opened :=
    Generation.mem_refusedChars.2 listed
  constructor
  · intro modern word listed
    have everywhere (opened : Bool) : word ∈ profile.generation.refused opened := by rwa [modern]
    exact reads.not_hasToken (chars word (Generation.refused_subset _ false (everywhere false)))
      fun opened => refuses (everywhere opened)
  · intro legacy word listed
    have atStart : word ∈ profile.generation.refused false := by rwa [legacy]
    exact reads.not_hasLine (chars word (Generation.refused_subset _ false atStart))
      (refuses atStart)

/-- A vertex entry that takes a structure, beside a function with a parameter for its result. -/
def passedResult : Shader :=
  let vec4 := Ty.ofBase (.vector (.float .full) .four)
  let taken : Ty := ⟨.userDefined, some "Taken", false, none, false, false⟩
  let uv : Expr := .member (.identifier "i" taken) "uv" vec4
  [.struct ⟨"Taken", [⟨"uv", vec4, some "TEXCOORD0", none⟩]⟩,
  .function ⟨"scale", Ty.ofBase .void, none, [⟨"scaled", vec4, .inOut⟩]⟩ [],
  .function ⟨"main", Ty.ofBase .void, none, [⟨"i", taken, .plain⟩]⟩
    [.evaluate (.ofCall "scale" [uv] (Ty.ofBase .void))]]

/-- One platform writes the legacy generation where the modern one is requested. -/
theorem passedResult_qualified :
    ∃ modern legacy lines,
      generate passedResult ⟨.desktopOther, .modern, .vertex⟩ "main" = .ok modern ∧
      ¬HasToken modern.text "attribute" ∧ ¬HasToken modern.text "varying" ∧
      generate passedResult ⟨.desktopMac, .modern, .vertex⟩ "main" = .ok legacy ∧
      legacy.text = Line.renderAll lines ∧ ⟨0, "attribute vec4 attr_uv;"⟩ ∈ lines ∧
      ⟨0, "void scale(inout vec4 scaled) \x7b"⟩ ∈ lines ∧
      ∀ depth, ¬HasLine legacy.text (indentation depth ++ "inout ") := by
  have words : ∀ word ∈ Shader.tokens passedResult, IsIdentifier word ∧ word ∉ qualifierWords := by
    decide +kernel
  have modern : generate passedResult ⟨.desktopOther, .modern, .vertex⟩ "main" = .ok _ := rfl
  have legacy : generate passedResult ⟨.desktopMac, .modern, .vertex⟩ "main" = .ok _ := rfl
  have absent := (qualifiers_follow_generation words modern).1 rfl
  have first := (qualifiers_follow_generation words legacy).2 rfl
  exact ⟨_, _, _, modern, absent "attribute" (by decide), absent "varying" (by decide), legacy, rfl,
    by decide +kernel, by decide +kernel, first "inout" (by decide)⟩

end GlslText
