import GlslText.Interface.Slot
import Mathlib.Algebra.GroupWithZero.Nat
import Mathlib.Algebra.Order.BigOperators.Group.List
import Mathlib.Algebra.Order.Group.Nat
import Mathlib.Data.List.Forall2
import Mathlib.Data.List.Induction

/-!
# The grammar of slot semantics

The semantic of a colour output is a fixed word with letters in either case, alone or with decimal
digits behind it. Numerals and letters of either case are relations here, given without the
functions that read them. The reader of semantics accepts exactly the words that the relations
describe, whatever bytes its input is made of and however many digits it has.
-/

namespace GlslText

/-! ## Numerals -/

/-- One or more decimal digits and the number they stand for. Zeros in front are allowed. -/
inductive Numeral : List Char → Nat → Prop where
  | digit {d : Nat} (small : d < 10) : Numeral [d.digitChar] d
  | next {front : List Char} {n d : Nat} (numeral : Numeral front n) (small : d < 10) :
      Numeral (front ++ [d.digitChar]) (10 * n + d)

/-- A digit is the digit of a number below ten. -/
theorem exists_digitChar {ch : Char} (digit : ch.isDigit = true) :
    ∃ d < 10, d.digitChar = ch ∧ ch.toNat - '0'.toNat = d := by
  change (decide ((48 : UInt32) ≤ ch.val) && decide (ch.val ≤ (57 : UInt32))) = true at digit
  rw [Bool.and_eq_true, decide_eq_true_eq, decide_eq_true_eq, UInt32.le_iff_toNat_le,
    UInt32.le_iff_toNat_le] at digit
  change 48 ≤ ch.toNat ∧ ch.toNat ≤ 57 at digit
  have small : ch.toNat - 48 < 10 := by omega
  refine ⟨ch.toNat - 48, small, Char.toNat_inj.1 ?_, rfl⟩
  rw [Nat.toNat_digitChar_of_lt_ten small]
  omega

/-- One more digit multiplies the number by ten and adds the digit. -/
theorem ofDigitChars_snoc (front : List Char) {d : Nat} (small : d < 10) :
    Nat.ofDigitChars 10 (front ++ [d.digitChar]) 0 = 10 * Nat.ofDigitChars 10 front 0 + d := by
  rw [Nat.ofDigitChars_append, Nat.ofDigitChars_cons, Nat.ofDigitChars_nil,
    Nat.toNat_digitChar_of_lt_ten small]
  change _ + (48 + d - 48) = _
  omega

/-- A text of digits is a numeral of the number that is read from it. -/
theorem numeral_of_digits {chars : List Char} (nonempty : chars ≠ [])
    (digits : ∀ ch ∈ chars, ch.isDigit = true) : Numeral chars (Nat.ofDigitChars 10 chars 0) := by
  induction chars using List.reverseRecOn with
  | nil => exact absurd rfl nonempty
  | append_singleton front ch ih =>
    obtain ⟨d, small, rfl, -⟩ := exists_digitChar (digits ch (by simp))
    rw [ofDigitChars_snoc front small]
    by_cases alone : front = []
    · subst alone
      simpa using Numeral.digit small
    · exact .next (ih alone fun other inside => digits other (List.mem_append_left _ inside)) small

/-- Digits are read as the number they stand for, and nothing else is read. -/
theorem readDigits_eq_some_iff {chars : List Char} {n : Nat} :
    readDigits chars = some n ↔ Numeral chars n := by
  rw [readDigits, Option.ite_none_right_eq_some, List.all_eq_true, Option.some.injEq]
  constructor
  · rintro ⟨⟨nonempty, digits⟩, rfl⟩
    exact numeral_of_digits nonempty digits
  · intro numeral
    induction numeral with
    | digit small =>
      refine ⟨⟨List.cons_ne_nil _ _, ?_⟩, ?_⟩
      · intro ch inside
        rw [List.mem_singleton.1 inside, Nat.isDigit_digitChar]
        exact decide_eq_true small
      · simpa using ofDigitChars_snoc [] small
    | @next front n d numeral small ih =>
      obtain ⟨⟨-, digits⟩, read⟩ := ih
      refine ⟨⟨by simp, ?_⟩, by rw [ofDigitChars_snoc front small, read]⟩
      intro ch inside
      rcases List.mem_append.1 inside with before | last
      · exact digits ch before
      · rw [List.mem_singleton.1 last, Nat.isDigit_digitChar]
        exact decide_eq_true small

/-- A numeral has at least one digit. -/
theorem Numeral.ne_nil {chars : List Char} {n : Nat} (numeral : Numeral chars n) : chars ≠ [] := by
  cases numeral <;> simp

/-- The decimal form of a number: its numeral without zeros in front. -/
structure CanonicalNumeral (digits : List Char) (n : Nat) : Prop where
  numeral : Numeral digits n
  noZero : digits.head? = some '0' → digits = ['0']

/-- Numbers are written in their decimal form. -/
theorem canonicalNumeral_toString (n : Nat) : CanonicalNumeral (toString n).toList n := by
  rw [Nat.toString_eq_repr, Nat.toList_repr]
  have digits : ∀ ch ∈ Nat.toDigits 10 n, ch.isDigit = true :=
    fun _ => Nat.isDigit_of_mem_toDigits (by decide) (by decide)
  constructor
  · simpa using numeral_of_digits Nat.toDigits_ne_nil digits
  · clear digits
    induction n using Nat.strongRecOn with
    | ind n ih =>
      intro zero
      by_cases small : n < 10
      · rw [Nat.toDigits_of_lt_base small] at zero ⊢
        rw [Option.some.inj zero]
      · -- The digits in front are those of a smaller number that is not zero.
        have split := Nat.toDigits_of_base_le (by decide : 1 < 10) (Nat.le_of_not_lt small)
        rw [split, List.head?_append_of_ne_nil _ Nat.toDigits_ne_nil] at zero
        have front := ih (n / 10) (Nat.div_lt_self (by omega) (by decide)) zero
        have read : Nat.ofDigitChars 10 (Nat.toDigits 10 (n / 10)) 0 = n / 10 := by simp
        rw [front] at read
        change 0 = n / 10 at read
        omega

/-! ## Letters in either case -/

/-- A small letter of ASCII and its capital. -/
def IsSmallOf (small capital : Char) : Prop :=
  'A'.toNat ≤ capital.toNat ∧ capital.toNat ≤ 'Z'.toNat ∧ small.toNat = capital.toNat + 32

/-- Two characters that are equal up to the case of ASCII letters. -/
def SameLetter (left right : Char) : Prop :=
  left = right ∨ IsSmallOf left right ∨ IsSmallOf right left

/-- Making a letter small moves the capitals and nothing else. -/
theorem toNat_toLower (ch : Char) :
    ch.toLower.toNat =
      if 'A'.toNat ≤ ch.toNat ∧ ch.toNat ≤ 'Z'.toNat then ch.toNat + 32 else ch.toNat := by
  unfold Char.toLower
  split
  · rename_i capital
    obtain ⟨low, high⟩ := capital
    change (65 : UInt32) ≤ ch.val at low
    change ch.val ≤ (90 : UInt32) at high
    rw [UInt32.le_iff_toNat_le, UInt32.toNat_ofNat] at low high
    change 65 ≤ ch.toNat at low
    change ch.toNat ≤ 90 at high
    rw [if_pos ⟨low, high⟩]
    change (ch.val + 32).toNat = ch.val.toNat + 32
    rw [UInt32.toNat_add]
    change (ch.toNat + 32) % 4294967296 = ch.toNat + 32
    omega
  · rename_i other
    rw [if_neg fun capital => other ⟨UInt32.le_iff_toNat_le.2 capital.1,
      UInt32.le_iff_toNat_le.2 capital.2⟩]

/-- Two characters are the same letter exactly when their small letters are equal. -/
theorem sameLetter_iff {left right : Char} :
    SameLetter left right ↔ left.toLower = right.toLower := by
  have capital : 'A'.toNat = 65 ∧ 'Z'.toNat = 90 := by decide
  rw [SameLetter, IsSmallOf, IsSmallOf, ← Char.toNat_inj, ← Char.toNat_inj, toNat_toLower,
    toNat_toLower, capital.1, capital.2]
  split <;> split <;> omega

/-- Texts that spell each other character by character are those with equal folds. -/
theorem forall₂_sameLetter_iff {left right : List Char} :
    List.Forall₂ SameLetter left right ↔ left.map Char.toLower = right.map Char.toLower := by
  rw [← List.forall₂_eq_eq_eq, List.forall₂_map_left_iff, List.forall₂_map_right_iff]
  constructor
  · exact List.Forall₂.imp fun _ _ => sameLetter_iff.1
  · exact List.Forall₂.imp fun _ _ => sameLetter_iff.2

/-- Up to the case of letters only single bytes spell an ASCII text. -/
theorem utf8Size_of_sameLetter {left right : List Char} (same : List.Forall₂ SameLetter left right)
    (ascii : right.all (fun ch => decide (ch.toNat < 128)) = true) :
    ∀ ch ∈ left, ch.utf8Size = 1 := by
  have limit : 'Z'.toNat = 90 := by decide
  induction same with
  | nil => simp
  | @cons first capital rest capitals letter later ih =>
    rw [List.all_cons, Bool.and_eq_true, decide_eq_true_eq] at ascii
    intro ch inside
    rcases List.mem_cons.1 inside with rfl | inside
    · rw [Char.utf8Size_eq_one_iff, UInt32.le_iff_toNat_le]
      change ch.toNat ≤ 127
      rcases letter with rfl | ⟨-, capital, small⟩ | ⟨-, capital, -⟩ <;> omega
    · exact ih ascii.2 ch inside

/-- The bytes of a text are those of its characters. -/
theorem utf8ByteSize_eq_sum (text : String) :
    text.utf8ByteSize = (text.toList.map Char.utf8Size).sum := by
  obtain ⟨chars, rfl⟩ : ∃ chars, text = String.ofList chars := ⟨text.toList, by simp⟩
  induction chars using List.reverseRecOn with
  | nil => rfl
  | append_singleton front ch ih =>
    have pushed : String.ofList (front ++ [ch]) = (String.ofList front).push ch := by
      rw [← String.toList_inj]
      simp
    rw [pushed, String.utf8ByteSize_push, ih]
    simp

/-! ## Semantics of colour outputs -/

namespace Slot

/-- The nine characters that every slot semantic starts with, letters in either case. -/
def Spells (chars : List Char) : Prop :=
  List.Forall₂ SameLetter chars "SV_TARGET".toList

/-- The start of every slot semantic is nine characters long. -/
theorem Spells.length_eq {chars : List Char} (spells : Spells chars) : chars.length = 9 :=
  List.Forall₂.length_eq spells

/-- No character that starts in the first nine bytes ends behind them. -/
theorem Spells.not_across {head rest : List Char} (spells : Spells head) {before after : String}
    {ch : Char} (split : (before.push ch ++ after).toList = head ++ rest)
    (starts : before.utf8ByteSize < 9) : (before.push ch).utf8ByteSize ≤ 9 := by
  have bytes : (head.map Char.utf8Size).sum = 9 := by
    have single : ∀ size ∈ head.map Char.utf8Size, size = 1 := by
      intro size listed
      obtain ⟨ch, inside, rfl⟩ := List.mem_map.1 listed
      exact utf8Size_of_sameLetter spells (by decide) ch inside
    rw [List.sum_eq_card_nsmul _ 1 single, List.length_map, spells.length_eq]
    rfl
  -- Fewer bytes are fewer characters, so the character is one of the nine.
  have inside : before.toList ++ [ch] <+: head := by
    have short : before.toList.length ≤ (before.toList.map Char.utf8Size).sum := by
      rw [← List.length_map Char.utf8Size]
      refine List.length_le_sum_of_one_le _ fun size listed => ?_
      obtain ⟨ch, -, rfl⟩ := List.mem_map.1 listed
      exact ch.utf8Size_pos
    rw [← utf8ByteSize_eq_sum] at short
    have pushed : before.toList ++ [ch] <+: head ++ rest := ⟨after.toList, by simp [← split]⟩
    refine List.prefix_of_prefix_length_le pushed (List.prefix_append head rest) ?_
    rw [spells.length_eq, List.length_append, List.length_singleton]
    omega
  rw [utf8ByteSize_eq_sum, String.toList_push, ← bytes]
  exact (inside.sublist.map _).sum_le_sum fun _ _ => Nat.zero_le _

/-- The slot that a text names by the grammar. -/
inductive Names : List Char → Slot → Prop where
  | canonical {head : List Char} (spells : Spells head) : Names head .canonical
  | indexed {head digits : List Char} {index : Fin slotCount} (spells : Spells head)
      (numeral : Numeral digits index) : Names (head ++ digits) (.indexed index)

/-- What stands behind the nine characters decides the slot. -/
theorem ofSemantic?_of_spells {semantic : String} {head rest : List Char}
    (split : semantic.toList = head ++ rest) (spells : Spells head) :
    ofSemantic? semantic =
      if rest = [] then some canonical
      else (readDigits rest).bind fun n =>
        if h : n < slotCount then some (indexed ⟨n, h⟩) else none := by
  have taken : semantic.toList.take word.length = head := by
    rw [split]
    exact List.take_left' spells.length_eq
  have dropped : semantic.toList.drop word.length = rest := by
    rw [split]
    exact List.drop_left' spells.length_eq
  simp only [ofSemantic?, taken, dropped]
  rw [if_pos]
  exact forall₂_sameLetter_iff.1 spells

/-- Every semantic that names a slot starts with the nine characters. -/
theorem exists_spells {semantic : String} {slot : Slot} (found : ofSemantic? semantic = some slot) :
    ∃ head rest, semantic.toList = head ++ rest ∧ Spells head := by
  simp only [ofSemantic?, Option.ite_none_right_eq_some] at found
  exact ⟨_, _, (List.take_append_drop word.length _).symm, forall₂_sameLetter_iff.2 found.1⟩

/-- A semantic is read as the slot that it names by the grammar. -/
theorem ofSemantic?_eq_some_iff {semantic : String} {slot : Slot} :
    ofSemantic? semantic = some slot ↔ Names semantic.toList slot := by
  constructor
  · intro found
    obtain ⟨head, rest, split, spells⟩ := exists_spells found
    rw [ofSemantic?_of_spells split spells] at found
    split at found
    · rename_i alone
      obtain rfl := Option.some.inj found
      rw [split, alone, List.append_nil]
      exact .canonical spells
    · obtain ⟨n, read, found⟩ := Option.bind_eq_some_iff.1 found
      split at found
      · obtain rfl := Option.some.inj found
        rw [split]
        exact .indexed spells (readDigits_eq_some_iff.1 read)
      · cases found
  · intro named
    generalize whole : semantic.toList = chars at named
    cases named with
    | canonical spells =>
      have split : semantic.toList = chars ++ [] := by rw [whole, List.append_nil]
      rw [ofSemantic?_of_spells split spells, if_pos rfl]
    | @indexed head digits index spells numeral =>
      rw [ofSemantic?_of_spells whole spells, if_neg numeral.ne_nil,
        readDigits_eq_some_iff.2 numeral, Option.bind_some, dif_pos index.isLt]

/-- The canonical slot is named by the start alone. -/
theorem names_canonical_iff {chars : List Char} : Names chars .canonical ↔ Spells chars := by
  constructor
  · rintro ⟨spells⟩
    exact spells
  · exact .canonical

/-- An indexed slot is named by the start and the numeral of its index. -/
theorem names_indexed_iff {chars : List Char} {index : Fin slotCount} :
    Names chars (.indexed index) ↔
      ∃ head digits, chars = head ++ digits ∧ Spells head ∧ Numeral digits index := by
  constructor
  · intro named
    cases named with
    | indexed spells numeral => exact ⟨_, _, rfl, spells, numeral⟩
  · rintro ⟨head, digits, rfl, spells, numeral⟩
    exact .indexed spells numeral

/-- A semantic with a number for which there is no colour output names nothing. -/
theorem ofSemantic?_of_large {semantic : String} {head digits : List Char} {n : Nat}
    (split : semantic.toList = head ++ digits) (spells : Spells head) (numeral : Numeral digits n)
    (large : slotCount ≤ n) : ofSemantic? semantic = none := by
  rw [ofSemantic?_of_spells split spells, if_neg numeral.ne_nil, readDigits_eq_some_iff.2 numeral,
    Option.bind_some, dif_neg (Nat.not_lt.2 large)]

/-- A semantic is the slot without a number exactly when it is the nine characters in any case. It
is the slot of a number exactly when a numeral of that number stands behind them. It is no slot
exactly when it is neither, and so when a character stands across the end of the ninth byte or when
the number does not fit in thirty-two bits. -/
theorem semantics_follow_grammar (semantic : String) :
    (ofSemantic? semantic = some .canonical ↔ Spells semantic.toList) ∧
    (∀ index : Fin 8, ofSemantic? semantic = some (.indexed index) ↔
      ∃ head digits, semantic.toList = head ++ digits ∧ Spells head ∧ Numeral digits index) ∧
    (ofSemantic? semantic = none ↔ ¬Spells semantic.toList ∧
      ∀ head digits n, semantic.toList = head ++ digits → Spells head → Numeral digits n → 8 ≤ n) ∧
    (∀ (before : String) (ch : Char) (after : String), semantic = before.push ch ++ after →
      before.utf8ByteSize < 9 → 9 < (before.push ch).utf8ByteSize →
      ofSemantic? semantic = none) ∧
    ∀ head digits n, semantic.toList = head ++ digits → Spells head → Numeral digits n →
      UInt32.size ≤ n → ofSemantic? semantic = none := by
  have isCanonical : ofSemantic? semantic = some .canonical ↔ Spells semantic.toList :=
    ofSemantic?_eq_some_iff.trans names_canonical_iff
  have isIndexed (index : Fin 8) : ofSemantic? semantic = some (.indexed index) ↔
      ∃ head digits, semantic.toList = head ++ digits ∧ Spells head ∧ Numeral digits index :=
    ofSemantic?_eq_some_iff.trans names_indexed_iff
  refine ⟨isCanonical, isIndexed, ⟨fun refused => ⟨?_, ?_⟩, ?_⟩, ?_, ?_⟩
  · intro spells
    rw [isCanonical.2 spells] at refused
    cases refused
  · intro head digits n split spells numeral
    by_contra small
    rw [(isIndexed ⟨n, Nat.lt_of_not_le small⟩).2 ⟨head, digits, split, spells, numeral⟩] at refused
    cases refused
  · rintro ⟨other, large⟩
    refine Option.eq_none_iff_forall_ne_some.2 ?_
    rintro (_ | index) found
    · exact other (isCanonical.1 found)
    · obtain ⟨head, digits, split, spells, numeral⟩ := (isIndexed index).1 found
      exact absurd index.isLt (Nat.not_lt.2 (large head digits index split spells numeral))
  · rintro before ch after rfl starts ends
    refine Option.eq_none_iff_forall_ne_some.2 fun slot found => ?_
    obtain ⟨head, rest, split, spells⟩ := exists_spells found
    exact absurd ends (Nat.not_lt.2 (spells.not_across split starts))
  · intro head digits n split spells numeral large
    exact ofSemantic?_of_large split spells numeral (Nat.le_trans (by decide) large)

example : ofSemantic? "sv_Target0007" = some (.indexed 7) := by decide

end Slot

end GlslText
