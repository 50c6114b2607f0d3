import GlslText.Decimal.Binary32
import Mathlib.Algebra.Order.Field.Rat
import Mathlib.Order.Monotone.Basic
import Mathlib.Tactic.Linarith
import Mathlib.Tactic.Ring

/-!
# Rounding to the nearest binary32 word

A number is rounded to the nearest word: its sign is kept, its magnitude goes to the nearest one
that a finite word denotes, and of two equally near ones to the word whose last bit is zero. From
half a unit above the greatest finite word on there is no finite word to round to.

The words of one sign are numbered by their lower bits, and their magnitudes grow with the number.
So a magnitude rounds to a word exactly when it lies between the middles to the two neighbours,
which is what `Binary32.reads` tests.
-/

namespace GlslText.Binary32

/-! ## Rounding -/

/-- Whether a word denotes a number. -/
def isFinite (bits : UInt32) : Bool :=
  match ofBits bits with
  | finite _ _ _ => true
  | _ => false

/-- Whether the sign bit of a word is set. -/
def isNegative (bits : UInt32) : Bool :=
  decide (0x80000000 ≤ bits.toNat)

/-- The magnitude that a word denotes. -/
def absolute (bits : UInt32) : ℚ :=
  match ofBits bits with
  | finite _ mantissa exponent => magnitude mantissa exponent
  | _ => 0

/-- The number with the given sign and magnitude rounds to a finite word, to the nearest one and
from the middle between two to the even one. -/
structure RoundsTo (negative : Bool) (x : ℚ) (bits : UInt32) : Prop where
  finite : isFinite bits = true
  sign : isNegative bits = negative
  nearest : ∀ other, isFinite other = true → |x - absolute bits| ≤ |x - absolute other|
  even : ∀ other, isFinite other = true → absolute other ≠ absolute bits →
    |x - absolute other| = |x - absolute bits| → bits.toNat % 2 = 0
  inRange : x < (2 : ℚ) ^ (128 : ℤ) - (2 : ℚ) ^ (103 : ℤ)

/-! ## Words in the order of their magnitudes -/

/-- The lower bits of a word, without its sign. -/
def position (bits : UInt32) : Nat :=
  bits.toNat % 0x80000000

/-- How many words of one sign are finite. -/
def finiteCount : Nat := 0x7F800000

/-- The exponent field of the word at a position. -/
def fieldAt (n : Nat) : Nat :=
  n / leadingBit

/-- The mantissa of the word at a position; the words with the field zero have no leading bit. -/
def mantissaAt (n : Nat) : Nat :=
  if fieldAt n = 0 then n % leadingBit else leadingBit + n % leadingBit

/-- The exponent of the word at a position. -/
def exponentAt (n : Nat) : Int :=
  leastExponent + (fieldAt n - 1 : Nat)

/-- The magnitude of the word at a position. Behind the last finite word the scale goes on. -/
def magnitudeAt (n : Nat) : ℚ :=
  magnitude (mantissaAt n) (exponentAt n)

/-- The position of a word and its sign make the word. -/
theorem eq_of_position_eq {left right : UInt32} (samePosition : position left = position right)
    (sameSign : isNegative left = isNegative right) : left = right := by
  have leftBound := left.toNat_lt
  have rightBound := right.toNat_lt
  simp only [isNegative, decide_eq_decide] at sameSign
  simp only [position] at samePosition
  apply UInt32.toNat_inj.1
  omega

/-- What a word denotes, by its position. -/
theorem ofBits_eq (bits : UInt32) (inside : position bits < finiteCount) :
    ofBits bits =
      finite (isNegative bits) (mantissaAt (position bits)) (exponentAt (position bits)) := by
  have bound := bits.toNat_lt
  have sign : (bits.toNat / 0x80000000 == 1) = isNegative bits := by
    simp only [isNegative, beq_eq_decide, decide_eq_decide]
    omega
  have field : bits.toNat / leadingBit % 256 = fieldAt (position bits) := by
    simp only [fieldAt, position, leadingBit]
    omega
  have fraction : bits.toNat % leadingBit = position bits % leadingBit := by
    simp only [position, leadingBit]
    omega
  have notLast : fieldAt (position bits) ≠ 255 := by
    simp only [fieldAt, leadingBit, finiteCount] at inside ⊢
    omega
  simp only [ofBits, sign, field, fraction, if_neg notLast]
  by_cases least : fieldAt (position bits) = 0
  · simp [mantissaAt, exponentAt, least]
  · simp [mantissaAt, exponentAt, least]

/-- The finite words are those at the positions below the count. -/
theorem isFinite_iff (bits : UInt32) : isFinite bits = true ↔ position bits < finiteCount := by
  constructor
  · intro finite
    by_contra outside
    have bound := bits.toNat_lt
    have last : bits.toNat / leadingBit % 256 = 255 := by
      simp only [position, finiteCount, leadingBit] at outside ⊢
      omega
    simp only [isFinite, ofBits, last, if_true] at finite
    by_cases none : bits.toNat % leadingBit = 0
    · simp [none] at finite
    · simp [none] at finite
  · intro inside
    rw [isFinite, ofBits_eq bits inside]

/-- The magnitude of a finite word is the one at its position. -/
theorem absolute_eq {bits : UInt32} (finite : isFinite bits = true) :
    absolute bits = magnitudeAt (position bits) := by
  rw [absolute, ofBits_eq bits ((isFinite_iff bits).1 finite)]
  rfl

/-- Every position below the count has a word. -/
theorem exists_word {n : Nat} (inside : n < finiteCount) :
    ∃ bits, isFinite bits = true ∧ absolute bits = magnitudeAt n := by
  have here : position (UInt32.ofNat n) = n := by
    simp only [position, finiteCount, UInt32.toNat_ofNat'] at inside ⊢
    omega
  have finite : isFinite (UInt32.ofNat n) = true := by
    rw [isFinite_iff, here]
    exact inside
  exact ⟨UInt32.ofNat n, finite, by rw [absolute_eq finite, here]⟩

/-- The distance to the next word is the unit of the exponent. -/
theorem magnitudeAt_succ (n : Nat) :
    magnitudeAt (n + 1) = magnitudeAt n + (2 : ℚ) ^ exponentAt n := by
  by_cases sameField : n % leadingBit + 1 < leadingBit
  · -- The fraction grows by one.
    have field : fieldAt (n + 1) = fieldAt n := by
      simp only [fieldAt, leadingBit] at sameField ⊢
      omega
    have mantissa : mantissaAt (n + 1) = mantissaAt n + 1 := by
      simp only [mantissaAt, field, leadingBit] at sameField ⊢
      split <;> omega
    simp only [magnitudeAt, exponentAt, field, mantissa, magnitude]
    push_cast
    ring
  · -- The fraction is full, and the next word is a power of two.
    have field : fieldAt (n + 1) = fieldAt n + 1 := by
      simp only [fieldAt, leadingBit] at sameField ⊢
      omega
    have mantissa : mantissaAt (n + 1) = leadingBit := by
      rw [mantissaAt, field, if_neg (Nat.succ_ne_zero _)]
      simp only [leadingBit] at sameField ⊢
      omega
    by_cases least : fieldAt n = 0
    · have before : mantissaAt n + 1 = leadingBit := by
        simp only [mantissaAt, least, if_true, leadingBit] at sameField ⊢
        omega
      simp only [magnitudeAt, exponentAt, field, mantissa, least, magnitude, ← before]
      push_cast
      ring
    · have before : mantissaAt n + 1 = 2 * leadingBit := by
        simp only [mantissaAt, least, if_false, leadingBit] at sameField ⊢
        omega
      have exponent : exponentAt (n + 1) = exponentAt n + 1 := by
        simp only [exponentAt, field]
        omega
      have castBefore : (mantissaAt n : ℚ) + 1 = 2 * leadingBit := by exact_mod_cast before
      simp only [magnitudeAt, exponent, mantissa, magnitude]
      rw [zpow_add_one₀ (two_ne_zero), eq_sub_of_add_eq castBefore]
      ring

/-- The magnitudes grow with the position. -/
theorem magnitudeAt_strictMono : StrictMono magnitudeAt := by
  apply strictMono_nat_of_lt_succ
  intro n
  rw [magnitudeAt_succ]
  have unit : 0 < (2 : ℚ) ^ exponentAt n := zpow_pos two_pos _
  linarith

/-! ## Between the middles to the neighbours -/

/-- The middle between the word at a position and the next one. -/
def middle (n : Nat) : ℚ :=
  (magnitudeAt n + magnitudeAt (n + 1)) / 2

/-- The upper border of what reads back as a word is the middle to the next one. -/
theorem upperBorder_eq (n : Nat) : upperBorder (mantissaAt n) (exponentAt n) = middle n := by
  rw [middle, magnitudeAt_succ, upperBorder, magnitudeAt, magnitude, zpow_sub_one₀ two_ne_zero]
  ring

/-- Below a power of two the unit is half as large, unless that is the least normal word. -/
theorem exponentAt_eq_pred (n : Nat) :
    exponentAt n =
      if mantissaAt (n + 1) = leadingBit ∧ leastExponent < exponentAt (n + 1) then
        exponentAt (n + 1) - 1
      else
        exponentAt (n + 1) := by
  have power : (mantissaAt (n + 1) = leadingBit ∧ leastExponent < exponentAt (n + 1)) ↔
      (n + 1) % leadingBit = 0 ∧ 2 ≤ fieldAt (n + 1) := by
    simp only [mantissaAt, exponentAt]
    by_cases least : fieldAt (n + 1) = 0
    · simp only [least, if_true, leadingBit]
      omega
    · simp only [least, if_false]
      omega
  simp only [power]
  split
  · simp only [exponentAt, fieldAt, leadingBit] at *
    omega
  · simp only [exponentAt, fieldAt, leadingBit] at *
    omega

/-- The lower border of what reads back as a word is the middle from the one before. -/
theorem lowerBorder_eq (n : Nat) :
    lowerBorder (mantissaAt (n + 1)) (exponentAt (n + 1)) = middle n := by
  have before : magnitudeAt n = magnitudeAt (n + 1) - (2 : ℚ) ^ exponentAt n := by
    rw [magnitudeAt_succ]
    ring
  rw [middle, before, exponentAt_eq_pred n, lowerBorder, magnitudeAt, magnitude]
  split
  · have quarter : (2 : ℚ) ^ (exponentAt (n + 1) - 2) = (2 : ℚ) ^ exponentAt (n + 1) / 4 := by
      rw [zpow_sub₀ two_ne_zero]
      norm_num
    rw [quarter, zpow_sub_one₀ two_ne_zero]
    ring
  · rw [zpow_sub_one₀ two_ne_zero]
    ring

/-- The last bit of a word is the last bit of its mantissa. -/
theorem mantissaAt_mod_two (n : Nat) : mantissaAt n % 2 = n % 2 := by
  simp only [mantissaAt, leadingBit]
  split <;> omega

/-- A number reads back as a word when it lies between the middles to its neighbours, and on one of
them only if the word is even. -/
theorem reads_iff (n : Nat) (x : ℚ) :
    reads (mantissaAt (n + 1)) (exponentAt (n + 1)) x = true ↔
      (middle n ≤ x ∧ x ≤ middle (n + 1)) ∧
        ((n + 1) % 2 ≠ 0 → middle n ≠ x ∧ x ≠ middle (n + 1)) := by
  rw [reads, mantissaAt_mod_two, lowerBorder_eq, upperBorder_eq]
  by_cases even : (n + 1) % 2 = 0
  · simp [even]
  · simp only [even, if_false, decide_eq_true_eq, ne_eq, not_false_eq_true, true_implies]
    constructor
    · rintro ⟨above, below⟩
      exact ⟨⟨above.le, below.le⟩, above.ne, below.ne⟩
    · rintro ⟨⟨above, below⟩, notLow, notHigh⟩
      exact ⟨lt_of_le_of_ne above notLow, lt_of_le_of_ne below notHigh⟩

/-- Of two numbers the greater one is as near as the smaller one from their middle on. -/
theorem abs_sub_le_iff_middle_le {a b x : ℚ} (less : a < b) :
    |x - b| ≤ |x - a| ↔ (a + b) / 2 ≤ x := by
  rcases abs_cases (x - a) with ⟨left, _⟩ | ⟨left, _⟩ <;>
    rcases abs_cases (x - b) with ⟨right, _⟩ | ⟨right, _⟩ <;> rw [left, right] <;>
    constructor <;> intro <;> linarith

/-- Of two numbers the smaller one is as near as the greater one up to their middle. -/
theorem abs_sub_le_iff_le_middle {a b x : ℚ} (less : a < b) :
    |x - a| ≤ |x - b| ↔ x ≤ (a + b) / 2 := by
  rcases abs_cases (x - a) with ⟨left, _⟩ | ⟨left, _⟩ <;>
    rcases abs_cases (x - b) with ⟨right, _⟩ | ⟨right, _⟩ <;> rw [left, right] <;>
    constructor <;> intro <;> linarith

/-- Two numbers are equally near from their middle only. -/
theorem abs_sub_eq_iff_eq_middle {a b x : ℚ} (less : a < b) :
    |x - a| = |x - b| ↔ x = (a + b) / 2 := by
  rw [le_antisymm_iff, le_antisymm_iff, abs_sub_le_iff_le_middle less,
    abs_sub_le_iff_middle_le less]

/-- The range ends at the middle behind the last finite word. -/
theorem middle_last : middle (finiteCount - 1) = (2 : ℚ) ^ (128 : ℤ) - (2 : ℚ) ^ (103 : ℤ) := by
  rw [middle, magnitudeAt_succ, magnitudeAt, magnitude]
  have mantissa : mantissaAt (finiteCount - 1) = 0xFFFFFF := by decide
  have exponent : exponentAt (finiteCount - 1) = 104 := by decide
  rw [mantissa, exponent]
  norm_num

/-- The middles grow with the position. -/
theorem middle_strictMono : StrictMono middle := by
  intro left right less
  have first := magnitudeAt_strictMono less
  have second := magnitudeAt_strictMono (Nat.succ_lt_succ less)
  simp only [middle]
  linarith

/-! ## The test for reading back is rounding -/

/-- Rounding to a word, by its position among the finite ones. -/
theorem roundsTo_iff {negative : Bool} {x : ℚ} {bits : UInt32} (finite : isFinite bits = true) :
    RoundsTo negative x bits ↔
      isNegative bits = negative ∧ x < middle (finiteCount - 1) ∧
        (∀ k < finiteCount, |x - magnitudeAt (position bits)| ≤ |x - magnitudeAt k|) ∧
        ∀ k < finiteCount, k ≠ position bits →
          |x - magnitudeAt k| = |x - magnitudeAt (position bits)| → position bits % 2 = 0 := by
  have own := absolute_eq finite
  have lastBit : bits.toNat % 2 = position bits % 2 := by
    simp only [position]
    omega
  constructor
  · rintro ⟨-, sign, nearest, even, inRange⟩
    refine ⟨sign, middle_last ▸ inRange, ?_, ?_⟩
    · intro k inside
      obtain ⟨other, otherFinite, value⟩ := exists_word inside
      rw [← own, ← value]
      exact nearest other otherFinite
    · intro k inside apart tie
      obtain ⟨other, otherFinite, value⟩ := exists_word inside
      rw [← lastBit]
      rw [← own, ← value] at tie
      refine even other otherFinite ?_ tie
      rw [value, own]
      exact magnitudeAt_strictMono.injective.ne apart
  · rintro ⟨sign, inRange, nearest, even⟩
    refine ⟨finite, sign, ?_, ?_, middle_last ▸ inRange⟩
    · intro other otherFinite
      rw [own, absolute_eq otherFinite]
      exact nearest _ ((isFinite_iff other).1 otherFinite)
    · intro other otherFinite apart tie
      rw [lastBit]
      rw [own, absolute_eq otherFinite] at apart tie
      exact even _ ((isFinite_iff other).1 otherFinite) (fun same => apart (by rw [same])) tie

/-- A magnitude rounds to a word other than zero exactly when it reads back as that word. -/
theorem roundsTo_iff_reads {negative : Bool} {x : ℚ} {bits : UInt32} {n : Nat}
    (finite : isFinite bits = true) (here : position bits = n + 1) :
    RoundsTo negative x bits ↔
      isNegative bits = negative ∧
        reads (mantissaAt (n + 1)) (exponentAt (n + 1)) x = true := by
  have inside : n + 1 < finiteCount := here ▸ (isFinite_iff bits).1 finite
  rw [roundsTo_iff finite, here, reads_iff]
  refine and_congr_right fun _ => ?_
  constructor
  · rintro ⟨inRange, nearest, even⟩
    have below := magnitudeAt_strictMono n.lt_succ_self
    have above := magnitudeAt_strictMono (n + 1).lt_succ_self
    refine ⟨⟨?_, ?_⟩, fun odd => ⟨?_, ?_⟩⟩
    · exact (abs_sub_le_iff_middle_le below).1 (nearest n (Nat.lt_of_succ_lt inside))
    · by_cases last : n + 2 < finiteCount
      · exact (abs_sub_le_iff_le_middle above).1 (nearest (n + 2) last)
      · have atEnd : finiteCount - 1 = n + 1 := by omega
        exact (atEnd ▸ inRange).le
    · intro onMiddle
      have tie := (abs_sub_eq_iff_eq_middle below).2 onMiddle.symm
      exact odd (even n (Nat.lt_of_succ_lt inside) n.lt_succ_self.ne tie)
    · intro onMiddle
      by_cases last : n + 2 < finiteCount
      · have tie := (abs_sub_eq_iff_eq_middle above).2 onMiddle
        exact odd (even (n + 2) last (n + 1).lt_succ_self.ne' tie.symm)
      · have atEnd : finiteCount - 1 = n + 1 := by omega
        exact (atEnd ▸ inRange).ne onMiddle
  · rintro ⟨⟨lower, upper⟩, strict⟩
    -- Every other word lies beyond a neighbour, and so does the middle to it.
    have beyondLow {k : Nat} (less : k < n + 1) :
        (magnitudeAt k + magnitudeAt (n + 1)) / 2 ≤ middle n := by
      have := magnitudeAt_strictMono.monotone (Nat.le_of_lt_succ less)
      simp only [middle]
      linarith
    have beyondHigh {k : Nat} (greater : n + 1 < k) :
        middle (n + 1) ≤ (magnitudeAt (n + 1) + magnitudeAt k) / 2 := by
      have := magnitudeAt_strictMono.monotone (Nat.succ_le_of_lt greater)
      simp only [middle]
      linarith
    refine ⟨?_, ?_, ?_⟩
    · rcases Nat.lt_or_ge (n + 1) (finiteCount - 1) with before | atEnd
      · exact lt_of_le_of_lt upper (middle_strictMono before)
      · have last : n + 1 = finiteCount - 1 := by omega
        have odd : (n + 1) % 2 ≠ 0 := by
          rw [last]
          decide
        exact last ▸ lt_of_le_of_ne upper (strict odd).2
    · intro k _
      rcases Nat.lt_trichotomy k (n + 1) with less | rfl | greater
      · exact (abs_sub_le_iff_middle_le (magnitudeAt_strictMono less)).2
          ((beyondLow less).trans lower)
      · exact le_rfl
      · exact (abs_sub_le_iff_le_middle (magnitudeAt_strictMono greater)).2
          (upper.trans (beyondHigh greater))
    · intro k _ apart tie
      by_contra odd
      rcases Nat.lt_or_gt_of_ne apart with less | greater
      · have onMiddle := (abs_sub_eq_iff_eq_middle (magnitudeAt_strictMono less)).1 tie
        exact (strict odd).1 (le_antisymm lower (onMiddle ▸ beyondLow less))
      · have onMiddle := (abs_sub_eq_iff_eq_middle (magnitudeAt_strictMono greater)).1 tie.symm
        exact (strict odd).2 (le_antisymm upper (onMiddle ▸ beyondHigh greater))

/-- Zero rounds to the words at the position zero. -/
theorem roundsTo_zero {bits : UInt32} (here : position bits = 0) :
    RoundsTo (isNegative bits) 0 bits := by
  have finite : isFinite bits = true := by
    rw [isFinite_iff, here]
    decide
  have zero : absolute bits = 0 := by
    rw [absolute_eq finite, here, magnitudeAt, magnitude]
    have none : mantissaAt 0 = 0 := by decide
    rw [none, Nat.cast_zero, zero_mul]
  refine ⟨finite, rfl, ?_, ?_, by norm_num⟩
  · intro other _
    rw [zero, sub_zero, abs_zero]
    exact abs_nonneg _
  · intro other _ apart tie
    rw [zero, sub_zero, abs_zero, abs_eq_zero, sub_eq_zero] at tie
    exact absurd (tie.symm.trans zero.symm) apart

/-- A number rounds to one word at most. -/
theorem RoundsTo.unique {negative : Bool} {x : ℚ} {left right : UInt32}
    (first : RoundsTo negative x left) (second : RoundsTo negative x right) : left = right := by
  refine eq_of_position_eq ?_ (first.sign.trans second.sign.symm)
  obtain ⟨-, -, nearestLeft, evenLeft⟩ := (roundsTo_iff first.finite).1 first
  obtain ⟨-, -, nearestRight, evenRight⟩ := (roundsTo_iff second.finite).1 second
  have insideLeft := (isFinite_iff left).1 first.finite
  have insideRight := (isFinite_iff right).1 second.finite
  by_contra apart
  have tie := le_antisymm (nearestLeft _ insideRight) (nearestRight _ insideLeft)
  have even := evenLeft _ insideRight (Ne.symm apart) tie.symm
  have alsoEven := evenRight _ insideLeft apart tie
  -- Two even positions have another one between them, which is nearer to their middle.
  have nearer {low high : Nat} (less : low < high) (gap : low + 1 < high)
      (tie : |x - magnitudeAt low| = |x - magnitudeAt high|) :
      ¬ |x - magnitudeAt low| ≤ |x - magnitudeAt (low + 1)| := by
    rw [abs_sub_le_iff_le_middle (magnitudeAt_strictMono low.lt_succ_self),
      (abs_sub_eq_iff_eq_middle (magnitudeAt_strictMono less)).1 tie]
    have := magnitudeAt_strictMono gap
    linarith
  rcases Nat.lt_or_gt_of_ne apart with less | greater
  · exact nearer less (by omega) tie (nearestLeft _ (by omega))
  · exact nearer greater (by omega) tie.symm (nearestRight _ (by omega))

end GlslText.Binary32
