import GlslText.Glsl.Literal
import GlslText.Proofs.Rounding
import GlslText.Text.Digits
import Mathlib.Data.Rat.Floor

/-!
# Literals read back

A floating-point literal is written as the decimal on the coarsest grid that has one which rounds to
its word. The search for it goes from coarse grids to fine ones and ends on a grid that is finer
than the least distance of two words, where one of the two neighbours of the word always reads back.
Since an interval of magnitudes rounds to the word, a grid without a neighbour that reads back has
no decimal at all that does.

What is written is a sign, digits, a point and digits, and stands for exactly that decimal. So it
rounds to the word it was written for, and no other word is written in the same way.
-/

namespace GlslText

namespace Decimal

open Binary32

/-! ## Neighbours on a grid -/

/-- The step of a decimal grid is positive. -/
theorem pow_ten_pos (grid : Int) : 0 < (10 : ℚ) ^ grid :=
  zpow_pos (by norm_num) grid

/-- The next decimal of a grid is one step of the grid further. -/
theorem value_next (d : Decimal) : d.next.value = d.value + (10 : ℚ) ^ d.exponent := by
  simp only [value, next]
  push_cast
  ring

/-- A decimal lies on every finer grid too. -/
theorem value_eq_of_le {d : Decimal} {grid : Int} (finer : grid ≤ d.exponent) :
    d.value = value ⟨d.coefficient * Nat.pow 10 (d.exponent - grid).toNat, grid⟩ := by
  have power : (10 : ℚ) ^ d.exponent = (10 : ℚ) ^ (d.exponent - grid).toNat * (10 : ℚ) ^ grid := by
    rw [← zpow_natCast, Int.toNat_of_nonneg (by omega), ← zpow_add₀ (by norm_num), sub_add_cancel]
  have unit : ((Nat.pow 10 (d.exponent - grid).toNat : Nat) : ℚ) =
      10 ^ (d.exponent - grid).toNat := Nat.cast_pow 10 _
  simp only [value]
  rw [power, Nat.cast_mul, unit, mul_assoc]

/-- A magnitude lies between its neighbours. -/
theorem below_le_lt_next {x : ℚ} (nonneg : 0 ≤ x) (grid : Int) :
    (below x grid).value ≤ x ∧ x < (below x grid).next.value := by
  have unit := pow_ten_pos grid
  have scaled : 0 ≤ x / (10 : ℚ) ^ grid := div_nonneg nonneg unit.le
  have whole : ((x / (10 : ℚ) ^ grid).floor.toNat : ℚ) = (x / (10 : ℚ) ^ grid).floor := by
    have := Int.toNat_of_nonneg (Int.floor_nonneg.2 scaled)
    exact_mod_cast this
  have under : ((x / (10 : ℚ) ^ grid).floor : ℚ) ≤ x / (10 : ℚ) ^ grid := Int.floor_le _
  have beyond : x / (10 : ℚ) ^ grid < (x / (10 : ℚ) ^ grid).floor + 1 := Int.lt_floor_add_one _
  constructor
  · rw [le_div_iff₀ unit] at under
    simp only [value, below, whole]
    exact under
  · rw [div_lt_iff₀ unit, add_mul, one_mul] at beyond
    rw [value_next]
    simp only [value, below, whole]
    exact beyond

/-- What is found on a grid is on it and reads back. -/
theorem onGrid?_eq_some {mantissa : Nat} {exponent grid : Int} {d : Decimal}
    (found : onGrid? mantissa exponent grid = some d) :
    d.exponent = grid ∧ reads mantissa exponent d.value = true := by
  simp only [onGrid?] at found
  split at found
  · split at found
    · cases found
      exact ⟨rfl, by assumption⟩
    · cases found
      exact ⟨rfl, by assumption⟩
  · cases found
    exact ⟨rfl, by assumption⟩
  · cases found
    exact ⟨rfl, by assumption⟩
  · cases found

/-- Nothing is found on a grid only if neither neighbour reads back. -/
theorem onGrid?_eq_none {mantissa : Nat} {exponent grid : Int}
    (missing : onGrid? mantissa exponent grid = none) :
    reads mantissa exponent (below (magnitude mantissa exponent) grid).value = false ∧
      reads mantissa exponent (below (magnitude mantissa exponent) grid).next.value = false := by
  simp only [onGrid?] at missing
  split at missing
  · split at missing <;> cases missing
  · cases missing
  · cases missing
  · exact ⟨by assumption, by assumption⟩

/-! ## The search -/

/-- The search returns what it finds on the first grid that has a hit. -/
theorem firstHit_eq (mantissa : Nat) (exponent : Int) {fuel : Nat} {grid : Int}
    (hit : ∃ i < fuel, onGrid? mantissa exponent (grid - i) ≠ none) :
    ∃ i < fuel, onGrid? mantissa exponent (grid - i) = some (firstHit mantissa exponent grid fuel) ∧
      ∀ j < i, onGrid? mantissa exponent (grid - j) = none := by
  induction fuel generalizing grid with
  | zero =>
    obtain ⟨i, impossible, -⟩ := hit
    exact absurd impossible (Nat.not_lt_zero i)
  | succ fuel ih =>
    cases here : onGrid? mantissa exponent grid with
    | some d =>
      refine ⟨0, Nat.succ_pos fuel, ?_, fun j less => absurd less (Nat.not_lt_zero j)⟩
      simp [firstHit, here]
    | none =>
      have shift (i : Nat) : grid - 1 - i = grid - (i + 1 : Nat) := by
        push_cast
        ring
      have later : ∃ i < fuel, onGrid? mantissa exponent (grid - 1 - i) ≠ none := by
        obtain ⟨i, inside, found⟩ := hit
        cases i with
        | zero => exact absurd (by simpa using here) found
        | succ i => exact ⟨i, Nat.lt_of_succ_lt_succ inside, by rwa [shift]⟩
      obtain ⟨i, inside, found, before⟩ := ih later
      refine ⟨i + 1, Nat.succ_lt_succ inside, ?_, ?_⟩
      · rw [← shift, found, firstHit, here]
        rfl
      · intro j less
        cases j with
        | zero => simpa using here
        | succ j =>
          rw [← shift]
          exact before j (Nat.lt_of_succ_lt_succ less)

/-! ## What reads back as a word -/

/-- The middle of two magnitudes is half a unit above the lower one. -/
theorem middle_eq (n : Nat) : middle n = magnitudeAt n + (2 : ℚ) ^ exponentAt n / 2 := by
  rw [middle, magnitudeAt_succ]
  ring

/-- A word lies strictly between the middles to its neighbours, which are at least the least unit
apart. -/
theorem magnitudeAt_between (n : Nat) :
    middle n < magnitudeAt (n + 1) ∧ magnitudeAt (n + 1) < middle (n + 1) ∧
      (2 : ℚ) ^ leastExponent ≤ middle (n + 1) - middle n := by
  have least (k : Nat) : (2 : ℚ) ^ leastExponent ≤ (2 : ℚ) ^ exponentAt k := by
    apply zpow_le_zpow_right₀ one_le_two
    simp only [exponentAt]
    omega
  have positive : 0 < (2 : ℚ) ^ leastExponent := zpow_pos two_pos _
  have here := least n
  have next := least (n + 1)
  rw [middle_eq, middle_eq, magnitudeAt_succ]
  refine ⟨?_, ?_, ?_⟩ <;> linarith

/-- What lies strictly between the middles reads back. -/
theorem reads_of_lt {n : Nat} {x : ℚ} (above : middle n < x) (under : x < middle (n + 1)) :
    reads (mantissaAt (n + 1)) (exponentAt (n + 1)) x = true :=
  (reads_iff n x).2 ⟨⟨above.le, under.le⟩, fun _ => ⟨above.ne, under.ne⟩⟩

/-- A word reads back as itself. -/
theorem reads_magnitudeAt (n : Nat) :
    reads (mantissaAt (n + 1)) (exponentAt (n + 1)) (magnitudeAt (n + 1)) = true :=
  reads_of_lt (magnitudeAt_between n).1 (magnitudeAt_between n).2.1

/-- The magnitudes that read back as a word form an interval. -/
theorem reads_of_between {n : Nat} {low x high : ℚ}
    (lowBack : reads (mantissaAt (n + 1)) (exponentAt (n + 1)) low = true)
    (highBack : reads (mantissaAt (n + 1)) (exponentAt (n + 1)) high = true)
    (above : low ≤ x) (under : x ≤ high) :
    reads (mantissaAt (n + 1)) (exponentAt (n + 1)) x = true := by
  obtain ⟨⟨lowAbove, -⟩, lowStrict⟩ := (reads_iff n low).1 lowBack
  obtain ⟨⟨-, highUnder⟩, highStrict⟩ := (reads_iff n high).1 highBack
  refine (reads_iff n x).2 ⟨⟨lowAbove.trans above, under.trans highUnder⟩, fun odd => ⟨?_, ?_⟩⟩
  · exact ((lt_of_le_of_ne lowAbove (lowStrict odd).1).trans_le above).ne
  · exact (under.trans_lt (lt_of_le_of_ne highUnder (highStrict odd).2)).ne

/-- Magnitudes are not negative. -/
theorem magnitudeAt_nonneg (n : Nat) : 0 ≤ magnitudeAt n :=
  mul_nonneg (Nat.cast_nonneg _) (zpow_pos two_pos _).le

/-- A grid with a decimal that reads back has a neighbour of the word that does. -/
theorem onGrid?_of_reads {n : Nat} {d : Decimal}
    (back : reads (mantissaAt (n + 1)) (exponentAt (n + 1)) d.value = true) :
    onGrid? (mantissaAt (n + 1)) (exponentAt (n + 1)) d.exponent ≠ none := by
  intro missing
  obtain ⟨lowFails, highFails⟩ := onGrid?_eq_none missing
  have own := reads_magnitudeAt n
  obtain ⟨lowUnder, highAbove⟩ := below_le_lt_next (magnitudeAt_nonneg (n + 1)) d.exponent
  change reads _ _ (below (magnitudeAt (n + 1)) d.exponent).value = false at lowFails
  change reads _ _ (below (magnitudeAt (n + 1)) d.exponent).next.value = false at highFails
  have unit := (pow_ten_pos d.exponent).le
  -- A decimal of the grid is no greater than the lower neighbour or no less than the upper one.
  rcases Nat.lt_or_ge (below (magnitudeAt (n + 1)) d.exponent).coefficient d.coefficient with
    greater | less
  · have beyond : (below (magnitudeAt (n + 1)) d.exponent).next.value ≤ d.value := by
      have whole : ((below (magnitudeAt (n + 1)) d.exponent).next.coefficient : ℚ) ≤
          d.coefficient := by exact_mod_cast greater
      exact mul_le_mul_of_nonneg_right whole unit
    rw [reads_of_between own back highAbove.le beyond] at highFails
    cases highFails
  · have under : d.value ≤ (below (magnitudeAt (n + 1)) d.exponent).value := by
      have whole : (d.coefficient : ℚ) ≤
          (below (magnitudeAt (n + 1)) d.exponent).coefficient := by exact_mod_cast less
      exact mul_le_mul_of_nonneg_right whole unit
    rw [reads_of_between back own under lowUnder] at lowFails
    cases lowFails

/-- The finest grid has a neighbour of the word that reads back. -/
theorem onGrid?_finest (n : Nat) :
    onGrid? (mantissaAt (n + 1)) (exponentAt (n + 1)) (-45) ≠ none := by
  intro missing
  obtain ⟨lowFails, highFails⟩ := onGrid?_eq_none missing
  obtain ⟨above, under, wide⟩ := magnitudeAt_between n
  obtain ⟨lowUnder, highAbove⟩ := below_le_lt_next (magnitudeAt_nonneg (n + 1)) (-45)
  change reads _ _ (below (magnitudeAt (n + 1)) (-45)).value = false at lowFails
  change reads _ _ (below (magnitudeAt (n + 1)) (-45)).next.value = false at highFails
  have fine : (10 : ℚ) ^ (-45 : Int) < (2 : ℚ) ^ leastExponent := by
    norm_num [leastExponent]
  have lowOut : (below (magnitudeAt (n + 1)) (-45)).value ≤ middle n := by
    by_contra inside
    rw [reads_of_lt (not_le.1 inside) (lowUnder.trans_lt under)] at lowFails
    cases lowFails
  have highOut : middle (n + 1) ≤ (below (magnitudeAt (n + 1)) (-45)).next.value := by
    by_contra inside
    rw [reads_of_lt (above.trans highAbove) (not_le.1 inside)] at highFails
    cases highFails
  have step := value_next (below (magnitudeAt (n + 1)) (-45))
  change _ = _ + (10 : ℚ) ^ (-45 : Int) at step
  linarith

/-- No decimal on a grid above the coarsest one reads back as a finite word. -/
theorem exponent_le_coarsest {n : Nat} (inside : n + 1 < finiteCount) {d : Decimal}
    (back : reads (mantissaAt (n + 1)) (exponentAt (n + 1)) d.value = true) :
    d.exponent ≤ coarsest := by
  by_contra coarser
  obtain ⟨⟨above, under⟩, -⟩ := (reads_iff n d.value).1 back
  have positive : 0 < d.value := by
    have unit : 0 < (2 : ℚ) ^ exponentAt n := zpow_pos two_pos _
    have := magnitudeAt_nonneg n
    rw [middle_eq] at above
    linarith
  have counted : 1 ≤ d.coefficient := by
    by_contra none
    rw [value, Nat.lt_one_iff.1 (not_le.1 none), Nat.cast_zero, zero_mul] at positive
    exact lt_irrefl 0 positive
  have large : (10 : ℚ) ^ coarsest ≤ d.value := by
    have grid : (10 : ℚ) ^ coarsest ≤ (10 : ℚ) ^ d.exponent :=
      zpow_le_zpow_right₀ (by norm_num) (not_le.1 coarser).le
    have whole : (1 : ℚ) ≤ d.coefficient := by exact_mod_cast counted
    exact grid.trans (le_mul_of_one_le_left (pow_ten_pos _).le whole)
  have bound : middle (n + 1) ≤ middle (finiteCount - 1) :=
    middle_strictMono.monotone (by omega)
  have range : middle (finiteCount - 1) < (10 : ℚ) ^ coarsest := by
    rw [middle_last]
    norm_num [coarsest]
  linarith

/-- The decimal that is found reads back, and no decimal that does is on a coarser grid. -/
theorem shortest_reads {n : Nat} (inside : n + 1 < finiteCount) :
    reads (mantissaAt (n + 1)) (exponentAt (n + 1))
        (shortest (mantissaAt (n + 1)) (exponentAt (n + 1))).value = true ∧
      ∀ d : Decimal, reads (mantissaAt (n + 1)) (exponentAt (n + 1)) d.value = true →
        d.exponent ≤ (shortest (mantissaAt (n + 1)) (exponentAt (n + 1))).exponent := by
  have hit : ∃ i < grids,
      onGrid? (mantissaAt (n + 1)) (exponentAt (n + 1)) (coarsest - i) ≠ none :=
    ⟨84, by decide, onGrid?_finest n⟩
  obtain ⟨i, -, found, before⟩ := firstHit_eq _ _ hit
  obtain ⟨here, back⟩ := onGrid?_eq_some found
  refine ⟨back, fun d reading => ?_⟩
  by_contra coarser
  have bound := exponent_le_coarsest inside reading
  have earlier : (coarsest - d.exponent).toNat < i := by
    rw [shortest, here] at coarser
    omega
  have missing := before _ earlier
  have same : coarsest - ((coarsest - d.exponent).toNat : Int) = d.exponent := by omega
  rw [same] at missing
  exact onGrid?_of_reads reading missing

/-! ## The text of a decimal -/

/-- The decimal digits of a number are read as that number. -/
theorem readDigits_toDigits (k : Nat) : readDigits (Nat.toDigits 10 k) = some k := by
  have digits : (Nat.toDigits 10 k).all Char.isDigit = true :=
    List.all_eq_true.2 fun _ listed => Nat.isDigit_of_mem_toDigits (by decide) (by decide) listed
  rw [readDigits, if_pos ⟨Nat.toDigits_ne_nil, digits⟩,
    Nat.ofDigitChars_toDigits (by decide) (by decide)]

/-- Zeros in front fill a number up to the given places. -/
theorem readDigits_padded {places number : Nat} (anyPlace : 0 < places)
    (fits : number < 10 ^ places) :
    readDigits (padded places number).toList = some number ∧
      (padded places number).toList.length = places := by
  have short : (Nat.toDigits 10 number).length ≤ places :=
    (Nat.length_toDigits_le_iff (by decide) anyPlace).2 fits
  have filled : (padded places number).toList =
      List.replicate (places - (Nat.toDigits 10 number).length) '0' ++ Nat.toDigits 10 number := by
    rw [padded, String.toList_ofList, List.leftpad]
  have digits : (padded places number).toList.all Char.isDigit = true := by
    rw [filled, List.all_eq_true]
    intro ch listed
    rcases List.mem_append.1 listed with zero | digit
    · rw [(List.mem_replicate.1 zero).2]
      rfl
    · exact Nat.isDigit_of_mem_toDigits (by decide) (by decide) digit
  constructor
  · have nonempty : (padded places number).toList ≠ [] := by
      rw [filled]
      exact List.append_ne_nil_of_right_ne_nil _ Nat.toDigits_ne_nil
    rw [readDigits, if_pos ⟨nonempty, digits⟩, filled, Nat.ofDigitChars_append,
      Nat.ofDigitChars_replicate_zero, Nat.mul_zero,
      Nat.ofDigitChars_toDigits (by decide) (by decide)]
  · rw [filled, List.length_append, List.length_replicate]
    omega

/-- A decimal is written as digits, a point and digits, which stand for its value. -/
theorem positional_eq (d : Decimal) :
    ∃ whole fraction w f, d.positional.toList = whole ++ '.' :: fraction ∧
      readDigits whole = some w ∧ readDigits fraction = some f ∧
      (w : ℚ) + f / 10 ^ fraction.length = d.value := by
  have unit (places : Nat) : ((Nat.pow 10 places : Nat) : ℚ) = 10 ^ places := Nat.cast_pow 10 places
  by_cases integral : 0 ≤ d.exponent
  · have power : (10 : ℚ) ^ d.exponent = (10 : ℚ) ^ d.exponent.toNat := by
      rw [← zpow_natCast, Int.toNat_of_nonneg integral]
    refine ⟨Nat.toDigits 10 (d.coefficient * Nat.pow 10 d.exponent.toNat), ['0'],
      d.coefficient * Nat.pow 10 d.exponent.toNat, 0, ?_, readDigits_toDigits _, by decide, ?_⟩
    · rw [positional, if_pos integral, String.toList_append, Nat.toString_eq_repr, Nat.toList_repr]
      rfl
    · rw [value, power, Nat.cast_mul, unit, Nat.cast_zero, zero_div, add_zero]
  · let places := (-d.exponent).toNat
    have anyPlace : 0 < places := by omega
    have power : (10 : ℚ) ^ d.exponent = ((10 : ℚ) ^ places)⁻¹ := by
      have negative : d.exponent = -(places : Int) := by omega
      rw [negative, zpow_neg, zpow_natCast]
    have fits : d.coefficient % Nat.pow 10 places < 10 ^ places :=
      Nat.mod_lt _ (Nat.pow_pos (by decide))
    obtain ⟨fractionRead, count⟩ := readDigits_padded anyPlace fits
    refine ⟨Nat.toDigits 10 (d.coefficient / Nat.pow 10 places),
      (padded places (d.coefficient % Nat.pow 10 places)).toList,
      d.coefficient / Nat.pow 10 places, d.coefficient % Nat.pow 10 places, ?_,
      readDigits_toDigits _, fractionRead, ?_⟩
    · rw [positional, if_neg integral, String.toList_append, String.toList_append,
        Nat.toString_eq_repr, Nat.toList_repr, List.append_assoc]
      rfl
    · have divided : (10 : ℚ) ^ places * (d.coefficient / Nat.pow 10 places : Nat) +
          (d.coefficient % Nat.pow 10 places : Nat) = d.coefficient := by
        rw [← unit]
        exact_mod_cast Nat.div_add_mod d.coefficient (Nat.pow 10 places)
      have nonzero : (10 : ℚ) ^ places ≠ 0 := pow_ne_zero _ (by norm_num)
      rw [count, value, power, ← divided]
      field_simp

end Decimal

/-! ## The text of a word -/

namespace Binary32

open Decimal

/-- The magnitude of a finite word is written as a decimal that rounds to the word, on a grid as
coarse as that of any decimal that does. -/
theorem exists_decimal {bits : UInt32} (finite : isFinite bits = true) :
    ∃ d : Decimal,
      (ofBits bits).text = (if isNegative bits then "-" else "") ++ d.positional ∧
        RoundsTo (isNegative bits) d.value bits ∧
        ∀ other : Decimal, RoundsTo (isNegative bits) other.value bits →
          ∃ coefficient : Nat, d.value = Decimal.value ⟨coefficient, other.exponent⟩ := by
  have inside := (isFinite_iff bits).1 finite
  rw [ofBits_eq bits inside, text]
  cases here : position bits with
  | zero =>
    have zero : Decimal.value ⟨0, 0⟩ = 0 := by simp [Decimal.value]
    refine ⟨⟨0, 0⟩, ?_, ?_, fun other _ => ⟨0, ?_⟩⟩
    · have none : mantissaAt 0 = 0 := by decide
      rw [if_pos none]
      rfl
    · rw [zero]
      exact roundsTo_zero here
    · simp [Decimal.value]
  | succ n =>
    rw [here] at inside
    obtain ⟨back, coarse⟩ := shortest_reads inside
    have positive : mantissaAt (n + 1) ≠ 0 := by
      rw [mantissaAt]
      split_ifs with least
      · simp only [fieldAt, leadingBit] at least ⊢
        omega
      · simp only [leadingBit]
        omega
    refine ⟨shortest (mantissaAt (n + 1)) (exponentAt (n + 1)), by rw [if_neg positive], ?_, ?_⟩
    · exact (roundsTo_iff_reads finite here).2 ⟨rfl, back⟩
    · intro other rounds
      have finer := coarse other ((roundsTo_iff_reads finite here).1 rounds).2
      exact ⟨_, value_eq_of_le finer⟩

end Binary32

/-! ## Reading a literal -/

/-- What stands for a number has a first digit, and digits only. -/
theorem digits_of_readDigits {chars : List Char} {number : Nat}
    (read : readDigits chars = some number) :
    chars ≠ [] ∧ ∀ ch ∈ chars, ch.isDigit = true := by
  rw [readDigits, Option.ite_none_right_eq_some, List.all_eq_true] at read
  exact read.1

/-- Digits, a point and digits are cut at the point in one way. -/
theorem cut_at_point {whole fraction whole' fraction' : List Char}
    (digits : ∀ ch ∈ whole, ch.isDigit = true) (digits' : ∀ ch ∈ fraction, ch.isDigit = true)
    (same : whole ++ '.' :: fraction = whole' ++ '.' :: fraction') :
    whole = whole' ∧ fraction = fraction' := by
  have noPoint {part : List Char} (number : ∀ ch ∈ part, ch.isDigit = true) : '.' ∉ part :=
    fun listed => absurd (number _ listed) (by decide)
  obtain ⟨first, -, second⟩ :=
    (List.append_cons_inj_of_notMem (noPoint digits) (noPoint digits')).1 same
  exact ⟨first, second⟩

/-- A number shows by its first character whether a minus stands in front. -/
theorem sign_eq_of_text {negative negative' : Bool} {whole whole' rest rest' : List Char}
    {w w' : Nat} (read : readDigits whole = some w) (read' : readDigits whole' = some w')
    (same : (if negative then ['-'] else []) ++ whole ++ rest =
      (if negative' then ['-'] else []) ++ whole' ++ rest') :
    negative = negative' ∧ whole ++ rest = whole' ++ rest' := by
  have noMinus {whole rest tail : List Char} {w : Nat} (read : readDigits whole = some w) :
      whole ++ rest ≠ '-' :: tail := by
    obtain ⟨nonempty, digits⟩ := digits_of_readDigits read
    obtain ⟨first, others, rfl⟩ := List.exists_cons_of_ne_nil nonempty
    intro starts
    have digit := digits first List.mem_cons_self
    rw [(List.cons.inj starts).1] at digit
    exact absurd digit (by decide)
  cases negative <;> cases negative'
  · exact ⟨rfl, same⟩
  · exact absurd same (noMinus read)
  · exact absurd same.symm (noMinus read')
  · exact ⟨rfl, (List.cons.inj same).2⟩

namespace Binary32

/-- The literal of a finite word in characters: its sign, digits, a point and digits, which stand
for the decimal that was found. -/
theorem exists_digits {bits : UInt32} (finite : isFinite bits = true) :
    ∃ whole fraction w f,
      (Literal.float bits).text.toList =
          (if isNegative bits then ['-'] else []) ++ whole ++ '.' :: fraction ∧
        readDigits whole = some w ∧ readDigits fraction = some f ∧
        RoundsTo (isNegative bits) (w + f / 10 ^ fraction.length) bits ∧
        ∀ other : Decimal, RoundsTo (isNegative bits) other.value bits →
          ∃ coefficient : Nat,
            (w : ℚ) + f / 10 ^ fraction.length = Decimal.value ⟨coefficient, other.exponent⟩ := by
  obtain ⟨d, written, rounds, coarse⟩ := exists_decimal finite
  obtain ⟨whole, fraction, w, f, shape, wholeRead, fractionRead, same⟩ := d.positional_eq
  refine ⟨whole, fraction, w, f, ?_, wholeRead, fractionRead, by rwa [same], by rwa [same]⟩
  rw [Literal.text, written, String.toList_append, shape, List.append_assoc]
  cases isNegative bits <;> rfl

/-- A finite word is written as a minus if it is negative, digits, a point and digits. What the
digits stand for rounds to the word, and lies on every decimal grid that has a number that does. No
other finite word is written in the same way. -/
theorem float_text_reads_back (bits : UInt32) (finite : isFinite bits = true) :
    (∃ whole fraction w f,
      (Literal.float bits).text.toList =
          (if isNegative bits then ['-'] else []) ++ whole ++ '.' :: fraction ∧
        readDigits whole = some w ∧ readDigits fraction = some f ∧
        RoundsTo (isNegative bits) (w + f / 10 ^ fraction.length) bits ∧
        ∀ other : Decimal, RoundsTo (isNegative bits) other.value bits →
          ∃ coefficient : Nat,
            (w : ℚ) + f / 10 ^ fraction.length = Decimal.value ⟨coefficient, other.exponent⟩) ∧
      ∀ other : UInt32, isFinite other = true →
        (Literal.float other).text = (Literal.float bits).text → other = bits := by
  refine ⟨exists_digits finite, fun other otherFinite sameText => ?_⟩
  obtain ⟨whole, fraction, w, f, shape, wholeRead, fractionRead, rounds, -⟩ := exists_digits finite
  obtain ⟨whole', fraction', w', f', shape', wholeRead', fractionRead', rounds', -⟩ :=
    exists_digits otherFinite
  rw [sameText, shape] at shape'
  obtain ⟨sameSign, sameDigits⟩ := sign_eq_of_text wholeRead wholeRead' shape'
  obtain ⟨rfl, rfl⟩ := cut_at_point (digits_of_readDigits wholeRead).2
    (digits_of_readDigits fractionRead).2 sameDigits
  obtain rfl : w = w' := Option.some.inj (wholeRead.symm.trans wholeRead')
  obtain rfl : f = f' := Option.some.inj (fractionRead.symm.trans fractionRead')
  rw [← sameSign] at rounds'
  exact rounds'.unique rounds

/-- Zero and negative zero are written apart. The word nearest to a tenth, which is no tenth itself,
is written `0.1`: a tenth rounds to it, no decimal of fewer places does, and its neighbour is
written in another way. -/
theorem tenth_and_zeros_read_back :
    isFinite 0x80000000 = true ∧ isFinite 0 = true ∧
      (Literal.float 0).text ≠ (Literal.float 0x80000000).text ∧
      isFinite 0x3dcccccd = true ∧ (Literal.float 0x3dcccccd).text = "0.1" ∧
      RoundsTo false (1 / 10) 0x3dcccccd ∧
      (∀ other : Decimal, RoundsTo false other.value 0x3dcccccd → other.exponent ≤ -1) ∧
      isFinite 0x3dccccce = true ∧ (Literal.float 0x3dccccce).text ≠ "0.1" := by
  have tenth : (Literal.float 0x3dcccccd).text = "0.1" := by decide +kernel
  obtain ⟨⟨whole, fraction, w, f, shape, wholeRead, fractionRead, rounds, coarse⟩, injective⟩ :=
    float_text_reads_back 0x3dcccccd (by decide)
  have cut : whole ++ '.' :: fraction = ['0'] ++ '.' :: ['1'] := by
    rw [tenth] at shape
    exact shape.symm
  obtain ⟨rfl, rfl⟩ := cut_at_point (digits_of_readDigits wholeRead).2
    (digits_of_readDigits fractionRead).2 cut
  obtain rfl : 0 = w := Option.some.inj wholeRead
  obtain rfl : 1 = f := Option.some.inj fractionRead
  have value : ((0 : Nat) : ℚ) + (1 : Nat) / 10 ^ ['1'].length = 1 / 10 := by norm_num
  rw [value] at rounds coarse
  refine ⟨by decide, by decide, fun same => absurd
    ((float_text_reads_back 0x80000000 (by decide)).2 0 (by decide) same) (by decide), by decide,
    tenth, rounds, fun other near => ?_, by decide, fun same => ?_⟩
  · obtain ⟨coefficient, onGrid⟩ := coarse other near
    by_contra integral
    obtain ⟨places, exponent⟩ := Int.eq_ofNat_of_zero_le (show 0 ≤ other.exponent by omega)
    rw [Decimal.value, exponent, zpow_natCast] at onGrid
    -- A tenth is no integer: ten of these numbers would make one.
    have ten : 10 * (coefficient * 10 ^ places) = 1 := by
      have scaled : (10 : ℚ) * (coefficient * 10 ^ places) = 1 := by
        rw [← onGrid]
        norm_num
      exact_mod_cast scaled
    omega
  · exact absurd (injective 0x3dccccce (by decide) (same.trans tenth.symm)) (by decide)

end Binary32

end GlslText
