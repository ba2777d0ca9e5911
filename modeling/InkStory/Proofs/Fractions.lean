import InkStory.Proofs.Layouts
import InkStory.Proofs.NearMisses
import InkStory.Proofs.Words

/-! # Fractions read back

A single-precision number is written as the double with the same shortest decimal, and read by scaling
the digits of that decimal in double precision. The scaled double need not be the one that was written,
but it is rounded to the same single-precision number (`Json.Number.reread_ofSingle`). -/

namespace InkStory

open Number Option Single

variable {decimal : Decimal}

namespace Number.Format

variable {numerator denominator : ℕ}

/-- A fraction of moderate size. -/
def Moderate (fraction : ℚ) : Prop := (2 : ℚ) ^ (-240 : ℤ) ≤ fraction ∧ fraction ≤ 2 ^ (240 : ℤ)

/-- Rounding to double precision, for fractions of moderate size. -/
theorem round_double (divides : 0 < denominator) (moderate : Moderate ((numerator : ℚ) / denominator)) :
    ∃ rounded, double.round numerator denominator = some rounded ∧
      double.nearestScaled numerator denominator = rounded ∧ 0 < rounded.significand ∧
      |rounded.value - (numerator : ℚ) / denominator| ≤ (numerator : ℚ) / denominator / 2 ^ 53 := by
  obtain ⟨least, most⟩ := moderate
  have fraction : (0 : ℚ) < (numerator : ℚ) / denominator := lt_of_lt_of_le (by positivity) least
  have positive : 0 < numerator := by
    apply Nat.pos_of_ne_zero
    rintro rfl
    simp at fraction
  have canonical := double.canonical_nearestScaled (by decide) positive divides
  have admits := double.admits_nearestScaled (by decide) positive divides
  have error : |(double.nearestScaled numerator denominator).value - (numerator : ℚ) / denominator| ≤
      (numerator : ℚ) / denominator / 2 ^ 53 :=
    double.error_nearestScaled (by decide) positive divides
      ((zpow_le_zpow_right₀ one_le_two (by decide)).trans least)
  obtain ⟨rounded, isRounded⟩ : ∃ rounded, double.nearestScaled numerator denominator = rounded :=
    ⟨_, rfl⟩
  rw [isRounded] at canonical admits error
  have present : 0 < rounded.significand := by
    apply Nat.pos_of_ne_zero
    intro zero
    rw [Scaled.value, zero, Nat.cast_zero, zero_mul, zero_sub, abs_neg, abs_of_pos fraction] at error
    linarith
  refine ⟨rounded, ?_, isRounded, present, error⟩
  have within : ¬double.maxExponent < rounded.exponent := by
    intro beyond
    have beyond : 971 < rounded.exponent := beyond
    have low := (admits.bounds present).1
    have one : (1 : ℚ) ≤ rounded.significand := by exact_mod_cast present
    have unit : (2 : ℚ) ^ (250 : ℤ) ≤ 2 ^ rounded.exponent :=
      zpow_le_zpow_right₀ one_le_two (by omega)
    have large : 1 * (2 : ℚ) ^ (250 : ℤ) ≤ rounded.value := by
      unfold Scaled.value
      gcongr
    linarith
  unfold round
  rw [isRounded, if_neg within]

end Number.Format

namespace Json.Number

open Number.Format

/-! ### Powers of ten -/

theorem powerOfTen_spec {exponent : ℕ} (small : exponent ≤ 60) :
    0 < (powerOfTen exponent).significand ∧
      |(powerOfTen exponent).value - 10 ^ exponent| ≤ 10 ^ exponent / 2 ^ 53 := by
  have same : ((Nat.pow 10 exponent : ℕ) : ℚ) / (1 : ℕ) = 10 ^ exponent := by simp [Nat.pow_eq]
  have moderate : Moderate (((Nat.pow 10 exponent : ℕ) : ℚ) / (1 : ℕ)) := by
    rw [same]
    constructor
    · exact le_trans (by norm_num) (one_le_pow₀ (by norm_num : (1 : ℚ) ≤ 10))
    · exact (pow_le_pow_right₀ (by norm_num) small).trans (by norm_num)
  obtain ⟨rounded, -, isRounded, present, error⟩ := round_double one_pos moderate
  rw [same] at error
  have power : powerOfTen exponent = rounded := isRounded
  rw [power]
  exact ⟨present, error⟩

/-- A power of ten that has few bits but for the zeros behind them is not rounded. -/
theorem value_powerOfTen {exponent : ℕ} (small : exponent ≤ 22) :
    (powerOfTen exponent).value = 10 ^ exponent := by
  have split : (10 : ℚ) ^ exponent = (5 ^ exponent : ℕ) * 2 ^ (exponent : ℤ) := by
    rw [zpow_natCast, Nat.cast_pow, ← mul_pow]
    norm_num
  have fits : 5 ^ exponent < 2 ^ 53 :=
    (Nat.pow_le_pow_right (by decide) small).trans_lt (by decide)
  rw [split]
  refine double.value_nearestScaled_of_eq (by decide) (Nat.pow_pos (by decide)) one_pos fits
    (le_trans (by decide) (Int.natCast_nonneg exponent)) ?_
  rw [← split]
  simp

/-- The factor by which a scaling step multiplies, before it rounds. -/
def factor (exponent : ℤ) : ℚ :=
  if 0 ≤ exponent then (powerOfTen exponent.toNat).value
  else 1 / (powerOfTen (-exponent).toNat).value

/-- Scaling rounds a product once, if its power of ten is taken in one step. -/
theorem scale_eq_round {value : Scaled} {exponent : ℤ} (positive : 0 < value.significand)
    (least : -60 ≤ exponent) (most : exponent ≤ 60) :
    ∃ numerator denominator : ℕ, 0 < denominator ∧
      (numerator : ℚ) / denominator = value.value * factor exponent ∧
      scale value exponent = double.round numerator denominator := by
  unfold scale factor
  rw [if_neg positive.ne']
  split
  · have within : ¬(maxScale : ℤ) < exponent := by
      change ¬(308 : ℤ) < exponent
      omega
    rw [if_neg within]
    refine ⟨_, _, Nat.mul_pos value.denominator_pos (Scaled.denominator_pos _), ?_, rfl⟩
    rw [Scaled.value_eq_div, Scaled.value_eq_div]
    push_cast
    rw [div_mul_div_comm]
  · have steps : (-exponent).toNat / maxScale = 0 := Nat.div_eq_of_lt (by change _ < 308; omega)
    have rest : (-exponent).toNat % maxScale = (-exponent).toNat :=
      Nat.mod_eq_of_lt (by change _ < 308; omega)
    have present := (@powerOfTen_spec (-exponent).toNat (by omega)).1
    rw [steps, rest]
    have above : 0 < (powerOfTen (-exponent).toNat).numerator :=
      Nat.mul_pos present (Nat.pow_pos (by decide))
    refine ⟨_, _, Nat.mul_pos value.denominator_pos above, ?_, rfl⟩
    rw [Scaled.value_eq_div, Scaled.value_eq_div]
    push_cast
    rw [one_div_div, div_mul_div_comm]

theorem factor_near {exponent : ℤ} (least : -60 ≤ exponent) (most : exponent ≤ 60) :
    (10 : ℚ) ^ exponent * (1 - 9 / 2 ^ 56) ≤ factor exponent ∧
      factor exponent ≤ 10 ^ exponent * (1 + 9 / 2 ^ 56) := by
  unfold factor
  split
  · next above =>
    obtain ⟨power, rfl⟩ := Int.eq_ofNat_of_zero_le above
    obtain ⟨low, high⟩ := abs_le.mp (@powerOfTen_spec power (by omega)).2
    rw [Int.toNat_natCast, zpow_natCast]
    constructor <;> linarith
  · obtain ⟨power, isPower⟩ : ∃ power : ℕ, exponent = -power := ⟨(-exponent).toNat, by omega⟩
    subst isPower
    obtain ⟨low, high⟩ := abs_le.mp (@powerOfTen_spec power (by omega)).2
    have ten : (0 : ℚ) < 10 ^ power := by positivity
    have positive : 0 < (powerOfTen power).value := by linarith
    rw [neg_neg, Int.toNat_natCast, zpow_neg, zpow_natCast, inv_mul_eq_div, inv_mul_eq_div,
      div_le_div_iff₀ ten positive, div_le_div_iff₀ positive ten]
    constructor <;> linarith

theorem factor_eq {exponent : ℤ} (least : -22 ≤ exponent) (most : exponent ≤ 22) :
    factor exponent = 10 ^ exponent := by
  unfold factor
  split
  · rw [value_powerOfTen (by omega), ← zpow_natCast, Int.toNat_of_nonneg (by assumption)]
  · rw [value_powerOfTen (by omega), ← zpow_natCast, Int.toNat_of_nonneg (by omega), zpow_neg, one_div,
      inv_inv]

/-- Reading rounds three times at most: the digits, the power of ten, and their product. -/
theorem scaled_near (positive : 0 < decimal.digits) (few : decimal.digits < 2 ^ 64)
    (least : -60 ≤ decimal.exponent) (most : decimal.exponent ≤ 60)
    (small : (2 : ℚ) ^ (-200 : ℤ) ≤ decimal.value) (large : decimal.value ≤ 2 ^ (200 : ℤ)) :
    ∃ read, scaled decimal = some read ∧ 0 < read.significand ∧
      |read.value - decimal.value| ≤ decimal.value * 7 / 2 ^ 54 := by
  have unit : (0 : ℚ) < 10 ^ decimal.exponent := by positivity
  have one : (1 : ℚ) ≤ decimal.digits := by exact_mod_cast positive
  have nonzero : 0 < decimal.value := lt_of_lt_of_le (by positivity) small
  have digits : Moderate ((decimal.digits : ℚ) / (1 : ℕ)) := by
    have most : (decimal.digits : ℚ) ≤ 2 ^ 64 := by exact_mod_cast few.le
    rw [Nat.cast_one, div_one]
    exact ⟨le_trans (by norm_num) one, most.trans (by norm_num)⟩
  obtain ⟨value, -, isValue, present, error⟩ := round_double one_pos digits
  obtain ⟨valueLow, valueHigh⟩ := abs_le.mp error
  obtain ⟨factorLow, factorHigh⟩ := factor_near least most
  -- The product that is rounded, within two errors of the decimal.
  have low : decimal.value * ((1 - 1 / 2 ^ 53) * (1 - 9 / 2 ^ 56)) ≤
      value.value * factor decimal.exponent := by
    calc decimal.value * ((1 - 1 / 2 ^ 53) * (1 - 9 / 2 ^ 56))
        = decimal.digits * (1 - 1 / 2 ^ 53) * (10 ^ decimal.exponent * (1 - 9 / 2 ^ 56)) := by
          rw [Decimal.value]
          ring
      _ ≤ value.value * factor decimal.exponent := by
          refine mul_le_mul (by linarith) factorLow ?_ (by linarith)
          exact mul_nonneg unit.le (by norm_num)
  have high : value.value * factor decimal.exponent ≤
      decimal.value * ((1 + 1 / 2 ^ 53) * (1 + 9 / 2 ^ 56)) := by
    calc value.value * factor decimal.exponent
        ≤ decimal.digits * (1 + 1 / 2 ^ 53) * (10 ^ decimal.exponent * (1 + 9 / 2 ^ 56)) := by
          refine mul_le_mul (by linarith) factorHigh ?_ (by linarith)
          exact le_trans (mul_nonneg unit.le (by norm_num)) factorLow
      _ = _ := by
          rw [Decimal.value]
          ring
  obtain ⟨numerator, denominator, divides, same, round⟩ := scale_eq_round present least most
  have moderate : Moderate ((numerator : ℚ) / denominator) := by
    rw [same]
    constructor
    · calc (2 : ℚ) ^ (-240 : ℤ) ≤ 2 ^ (-200 : ℤ) / 2 := by norm_num
        _ ≤ decimal.value / 2 := by gcongr
        _ ≤ decimal.value * ((1 - 1 / 2 ^ 53) * (1 - 9 / 2 ^ 56)) := by linarith only [nonzero]
        _ ≤ _ := low
    · exact high.trans (by linarith)
  obtain ⟨read, rounded, -, positive, last⟩ := round_double divides moderate
  refine ⟨read, ?_, positive, ?_⟩
  · rw [scaled, isValue, round, rounded]
  · rw [same] at last
    obtain ⟨readLow, readHigh⟩ := abs_le.mp last
    refine abs_le.mpr ⟨?_, ?_⟩ <;> linarith

/-- Nothing is rounded where the digits and the decimal have few bits and the power of ten is small. -/
theorem scaled_exact {read : Scaled} (found : scaled decimal = some read)
    (positive : 0 < decimal.digits) {significand : ℕ} {exponent : ℤ} (fits : significand < 2 ^ 53)
    (above : -1074 ≤ exponent) (digits : (decimal.digits : ℚ) = significand * 2 ^ exponent)
    (least : -22 ≤ decimal.exponent) (most : decimal.exponent ≤ 22) {whole : ℕ} {unit : ℤ}
    (short : whole < 2 ^ 53) (normal : -1074 ≤ unit) (value : decimal.value = whole * 2 ^ unit) :
    read.value = decimal.value := by
  have nonzero : (0 : ℚ) < decimal.digits := by exact_mod_cast positive
  have first : (double.nearestScaled decimal.digits 1).value = decimal.digits := by
    rw [digits]
    refine double.value_nearestScaled_of_eq (by decide) positive one_pos fits above ?_
    rw [Nat.cast_one, div_one, digits]
  have present : 0 < (double.nearestScaled decimal.digits 1).significand := by
    apply Nat.pos_of_ne_zero
    intro zero
    rw [Scaled.value, zero, Nat.cast_zero] at first
    linarith
  obtain ⟨numerator, denominator, divides, same, round⟩ :=
    @scale_eq_round _ decimal.exponent present (by omega) (by omega)
  have product : (numerator : ℚ) / denominator = whole * 2 ^ unit := by
    rw [same, first, factor_eq least most, ← value, Decimal.value]
  have rounded : double.nearestScaled numerator denominator = read := by
    rw [scaled, round, Format.round] at found
    split at found
    · contradiction
    · exact some.inj found
  have top : 0 < numerator := by
    apply Nat.pos_of_ne_zero
    rintro rfl
    rw [← value, Decimal.value, Nat.cast_zero, zero_div] at product
    have := (by positivity : (0 : ℚ) < decimal.digits * 10 ^ decimal.exponent)
    linarith
  rw [← rounded, value]
  exact double.value_nearestScaled_of_eq (by decide) top divides short normal product

/-- A decimal of few digits that is a short multiple of a power of two has a small exponent, because
the powers of five in it must cancel. -/
theorem exponent_small (positive : 0 < decimal.digits) (few : decimal.digits < 2 ^ 31)
    {significand : ℕ} {exponent : ℤ} (short : significand < 2 ^ 25)
    (value : decimal.value = significand * 2 ^ exponent) :
    -22 ≤ decimal.exponent ∧ decimal.exponent ≤ 22 := by
  have prime : Fact (Nat.Prime 5) := ⟨by decide⟩
  have digits : (decimal.digits : ℚ) ≠ 0 := by exact_mod_cast positive.ne'
  have nonzero : (significand : ℚ) ≠ 0 := by
    intro zero
    rw [zero, zero_mul] at value
    exact mul_ne_zero digits (by positivity) value
  have ten : padicValRat 5 10 = 1 := by
    decide +kernel
  have two : padicValRat 5 2 = 0 := by
    decide +kernel
  have fives := congrArg (padicValRat 5) value
  rw [Decimal.value, padicValRat.mul digits (by positivity), padicValRat.mul nonzero (by positivity),
    padicValRat.zpow, padicValRat.zpow, ten, two, padicValRat.of_nat,
    padicValRat.of_nat] at fives
  have small {number : ℕ} (less : number < 5 ^ 23) : padicValNat 5 number ≤ 22 :=
    (padicValNat_le_nat_log number).trans (Nat.lt_succ_iff.mp (Nat.log_lt_of_lt_pow' (by decide) less))
  have := @small decimal.digits (by omega)
  have := @small significand (by omega)
  omega

/-! ### Single-precision numbers -/

variable {number : Scaled} {read : Decimal}

theorem ReadAs.value_eq (readAs : ReadAs decimal read) : read.value = decimal.value := by
  rcases readAs with rfl | ⟨whole, -, rfl⟩
  · rfl
  · obtain ⟨power, isPower⟩ := Int.eq_ofNat_of_zero_le whole
    rw [Decimal.value, Decimal.value, isPower, Int.toNat_natCast, zpow_natCast]
    push_cast
    rw [pow_succ]
    field_simp

theorem ReadAs.digits_pos (readAs : ReadAs decimal read) (positive : 0 < decimal.digits) :
    0 < read.digits := by
  rcases readAs with rfl | ⟨-, -, rfl⟩
  · exact positive
  · exact Nat.mul_pos positive (Nat.pow_pos (by decide))

/-- Where a decimal is a short multiple of a power of two, no step of reading it rounds. -/
theorem ReadAs.scaled_exact (readAs : ReadAs decimal read) {found : Scaled}
    (there : scaled read = some found) (positive : 0 < decimal.digits)
    (few : decimal.digits < 2 ^ 31) {significand : ℕ} {exponent : ℤ} (short : significand < 2 ^ 25)
    (least : -151 ≤ exponent) (value : decimal.value = significand * 2 ^ exponent) :
    found.value = decimal.value := by
  have nonzero := readAs.digits_pos positive
  rw [← readAs.value_eq] at value ⊢
  rcases readAs with rfl | ⟨-, -, rfl⟩
  · obtain ⟨above, below⟩ := exponent_small positive few short value
    have digits : (read.digits : ℚ) = read.digits * 2 ^ (0 : ℤ) := by rw [zpow_zero, mul_one]
    exact scaled_exact there nonzero (by omega) (by decide) digits above below
      (by omega : significand < 2 ^ 53) (by omega) value
  · refine scaled_exact there nonzero (by omega : 5 * significand < 2 ^ 53)
      (by omega : -1074 ≤ exponent + 1) ?_ (by dsimp only; decide) (by dsimp only; decide)
      (by omega : significand < 2 ^ 53) (by omega) value
    rw [Decimal.value, zpow_neg_one] at value
    rw [zpow_add_one₀ two_ne_zero]
    push_cast at value ⊢
    linarith

/-- The decimals that come close to a bound are read right. -/
theorem narrow_nearMiss (rare : decimal ∈ nearMisses) (readAs : ReadAs decimal read) :
    ∃ found, scaled read = some found ∧
      single.nearestScaled found.numerator found.denominator =
        single.nearestScaled (decimal.digits * Nat.pow 10 decimal.exponent.toNat)
          (Nat.pow 10 (-decimal.exponent).toNat) := by
  have all : ∀ decimal ∈ nearMisses, (0 ≤ decimal.exponent → 16 < decimal.pointPosition) ∧
      (scaled decimal).map (fun found => single.nearestScaled found.numerator found.denominator) =
        some (single.nearestScaled (decimal.digits * Nat.pow 10 decimal.exponent.toNat)
          (Nat.pow 10 (-decimal.exponent).toNat)) := by
    decide +kernel
  obtain ⟨large, same⟩ := all decimal rare
  rcases readAs with rfl | ⟨whole, few, -⟩
  · obtain ⟨found, there, equal⟩ := map_eq_some_iff.mp same
    exact ⟨found, there, equal⟩
  · have := large whole
    omega

/-- What is read for the shortest decimal of a number is rounded to the number. -/
theorem narrow_scaled (shortest : single.IsShortest number decimal)
    (canonical : single.Canonical number) (positive : 0 < number.significand)
    (most : number.exponent ≤ 104) (readAs : ReadAs decimal read) (short : read.digits < 2 ^ 64) :
    ∃ found, scaled read = some found ∧
      single.nearestScaled found.numerator found.denominator = number := by
  have present := shortest.digits_pos positive
  by_cases rare : decimal ∈ nearMisses
  · obtain ⟨found, there, same⟩ := narrow_nearMiss rare readAs
    refine ⟨found, there, same.trans ?_⟩
    refine nearestScaled_eq canonical (by decide) (Nat.mul_pos present (Nat.pow_pos (by decide)))
      (Nat.pow_pos (by decide)) ?_
    rw [← decimal.value_eq_div]
    exact shortest.admits
  · have magnitude := canonical.magnitude_bounds positive most
    have order := shortest.le_exponent canonical positive
    have limit := shortest.exponent_le positive magnitude.2
    obtain ⟨low, high⟩ := shortest.value_bounds canonical positive most
    rw [← readAs.value_eq] at low high
    have exponent : -60 ≤ read.exponent ∧ read.exponent ≤ 60 := by
      rcases readAs with rfl | ⟨-, -, rfl⟩
      · omega
      · dsimp only
        decide
    obtain ⟨found, there, filled, near⟩ :=
      scaled_near (readAs.digits_pos present) short exponent.1 exponent.2
        (le_trans (by norm_num) low) (high.trans (by norm_num))
    refine ⟨found, there, ?_⟩
    rw [readAs.value_eq] at near
    refine nearestScaled_eq canonical (by decide) (Nat.mul_pos filled (Nat.pow_pos (by decide)))
      found.denominator_pos ?_
    rw [← found.value_eq_div]
    exact shortest.admits_near canonical positive most rare near fun _ fits _ least value =>
      readAs.scaled_exact there present (shortest.digits_lt canonical positive) fits least value

/-- The double next to the shortest decimal of a number has the same shortest decimal. -/
theorem shortest_nearestScaled (tie : Tie) (shortest : single.IsShortest number decimal)
    (canonical : single.Canonical number) (positive : 0 < number.significand)
    (most : number.exponent ≤ 104) {double_ : Scaled}
    (isDouble : double_ = double.nearestScaled (decimal.digits * Nat.pow 10 decimal.exponent.toNat)
      (Nat.pow 10 (-decimal.exponent).toNat)) :
    0 < double_.significand ∧ double.shortest tie double_ = decimal := by
  obtain ⟨low, high⟩ := shortest.value_bounds canonical positive most
  have present := shortest.digits_pos positive
  have divides : 0 < Nat.pow 10 (-decimal.exponent).toNat := Nat.pow_pos (by decide)
  have top : 0 < decimal.digits * Nat.pow 10 decimal.exponent.toNat :=
    Nat.mul_pos present (Nat.pow_pos (by decide))
  have value := decimal.value_eq_div
  have moderate : Moderate decimal.value :=
    ⟨le_trans (by norm_num) low, high.trans (by norm_num)⟩
  rw [value] at moderate
  obtain ⟨rounded, -, isRounded, filled, -⟩ := round_double divides moderate
  obtain rfl : double_ = rounded := isDouble.trans isRounded
  have full := double.canonical_nearestScaled (by decide) top divides
  have admits := double.admits_nearestScaled (by decide) top divides
  rw [isRounded] at full admits
  rw [← value] at admits
  obtain ⟨above, below⟩ := admits.bounds filled
  obtain ⟨larger, smaller⟩ := Scaled.value_magnitude filled
  have least : -151 < double_.magnitude := by
    have less : (2 : ℚ) ^ (-151 : ℤ) < 2 ^ double_.magnitude := by
      calc (2 : ℚ) ^ (-151 : ℤ) = 2 ^ (-150 : ℤ) / 2 := by norm_num
        _ ≤ decimal.value / 2 := by gcongr
        _ ≤ double_.value := by linarith
        _ < _ := smaller
    exact (zpow_lt_zpow_iff_right₀ one_lt_two).mp less
  have bounded : double_.magnitude - 1 ≤ 130 := by
    have less : (2 : ℚ) ^ (double_.magnitude - 1) ≤ 2 ^ (130 : ℤ) := by
      calc (2 : ℚ) ^ (double_.magnitude - 1) ≤ double_.value := larger
        _ ≤ 2 * decimal.value := by linarith
        _ ≤ 2 * 2 ^ (129 : ℤ) := by gcongr
        _ = 2 ^ (130 : ℤ) := by norm_num
    exact (zpow_le_zpow_iff_right₀ one_lt_two).mp less
  have fine : (2 : ℚ) ^ double_.exponent < 10 ^ decimal.exponent := by
    have unit : (0 : ℚ) < 10 ^ decimal.exponent := by positivity
    have few : (decimal.digits : ℚ) < 2 ^ 31 := by
      exact_mod_cast shortest.digits_lt canonical positive
    have wide : (2 : ℚ) ^ 52 ≤ double_.significand := by
      have fits : Nat.log2 double_.significand < 53 := (Nat.log2_lt filled.ne').mpr full.fits
      have normal : double_.exponent ≠ double.minExponent := by
        change double_.exponent ≠ -1074
        unfold Scaled.magnitude at least
        omega
      exact_mod_cast full.full.resolve_right normal
    have order : (2 : ℚ) ^ 52 * 2 ^ double_.exponent ≤ 2 * (2 ^ 31 * 10 ^ decimal.exponent) := by
      calc (2 : ℚ) ^ 52 * 2 ^ double_.exponent ≤ double_.value := by
            unfold Scaled.value
            gcongr
        _ ≤ 2 * decimal.value := by linarith
        _ ≤ _ := by
            unfold Decimal.value
            gcongr
    linarith
  exact ⟨filled, shortest.unique (isShortest tie full filled (by omega) (by omega)) admits fine⟩

theorem nearest_eq (negative : Bool) (most : number.exponent ≤ 104) {numerator denominator : ℕ}
    (rounded : single.nearestScaled numerator denominator = number) :
    single.nearest negative numerator denominator = .finite negative number := by
  have within : ¬single.maxExponent < number.exponent := not_lt.mpr most
  simp [nearest, Format.round, rounded, within]

/-- A magnitude of single precision is read back from what is written for it. -/
theorem reread_ofMagnitude (negative : Bool) (canonical : single.Canonical number)
    (most : number.exponent ≤ 104) :
    (ofMagnitude negative number).Readable ∧
      ∃ magnitude, (ofMagnitude negative number).reread = .fraction negative magnitude ∧
        narrow (.finite negative magnitude) = ofParts (.finite negative number) := by
  suffices read : ∃ literal : Literal, literal.WellFormed ∧
      (ofMagnitude negative number).chars = literal.text ∧
      ∃ magnitude, ofLiteral literal = some (.fraction negative magnitude) ∧
        single.nearestScaled magnitude.numerator magnitude.denominator = number by
    obtain ⟨literal, wellFormed, chars, magnitude, value, rounded⟩ := read
    refine ⟨⟨literal, wellFormed, chars, by rw [value]; rfl⟩, magnitude, ?_, ?_⟩
    · rw [reread, chars, literal?_text wellFormed, bind_some, value, getD_some]
    · rw [narrow, ofFraction, nearest_eq negative most rounded]
  rcases Nat.eq_zero_or_pos number.significand with zero | positive
  · have least : number.exponent = -149 := canonical.full.resolve_left (by rw [zero]; decide)
    obtain rfl : number = ⟨0, -149⟩ := by
      cases number
      cases zero
      cases least
      rfl
    have zeros : ∀ c ∈ ['0'], c.isDigit := List.forall_mem_singleton.mpr rfl
    refine ⟨⟨negative, ['0'], some ['0'], none⟩, ⟨zeros, List.cons_ne_nil _ _, fun _ => rfl, ?_⟩, ?_,
      ⟨0, -1074⟩, rfl, rfl⟩
    · rintro _ ⟨⟩
      exact ⟨List.cons_ne_nil _ _, zeros⟩
    · cases negative <;> rfl
  · obtain ⟨small, large⟩ := canonical.magnitude_bounds positive most
    have shortest : single.IsShortest number (Single.shortest number) :=
      isShortest .up canonical positive (by omega) (by omega)
    obtain ⟨filled, same⟩ := shortest_nearestScaled .even shortest canonical positive most rfl
    have few := (shortest.digits_lt canonical positive).trans (by decide : 2 ^ 31 < UInt64.size)
    obtain ⟨read, readAs, short, value⟩ := exists_ofLiteral_ofDecimal negative few
    obtain ⟨found, there, rounded⟩ := narrow_scaled shortest canonical positive most readAs short
    refine ⟨.ofDecimal negative (Single.shortest number),
      Literal.wellFormed_ofDecimal negative (shortest.digits_pos positive), ?_, found, ?_, rounded⟩
    · rw [Literal.text_ofDecimal, ofMagnitude, if_neg positive.ne', chars, if_neg filled.ne', same]
    · rw [value, there, map_some]

end Json.Number

/-- A number as it is stored: zero for one that is undefined, and the greatest number of its sign
for one that is infinite. -/
def Single.stored (number : Single) : Single :=
  match number.parts with
  | .nan => ofParts (.finite false ⟨0, -149⟩)
  | .infinite negative => ofParts (.finite negative ⟨Nat.pow 2 24 - 1, 104⟩)
  | .finite _ _ => number

/-- A number of a story is read back from its text as what is stored of it. -/
theorem Json.Number.reread_ofSingle (number : Single) :
    (ofSingle number).Readable ∧
      ∃ negative magnitude, (ofSingle number).reread = .fraction negative magnitude ∧
        narrow (.finite negative magnitude) = number.stored := by
  unfold ofSingle stored
  cases finite : number.parts with
  | nan =>
    -- Zero is written without looking at the exponent.
    have zero : Format.single.Canonical ⟨0, -149⟩ := ⟨by decide, by decide, .inr rfl⟩
    obtain ⟨readable, magnitude, read, rounded⟩ := @reread_ofMagnitude _ false zero (by decide)
    exact ⟨readable, false, magnitude, read, rounded⟩
  | infinite negative =>
    have greatest : Format.single.Canonical ⟨Nat.pow 2 24 - 1, 104⟩ :=
      ⟨by decide, by decide, .inl (by decide)⟩
    obtain ⟨readable, magnitude, read, rounded⟩ := @reread_ofMagnitude _ negative greatest le_rfl
    exact ⟨readable, negative, magnitude, read, rounded⟩
  | finite negative magnitude =>
    obtain ⟨canonical, most⟩ := canonical_of_parts finite
    obtain ⟨readable, read, isRead, rounded⟩ := reread_ofMagnitude negative canonical most
    exact ⟨readable, negative, read, isRead, rounded.trans (ofParts_of_parts finite)⟩

end InkStory
