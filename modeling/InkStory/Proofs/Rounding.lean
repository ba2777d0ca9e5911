import InkStory.Number.Parts
import Mathlib

/-! # Correct rounding

A format rounds a fraction to the one number that admits it (`Format.nearestScaled_eq`,
`Format.admits_nearestScaled`), which is as near as its precision allows
(`Format.error_nearestScaled`). -/

namespace InkStory.Number

variable {base first second denominator numerator : ℕ} {fraction : ℚ}

theorem zpow_eq_div (positive : 0 < base) (exponent : ℤ) :
    (base : ℚ) ^ exponent = base.pow exponent.toNat / base.pow (-exponent).toNat := by
  obtain ⟨power, rfl | rfl⟩ := exponent.eq_nat_or_neg
  · simp [Nat.pow_eq]
  · simp [Nat.pow_eq]

theorem two_zpow (exponent : ℤ) :
    (2 : ℚ) ^ exponent = Nat.pow 2 exponent.toNat / Nat.pow 2 (-exponent).toNat :=
  zpow_eq_div (by decide : 0 < 2) exponent

theorem ten_zpow (exponent : ℤ) :
    (10 : ℚ) ^ exponent = Nat.pow 10 exponent.toNat / Nat.pow 10 (-exponent).toNat :=
  zpow_eq_div (by decide : 0 < 10) exponent

namespace Scaled

/-- The number itself. -/
def value (number : Scaled) : ℚ := number.significand * 2 ^ number.exponent

theorem denominator_pos (number : Scaled) : 0 < number.denominator := Nat.pow_pos (by decide)

theorem value_eq_div (number : Scaled) :
    number.value = (number.numerator : ℚ) / number.denominator := by
  rw [value, two_zpow, numerator, denominator, Nat.cast_mul]
  ring

end Scaled

/-! ### Nearest integers -/

/-- An integer is the nearest to a fraction, and even where another is as near. -/
def Nearest (fraction : ℚ) (whole : ℕ) : Prop :=
  |fraction - whole| ≤ 1 / 2 ∧ (|fraction - whole| = 1 / 2 → whole % 2 = 0)

theorem Nearest.le (isFirst : Nearest fraction first) (isSecond : Nearest fraction second) :
    first ≤ second := by
  by_contra less
  obtain ⟨nearFirst, evenFirst⟩ := isFirst
  obtain ⟨nearSecond, evenSecond⟩ := isSecond
  have apart : (second : ℚ) + 1 ≤ first := by exact_mod_cast not_le.mp less
  obtain ⟨aboveFirst, -⟩ := abs_le.mp nearFirst
  obtain ⟨-, belowSecond⟩ := abs_le.mp nearSecond
  -- Both are half a unit away, so they are neighbours, which are not both even.
  have next : (first : ℚ) = second + 1 := by linarith
  have tie : fraction - second = 1 / 2 := by linarith
  have firstTie : |fraction - first| = 1 / 2 := by
    rw [abs_of_nonpos] <;> linarith
  have secondTie : |fraction - second| = 1 / 2 := by
    rw [tie, abs_of_pos]
    norm_num
  have neighbours : first = second + 1 := by exact_mod_cast next
  have := evenFirst firstTie
  have := evenSecond secondTie
  omega

theorem Nearest.unique (isFirst : Nearest fraction first) (isSecond : Nearest fraction second) :
    first = second :=
  le_antisymm (isFirst.le isSecond) (isSecond.le isFirst)

theorem nearest_roundQuotient (numerator : ℕ) (positive : 0 < denominator) :
    Nearest ((numerator : ℚ) / denominator) (roundQuotient numerator denominator) := by
  have divides : (0 : ℚ) < denominator := by exact_mod_cast positive
  obtain ⟨rest, isRest⟩ : ∃ rest : ℚ, rest = (numerator % denominator : ℕ) / denominator := ⟨_, rfl⟩
  have split : (numerator : ℚ) / denominator = (numerator / denominator : ℕ) + rest := by
    have whole : (denominator : ℚ) * (numerator / denominator : ℕ) + (numerator % denominator : ℕ) =
        numerator := by exact_mod_cast Nat.div_add_mod numerator denominator
    rw [isRest]
    field_simp
    linarith
  have half : rest * (2 * denominator) = (2 * (numerator % denominator) : ℕ) := by
    rw [isRest]
    push_cast
    field_simp
  have bounded : 0 ≤ rest ∧ rest < 1 := by
    rw [isRest, div_lt_one divides]
    exact ⟨by positivity, by exact_mod_cast Nat.mod_lt numerator positive⟩
  rw [split]
  unfold roundQuotient Nearest
  dsimp only
  split_ifs with below above
  · have small : rest < 1 / 2 := by
      have : rest * (2 * denominator) < denominator := by rw [half]; exact_mod_cast below
      nlinarith
    rw [add_sub_cancel_left, abs_of_nonneg bounded.1]
    exact ⟨small.le, fun tie => absurd tie small.ne⟩
  · have large : 1 / 2 < rest := by
      have : (denominator : ℚ) < rest * (2 * denominator) := by rw [half]; exact_mod_cast above
      nlinarith
    rw [abs_of_nonpos] <;> push_cast
    · exact ⟨by linarith, fun tie => by linarith⟩
    · linarith
  · have tie : rest = 1 / 2 := by
      have : rest * (2 * denominator) = denominator := by
        rw [half]
        exact_mod_cast le_antisymm (not_lt.mp above) (not_lt.mp below)
      nlinarith
    rw [tie]
    rcases Nat.mod_two_eq_zero_or_one (numerator / denominator) with even | odd
    · rw [even, Nat.add_zero, add_sub_cancel_left, abs_of_pos (by norm_num)]
      exact ⟨le_rfl, fun _ => even⟩
    · rw [odd, abs_of_nonpos] <;> push_cast
      · exact ⟨by linarith, fun _ => by omega⟩
      · linarith

theorem zpow_le_div_iff (positive : 0 < base) (divides : 0 < denominator) (exponent : ℤ) :
    (base : ℚ) ^ exponent ≤ (numerator : ℚ) / denominator ↔
      denominator * base.pow exponent.toNat ≤ numerator * base.pow (-exponent).toNat := by
  have bottom : (0 : ℚ) < base.pow (-exponent).toNat := by exact_mod_cast Nat.pow_pos positive
  have divides : (0 : ℚ) < denominator := by exact_mod_cast divides
  rw [zpow_eq_div positive, div_le_div_iff₀ bottom divides, mul_comm]
  exact_mod_cast Iff.rfl

/-- The binary logarithm of a fraction. -/
theorem binaryLog_spec (positive : 0 < numerator) (divides : 0 < denominator) :
    (2 : ℚ) ^ binaryLog numerator denominator ≤ (numerator : ℚ) / denominator ∧
      (numerator : ℚ) / denominator < 2 ^ (binaryLog numerator denominator + 1) := by
  have bottom : (0 : ℚ) < denominator := by exact_mod_cast divides
  have aboveTop : (2 : ℚ) ^ (numerator.log2 : ℤ) ≤ numerator := by
    exact_mod_cast Nat.log2_self_le positive.ne'
  have belowTop : (numerator : ℚ) < 2 ^ (numerator.log2 + 1 : ℤ) := by
    exact_mod_cast Nat.lt_log2_self
  have aboveBottom : (2 : ℚ) ^ (denominator.log2 : ℤ) ≤ denominator := by
    exact_mod_cast Nat.log2_self_le divides.ne'
  have belowBottom : (denominator : ℚ) < 2 ^ (denominator.log2 + 1 : ℤ) := by
    exact_mod_cast Nat.lt_log2_self
  unfold binaryLog
  dsimp only
  split
  · next reached =>
    refine ⟨(zpow_le_div_iff (by decide) divides _).mpr reached, ?_⟩
    rw [div_lt_iff₀ bottom]
    calc (numerator : ℚ) < 2 ^ (numerator.log2 + 1 : ℤ) := belowTop
      _ = 2 ^ ((numerator.log2 : ℤ) - denominator.log2 + 1) * 2 ^ (denominator.log2 : ℤ) := by
        rw [← zpow_add₀ two_ne_zero]
        congr 1
        ring
      _ ≤ _ := by gcongr
  · next missed =>
    constructor
    · rw [le_div_iff₀ bottom]
      calc (2 : ℚ) ^ ((numerator.log2 : ℤ) - denominator.log2 - 1) * denominator
          ≤ 2 ^ ((numerator.log2 : ℤ) - denominator.log2 - 1) * 2 ^ (denominator.log2 + 1 : ℤ) := by
            gcongr
        _ = 2 ^ (numerator.log2 : ℤ) := by
            rw [← zpow_add₀ two_ne_zero]
            ring
        _ ≤ numerator := aboveTop
    · rw [sub_add_cancel]
      exact not_le.mp fun reached => missed ((zpow_le_div_iff (by decide) divides _).mp reached)

namespace Format

variable {format : Format} {fraction : ℚ} {first second exponent : ℤ} {numerator denominator : ℕ}
  {number : Scaled}

/-- A number in the form in which the format has it. -/
structure Canonical (format : Format) (number : Scaled) : Prop where
  fits : number.significand < 2 ^ format.precision
  least : format.minExponent ≤ number.exponent
  full : 2 ^ (format.precision - 1) ≤ number.significand ∨ number.exponent = format.minExponent

/-- How far below a number the fractions reach that are rounded to it, in its units. -/
def reach (format : Format) (number : Scaled) : ℚ :=
  if number.significand = 2 ^ (format.precision - 1) ∧ format.minExponent < number.exponent then 1 / 4
  else 1 / 2

/-- A fraction is rounded to a number: it lies around the number, and on the edge only if the number
is even. -/
structure Admits (format : Format) (number : Scaled) (fraction : ℚ) : Prop where
  low : (number.significand - format.reach number) * 2 ^ number.exponent ≤ fraction
  high : fraction ≤ (number.significand + 1 / 2) * 2 ^ number.exponent
  inner : number.significand % 2 = 0 ∨
    (number.significand - format.reach number) * 2 ^ number.exponent < fraction ∧
      fraction < (number.significand + 1 / 2) * 2 ^ number.exponent

/-- A fraction is rounded to units of a power of two: its significand fits, and is full unless the
exponent is the least. -/
structure Grain (format : Format) (fraction : ℚ) (exponent : ℤ) : Prop where
  least : format.minExponent ≤ exponent
  full : exponent = format.minExponent ∨ (2 : ℚ) ^ (exponent + format.precision - 1) ≤ fraction
  fits : fraction < 2 ^ (exponent + format.precision)

theorem Grain.le (isFirst : format.Grain fraction first) (isSecond : format.Grain fraction second) :
    first ≤ second := by
  rcases isFirst.full with least | full
  · exact least ▸ isSecond.least
  · have less := (zpow_lt_zpow_iff_right₀ (one_lt_two (α := ℚ))).mp (full.trans_lt isSecond.fits)
    omega

theorem Grain.unique (isFirst : format.Grain fraction first)
    (isSecond : format.Grain fraction second) : first = second :=
  le_antisymm (isFirst.le isSecond) (isSecond.le isFirst)

/-- The exponent and the significand to which a fraction is rounded, before a carry. -/
theorem nearestScaled_spec (format : Format) {numerator denominator : ℕ} (positive : 0 < numerator)
    (divides : 0 < denominator) :
    ∃ exponent significand, format.Grain ((numerator : ℚ) / denominator) exponent ∧
      Nearest ((numerator : ℚ) / denominator / 2 ^ exponent) significand ∧
      format.nearestScaled numerator denominator =
        if significand = 2 ^ format.precision then ⟨2 ^ (format.precision - 1), exponent + 1⟩
        else ⟨significand, exponent⟩ := by
  obtain ⟨reached, missed⟩ := binaryLog_spec positive divides
  obtain ⟨exponent, isExponent⟩ : ∃ exponent, exponent = max format.minExponent
      (binaryLog numerator denominator - format.precision + 1) := ⟨_, rfl⟩
  have bottom : 0 < denominator * Nat.pow 2 exponent.toNat :=
    Nat.mul_pos divides (Nat.pow_pos (by decide))
  have scaled : ((numerator * Nat.pow 2 (-exponent).toNat : ℕ) : ℚ) /
      (denominator * Nat.pow 2 exponent.toNat : ℕ) = (numerator : ℚ) / denominator / 2 ^ exponent := by
    rw [two_zpow]
    push_cast
    rw [div_div_div_eq]
  refine ⟨exponent, roundQuotient (numerator * Nat.pow 2 (-exponent).toNat)
    (denominator * Nat.pow 2 exponent.toNat), ⟨by omega, ?_, ?_⟩, ?_, ?_⟩
  · rcases (by omega : exponent = format.minExponent ∨
      exponent = binaryLog numerator denominator - format.precision + 1) with least | above
    · exact .inl least
    · refine .inr (le_trans (le_of_eq ?_) reached)
      rw [above]
      ring
  · exact missed.trans_le (zpow_le_zpow_right₀ one_le_two (by omega))
  · rw [← scaled]
    exact nearest_roundQuotient _ bottom
  · rw [isExponent, nearestScaled, if_neg positive.ne']
    rfl

theorem reach_le (number : Scaled) : format.reach number ≤ 1 / 2 := by
  unfold reach
  split <;> norm_num

/-- A fraction that a number admits is nearest to its significand, in its units. -/
theorem Admits.nearest (admits : format.Admits number fraction) :
    Nearest (fraction / 2 ^ number.exponent) number.significand := by
  have unit : (0 : ℚ) < 2 ^ number.exponent := by positivity
  have reach := format.reach_le number
  obtain ⟨low, high, inner⟩ := admits
  rw [← le_div_iff₀ unit] at low
  rw [← div_le_iff₀ unit] at high
  rw [← lt_div_iff₀ unit, ← div_lt_iff₀ unit] at inner
  refine ⟨abs_le.mpr ⟨by linarith, by linarith⟩, fun tie => ?_⟩
  rcases inner with even | ⟨above, below⟩
  · exact even
  · exfalso
    rcases eq_or_eq_neg_of_abs_eq tie with edge | edge <;> linarith

theorem pow_precision (wide : 0 < format.precision) :
    (2 : ℚ) ^ format.precision = 2 * 2 ^ (format.precision - 1) := by
  rw [← pow_succ']
  congr 1
  omega

/-- Just below a power of two a fraction is rounded up to it, in units of half its size. -/
theorem carried_of_admits (above : format.minExponent < exponent) (wide : 0 < format.precision)
    (low : (2 ^ (format.precision - 1) - 1 / 4 : ℚ) * 2 ^ exponent ≤ fraction)
    (below : fraction < 2 ^ (format.precision - 1) * 2 ^ exponent) :
    format.Grain fraction (exponent - 1) ∧
      Nearest (fraction / 2 ^ (exponent - 1)) (2 ^ format.precision) := by
  have unit : (0 : ℚ) < 2 ^ (exponent - 1) := by positivity
  have twice : (2 : ℚ) ^ exponent = 2 * 2 ^ (exponent - 1) := by
    rw [← zpow_one_add₀ two_ne_zero]
    ring
  have carry := pow_precision wide
  have one : (1 : ℚ) ≤ 2 ^ (format.precision - 1) := one_le_pow₀ one_le_two
  rw [twice] at low below
  refine ⟨⟨by omega, .inr ?_, ?_⟩, abs_le.mpr ⟨?_, ?_⟩, fun _ => ?_⟩
  · have power : (2 : ℚ) ^ (exponent - 1 + format.precision - 1) =
        2 ^ (format.precision - 1) * 2 ^ (exponent - 1) := by
      rw [← zpow_natCast, ← zpow_add₀ two_ne_zero]
      congr 1
      omega
    nlinarith
  · rw [zpow_add₀ two_ne_zero, zpow_natCast, carry]
    linarith
  · push_cast
    rw [carry]
    have := (le_div_iff₀ unit).mpr (by linarith :
      (2 * 2 ^ (format.precision - 1) - 1 / 2) * (2 : ℚ) ^ (exponent - 1) ≤ fraction)
    linarith
  · push_cast
    have := (div_lt_iff₀ unit).mpr (by linarith :
      fraction < (2 * 2 ^ (format.precision - 1)) * (2 : ℚ) ^ (exponent - 1))
    linarith
  · obtain ⟨less, same⟩ := Nat.exists_eq_succ_of_ne_zero wide.ne'
    rw [same]
    omega

/-- A fraction is rounded to the number that admits it. -/
theorem nearestScaled_eq (canonical : format.Canonical number) (wide : 0 < format.precision)
    (positive : 0 < numerator) (divides : 0 < denominator)
    (admits : format.Admits number ((numerator : ℚ) / denominator)) :
    format.nearestScaled numerator denominator = number := by
  obtain ⟨exponent, significand, grain, nearest, rounded⟩ :=
    format.nearestScaled_spec positive divides
  obtain ⟨fraction, isFraction⟩ : ∃ fraction : ℚ, fraction = (numerator : ℚ) / denominator := ⟨_, rfl⟩
  rw [← isFraction] at admits grain nearest
  have unit : (0 : ℚ) < 2 ^ number.exponent := by positivity
  have power : (2 : ℚ) ^ (number.exponent + format.precision) =
      2 ^ format.precision * 2 ^ number.exponent := by
    rw [zpow_add₀ two_ne_zero, zpow_natCast, mul_comm]
  have fits : fraction < 2 ^ (number.exponent + format.precision) := by
    have less : (number.significand : ℚ) + 1 ≤ 2 ^ format.precision := by
      exact_mod_cast canonical.fits
    rw [power]
    refine admits.high.trans_lt ?_
    gcongr
    linarith
  by_cases full : number.exponent = format.minExponent ∨
      (2 : ℚ) ^ (number.exponent + format.precision - 1) ≤ fraction
  · obtain rfl := grain.unique ⟨canonical.least, full, fits⟩
    obtain rfl := nearest.unique admits.nearest
    rw [rounded, if_neg canonical.fits.ne]
  · -- Only a power of two admits fractions that have a smaller unit than itself.
    obtain ⟨notLeast, below⟩ := not_or.mp full
    have above : format.minExponent < number.exponent :=
      lt_of_le_of_ne canonical.least (Ne.symm notLeast)
    have half : (2 : ℚ) ^ (number.exponent + format.precision - 1) =
        2 ^ (format.precision - 1) * 2 ^ number.exponent := by
      rw [← zpow_natCast, ← zpow_add₀ two_ne_zero]
      congr 1
      omega
    rw [half, not_le] at below
    have power : number.significand = 2 ^ (format.precision - 1) := by
      have reach := format.reach_le number
      have less := lt_of_mul_lt_mul_right (admits.low.trans_lt below) unit.le
      have small : (number.significand : ℚ) < 2 ^ (format.precision - 1) + 1 := by linarith
      have small : number.significand < 2 ^ (format.precision - 1) + 1 := by exact_mod_cast small
      have := canonical.full.resolve_right notLeast
      omega
    have low := admits.low
    rw [reach, if_pos ⟨power, above⟩, power] at low
    push_cast at low
    have carried := carried_of_admits above wide low below
    obtain rfl := grain.unique carried.1
    obtain rfl := nearest.unique carried.2
    rw [rounded, if_pos rfl, sub_add_cancel, ← power]

theorem Grain.div_lt (grain : format.Grain fraction exponent) :
    fraction / 2 ^ exponent < 2 ^ format.precision := by
  have unit : (0 : ℚ) < 2 ^ exponent := by positivity
  rw [div_lt_iff₀ unit, ← zpow_natCast, ← zpow_add₀ two_ne_zero, add_comm]
  exact grain.fits

theorem Grain.le_div (wide : 0 < format.precision)
    (full : (2 : ℚ) ^ (exponent + format.precision - 1) ≤ fraction) :
    2 ^ (format.precision - 1) ≤ fraction / 2 ^ exponent := by
  have unit : (0 : ℚ) < 2 ^ exponent := by positivity
  rw [le_div_iff₀ unit, ← zpow_natCast, ← zpow_add₀ two_ne_zero]
  refine le_trans (le_of_eq ?_) full
  congr 1
  omega

theorem Nearest.error {significand : ℕ} (nearest : Nearest (fraction / 2 ^ exponent) significand) :
    |significand * 2 ^ exponent - fraction| ≤ 2 ^ exponent / 2 := by
  have unit : (0 : ℚ) < 2 ^ exponent := by positivity
  have apart : significand * 2 ^ exponent - fraction =
      -(fraction / 2 ^ exponent - significand) * 2 ^ exponent := by
    field_simp
    ring
  rw [apart, abs_mul, abs_neg, abs_of_pos unit]
  have := nearest.1
  nlinarith

section Rounded

variable {significand : ℕ} (format : Format) (wide : 0 < format.precision) (positive : 0 < numerator)
  (divides : 0 < denominator)

include wide positive divides

theorem canonical_nearestScaled :
    format.Canonical (format.nearestScaled numerator denominator) := by
  obtain ⟨exponent, significand, grain, nearest, rounded⟩ :=
    format.nearestScaled_spec positive divides
  obtain ⟨below, above⟩ := abs_le.mp nearest.1
  have most : significand ≤ 2 ^ format.precision := by
    have := grain.div_lt
    have : (significand : ℚ) < 2 ^ format.precision + 1 := by linarith
    exact Nat.lt_succ_iff.mp (by exact_mod_cast this)
  rw [rounded]
  split
  · exact ⟨Nat.pow_lt_pow_right (by decide) (by omega), by have := grain.least; dsimp only; omega,
      .inl le_rfl⟩
  · next uncarried =>
    refine ⟨lt_of_le_of_ne most uncarried, grain.least, ?_⟩
    rcases grain.full with least | full
    · exact .inr least
    · have := Grain.le_div wide full
      have : (2 : ℚ) ^ (format.precision - 1) < significand + 1 := by linarith
      exact .inl (Nat.lt_succ_iff.mp (by exact_mod_cast this))

/-- A fraction is rounded to the nearest multiple of its unit. -/
theorem value_nearestScaled :
    ∃ exponent significand, format.Grain ((numerator : ℚ) / denominator) exponent ∧
      Nearest ((numerator : ℚ) / denominator / 2 ^ exponent) significand ∧
      (format.nearestScaled numerator denominator).value = significand * 2 ^ exponent := by
  obtain ⟨exponent, significand, grain, nearest, rounded⟩ :=
    format.nearestScaled_spec positive divides
  refine ⟨exponent, significand, grain, nearest, ?_⟩
  rw [rounded]
  split
  · next carried =>
    rw [carried, Scaled.value]
    push_cast
    rw [zpow_add_one₀ two_ne_zero, pow_precision wide]
    ring
  · rfl

/-- Rounding changes a fraction by half a unit of the precision at most. -/
theorem error_nearestScaled
    (normal : (2 : ℚ) ^ (format.minExponent + format.precision - 1) ≤ (numerator : ℚ) / denominator) :
    |(format.nearestScaled numerator denominator).value - (numerator : ℚ) / denominator| ≤
      (numerator : ℚ) / denominator / 2 ^ format.precision := by
  obtain ⟨exponent, significand, grain, nearest, rounded⟩ :=
    format.value_nearestScaled wide positive divides
  have full : (2 : ℚ) ^ (exponent + format.precision - 1) ≤ (numerator : ℚ) / denominator := by
    rcases grain.full with least | full
    · rw [least]
      exact normal
    · exact full
  have unit : (0 : ℚ) < 2 ^ exponent := by positivity
  have large := (le_div_iff₀ unit).mp (Grain.le_div wide full)
  rw [rounded]
  refine (Nearest.error nearest).trans ?_
  rw [pow_precision wide, le_div_iff₀ (by positivity)]
  linarith

/-- A fraction that the format has is rounded to itself. -/
theorem value_nearestScaled_of_eq (fits : significand < 2 ^ format.precision)
    (least : format.minExponent ≤ exponent)
    (same : (numerator : ℚ) / denominator = significand * 2 ^ exponent) :
    (format.nearestScaled numerator denominator).value = significand * 2 ^ exponent := by
  obtain ⟨unit, found, grain, nearest, rounded⟩ := format.value_nearestScaled wide positive divides
  have coarse : unit ≤ exponent := by
    rcases grain.full with isLeast | full
    · exact isLeast ▸ least
    · have small : (numerator : ℚ) / denominator < 2 ^ (exponent + format.precision) := by
        rw [same, add_comm, zpow_add₀ two_ne_zero, zpow_natCast]
        gcongr
        exact_mod_cast fits
      have less := (zpow_lt_zpow_iff_right₀ (one_lt_two (α := ℚ))).mp (full.trans_lt small)
      omega
  obtain ⟨more, rfl⟩ := Int.le.dest coarse
  have whole : (numerator : ℚ) / denominator / 2 ^ unit = (significand * 2 ^ more : ℕ) := by
    rw [same, zpow_add₀ two_ne_zero, zpow_natCast]
    push_cast
    field_simp
  have exact_ : Nearest ((numerator : ℚ) / denominator / 2 ^ unit) (significand * 2 ^ more) := by
    rw [whole]
    unfold Nearest
    simp
  obtain rfl := nearest.unique exact_
  rw [rounded, zpow_add₀ two_ne_zero, zpow_natCast]
  push_cast
  ring

end Rounded

theorem admits_of_nearest {significand : ℕ} (wide : 0 < format.precision)
    (grain : format.Grain fraction exponent)
    (nearest : Nearest (fraction / 2 ^ exponent) significand) :
    format.Admits ⟨significand, exponent⟩ fraction := by
  have unit : (0 : ℚ) < 2 ^ exponent := by positivity
  obtain ⟨below, above⟩ := abs_le.mp nearest.1
  have inside : format.reach ⟨significand, exponent⟩ = 1 / 2 ∨
      format.reach ⟨significand, exponent⟩ = 1 / 4 ∧ (significand : ℚ) ≤ fraction / 2 ^ exponent := by
    unfold reach
    split
    · next power =>
      have same : significand = 2 ^ (format.precision - 1) := power.1
      have large := Grain.le_div wide (grain.full.resolve_left power.2.ne')
      rw [same]
      exact .inr ⟨rfl, by exact_mod_cast large⟩
    · exact .inl rfl
  have low : (significand : ℚ) - format.reach ⟨significand, exponent⟩ ≤ fraction / 2 ^ exponent := by
    rcases inside with half | ⟨quarter, large⟩ <;> linarith
  refine ⟨(le_div_iff₀ unit).mp low, (div_le_iff₀ unit).mp (by linarith), ?_⟩
  by_cases even : significand % 2 = 0
  · exact .inl even
  · have strict : |fraction / 2 ^ exponent - significand| < 1 / 2 :=
      lt_of_le_of_ne nearest.1 fun tie => even (nearest.2 tie)
    obtain ⟨below, above⟩ := abs_lt.mp strict
    have low : (significand : ℚ) - format.reach ⟨significand, exponent⟩ < fraction / 2 ^ exponent := by
      rcases inside with half | ⟨quarter, large⟩ <;> linarith
    exact .inr ⟨(lt_div_iff₀ unit).mp low, (div_lt_iff₀ unit).mp (by linarith)⟩

/-- A number admits the fractions that are rounded to it. -/
theorem admits_nearestScaled (format : Format) (wide : 1 < format.precision)
    (positive : 0 < numerator) (divides : 0 < denominator) :
    format.Admits (format.nearestScaled numerator denominator) ((numerator : ℚ) / denominator) := by
  obtain ⟨exponent, significand, grain, nearest, rounded⟩ :=
    format.nearestScaled_spec positive divides
  have unit : (0 : ℚ) < 2 ^ exponent := by positivity
  have most := (div_lt_iff₀ unit).mp grain.div_lt
  obtain ⟨below, above⟩ := abs_le.mp nearest.1
  have low := (le_div_iff₀ unit).mp (by linarith :
    (significand : ℚ) - 1 / 2 ≤ (numerator : ℚ) / denominator / 2 ^ exponent)
  rw [rounded]
  split
  · next carried =>
    have least := grain.least
    have reach : format.reach ⟨2 ^ (format.precision - 1), exponent + 1⟩ = 1 / 4 :=
      if_pos ⟨rfl, by dsimp only; omega⟩
    have carry := pow_precision (by omega : 0 < format.precision)
    rw [carried] at low
    push_cast at low
    rw [carry] at low most
    refine ⟨?_, ?_, .inl ?_⟩
    · rw [reach, zpow_add_one₀ two_ne_zero]
      push_cast
      linarith
    · rw [zpow_add_one₀ two_ne_zero]
      push_cast
      linarith
    · obtain ⟨less, same⟩ : ∃ less, format.precision - 1 = less + 1 := ⟨format.precision - 2, by omega⟩
      simp only [same]
      omega
  · exact admits_of_nearest (by omega) grain nearest

end Format

end InkStory.Number
