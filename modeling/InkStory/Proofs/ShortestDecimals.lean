import InkStory.Number.Shortest
import InkStory.Proofs.Rounding

/-! # Shortest decimals

The decimal with the fewest digits lies among the fractions that are rounded to its number, next to
the number on its grid, and no coarser grid has one (`Interval.search_spec`). -/

namespace InkStory.Number

variable {format : Format} {decimal : Decimal}

/-- The number itself. -/
def Decimal.value (decimal : Decimal) : ℚ := decimal.digits * 10 ^ decimal.exponent

theorem Decimal.value_eq_div (decimal : Decimal) :
    decimal.value = ((decimal.digits * Nat.pow 10 decimal.exponent.toNat : ℕ) : ℚ) /
      (Nat.pow 10 (-decimal.exponent).toNat : ℕ) := by
  rw [value, ten_zpow, Nat.cast_mul]
  ring

/-! ### Grids -/

section Grid

variable (top : ℕ) {bottom : ℕ} (divides : 0 < bottom) (exponent : ℤ) (multiple : ℕ)

/-- A fraction and a multiple of a power of ten, in units that make both whole. -/
theorem exists_unit_grid (divides : 0 < bottom) :
    ∃ unit : ℚ, 0 < unit ∧ unit * (top / bottom) = (top * Nat.pow 10 (-exponent).toNat : ℕ) ∧
      unit * (multiple * 10 ^ exponent) =
        (multiple * (bottom * Nat.pow 10 exponent.toNat) : ℕ) := by
  have below : (0 : ℚ) < Nat.pow 10 (-exponent).toNat := by exact_mod_cast Nat.pow_pos (by decide)
  refine ⟨bottom * Nat.pow 10 (-exponent).toNat, by positivity, ?_, ?_⟩
  · push_cast
    field_simp
  · rw [ten_zpow]
    push_cast
    field_simp

include divides

theorem div_le_grid_iff :
    (top : ℚ) / bottom ≤ multiple * 10 ^ exponent ↔
      top * Nat.pow 10 (-exponent).toNat ≤ multiple * (bottom * Nat.pow 10 exponent.toNat) := by
  obtain ⟨unit, positive, fraction, grid⟩ := exists_unit_grid top exponent multiple divides
  rw [← mul_le_mul_iff_right₀ positive, fraction, grid, Nat.cast_le]

theorem grid_le_div_iff :
    multiple * 10 ^ exponent ≤ (top : ℚ) / bottom ↔
      multiple * (bottom * Nat.pow 10 exponent.toNat) ≤ top * Nat.pow 10 (-exponent).toNat := by
  obtain ⟨unit, positive, fraction, grid⟩ := exists_unit_grid top exponent multiple divides
  rw [← mul_le_mul_iff_right₀ positive, fraction, grid, Nat.cast_le]

end Grid

namespace Interval

/-- An interval over the denominator of a grid. -/
def rescaled (interval : Interval) (exponent : ℤ) : Interval :=
  { interval with
    lower := interval.lower * Nat.pow 10 (-exponent).toNat
    value := interval.value * Nat.pow 10 (-exponent).toNat
    upper := interval.upper * Nat.pow 10 (-exponent).toNat }

/-- The multiples of a power of ten next to the number of an interval are tried in the order of their
distance. -/
theorem onGrid?_eq (interval : Interval) (tie : Tie) (exponent : ℤ) {step below : ℕ}
    (isStep : step = interval.denominator * Nat.pow 10 exponent.toNat)
    (isBelow : below = interval.value * Nat.pow 10 (-exponent).toNat / step) :
    ∃ nearer : Bool, interval.onGrid? tie exponent =
      if (interval.rescaled exponent).admits (below * step) &&
          !((interval.rescaled exponent).admits ((below + 1) * step) && nearer) then
        some ⟨below, exponent⟩
      else if (interval.rescaled exponent).admits ((below + 1) * step) then
        some ⟨below + 1, exponent⟩
      else none := by
  subst isStep
  subst isBelow
  exact ⟨_, rfl⟩

end Interval

namespace Format

variable {number : Scaled} {exponent : ℤ}

theorem denominator_interval_pos (format : Format) (number : Scaled) :
    0 < (format.interval number).denominator := Nat.pow_pos (by decide)

/-- The numerators of an interval are in quarters of the number's unit. -/
theorem quarters_interval (quarters : ℕ) :
    ((quarters * Nat.pow 2 (number.exponent - 2).toNat : ℕ) : ℚ) /
      (format.interval number).denominator = quarters / 4 * 2 ^ number.exponent := by
  have power := two_zpow (number.exponent - 2)
  have quarter : (2 : ℚ) ^ (number.exponent - 2) = 2 ^ number.exponent / 4 := by
    rw [zpow_sub₀ two_ne_zero]
    norm_num
  have same : (format.interval number).denominator = Nat.pow 2 (-(number.exponent - 2)).toNat := by
    rw [neg_sub]
    rfl
  rw [same, Nat.cast_mul, mul_div_assoc, ← power, quarter]
  ring

theorem lower_interval (positive : 0 < number.significand) :
    ((format.interval number).lower : ℚ) / (format.interval number).denominator =
      (number.significand - format.reach number) * 2 ^ number.exponent := by
  refine (quarters_interval _).trans ?_
  unfold reach
  split
  · next power =>
    rw [Nat.pow_eq] at power
    rw [if_pos power, Nat.cast_sub (by omega)]
    push_cast
    ring
  · next other =>
    rw [Nat.pow_eq] at other
    rw [if_neg other, Nat.cast_sub (by omega)]
    push_cast
    ring

theorem value_interval (format : Format) (number : Scaled) :
    ((format.interval number).value : ℚ) / (format.interval number).denominator = number.value := by
  refine (quarters_interval _).trans ?_
  rw [Scaled.value]
  push_cast
  ring

theorem upper_interval (format : Format) (number : Scaled) :
    ((format.interval number).upper : ℚ) / (format.interval number).denominator =
      (number.significand + 1 / 2) * 2 ^ number.exponent := by
  refine (quarters_interval _).trans ?_
  push_cast
  ring

/-- A multiple of a power of ten lies in the interval of a number if the number admits it. -/
theorem admits_rescaled_iff (format : Format) (positive : 0 < number.significand) (exponent : ℤ) (multiple : ℕ) :
    ((format.interval number).rescaled exponent).admits
        (multiple * ((format.interval number).denominator * Nat.pow 10 exponent.toNat)) ↔
      format.Admits number (multiple * 10 ^ exponent) := by
  have divides := denominator_interval_pos format number
  have fromLow := div_le_grid_iff (format.interval number).lower divides exponent multiple
  have toLow := grid_le_div_iff (format.interval number).lower divides exponent multiple
  have fromHigh := div_le_grid_iff (format.interval number).upper divides exponent multiple
  have toHigh := grid_le_div_iff (format.interval number).upper divides exponent multiple
  rw [lower_interval positive] at fromLow toLow
  rw [upper_interval] at fromHigh toHigh
  unfold Interval.admits
  split
  · next closed =>
    have even : number.significand % 2 = 0 := by simpa [Interval.rescaled, interval] using closed
    rw [Bool.and_eq_true, decide_eq_true_eq, decide_eq_true_eq]
    exact ⟨fun ⟨low, high⟩ => ⟨fromLow.mpr low, toHigh.mpr high, .inl even⟩,
      fun admits => ⟨fromLow.mp admits.low, toHigh.mp admits.high⟩⟩
  · next opened =>
    have odd : number.significand % 2 ≠ 0 := by simpa [Interval.rescaled, interval] using opened
    rw [Bool.and_eq_true, decide_eq_true_eq, decide_eq_true_eq]
    constructor
    · intro ⟨low, high⟩
      have low := not_le.mp (toLow.not.mpr (not_le.mpr low))
      have high := not_le.mp (fromHigh.not.mpr (not_le.mpr high))
      exact ⟨low.le, high.le, .inr ⟨low, high⟩⟩
    · intro admits
      obtain ⟨low, high⟩ := admits.inner.resolve_left odd
      exact ⟨not_le.mp (toLow.not.mp (not_le.mpr low)),
        not_le.mp (fromHigh.not.mp (not_le.mpr high))⟩

theorem Admits.between {first second : ℚ} (admits : format.Admits number first)
    (inside : first ≤ second ∧ second ≤ number.value ∨ number.value ≤ second ∧ second ≤ first) :
    format.Admits number second := by
  have unit : (0 : ℚ) < 2 ^ number.exponent := by positivity
  have reach : 0 < format.reach number := by
    unfold reach
    split <;> norm_num
  have low : (number.significand - format.reach number) * 2 ^ number.exponent < number.value := by
    unfold Scaled.value
    nlinarith
  have high : number.value < (number.significand + 1 / 2) * 2 ^ number.exponent := by
    unfold Scaled.value
    nlinarith
  obtain ⟨above, below, inner⟩ := admits
  rcases inside with ⟨after, before⟩ | ⟨after, before⟩
  · exact ⟨by linarith, by linarith, inner.imp_right fun ⟨above, _⟩ => ⟨by linarith, by linarith⟩⟩
  · exact ⟨by linarith, by linarith, inner.imp_right fun ⟨_, below⟩ => ⟨by linarith, by linarith⟩⟩

/-- The neighbours of a number on a grid, and which of them is taken. -/
theorem onGrid?_cases (format : Format) (positive : 0 < number.significand) (tie : Tie)
    (exponent : ℤ) :
    ∃ below : ℕ, below * 10 ^ exponent ≤ number.value ∧
      number.value < (below + 1 : ℕ) * 10 ^ exponent ∧
      ((format.interval number).onGrid? tie exponent = some ⟨below, exponent⟩ ∧
          format.Admits number (below * 10 ^ exponent) ∨
        (format.interval number).onGrid? tie exponent = some ⟨below + 1, exponent⟩ ∧
          format.Admits number ((below + 1 : ℕ) * 10 ^ exponent) ∨
        (format.interval number).onGrid? tie exponent = none ∧
          ¬format.Admits number (below * 10 ^ exponent) ∧
          ¬format.Admits number ((below + 1 : ℕ) * 10 ^ exponent)) := by
  have divides := denominator_interval_pos format number
  obtain ⟨step, isStep⟩ : ∃ step, step =
      (format.interval number).denominator * Nat.pow 10 exponent.toNat := ⟨_, rfl⟩
  obtain ⟨below, isBelow⟩ : ∃ below, below =
      (format.interval number).value * Nat.pow 10 (-exponent).toNat / step := ⟨_, rfl⟩
  have spaced : 0 < step := isStep ▸ Nat.mul_pos divides (Nat.pow_pos (by decide))
  obtain ⟨nearer, taken⟩ := (format.interval number).onGrid?_eq tie exponent isStep isBelow
  have belowFits := admits_rescaled_iff format positive exponent below
  have aboveFits := admits_rescaled_iff format positive exponent (below + 1)
  rw [← isStep] at belowFits aboveFits
  refine ⟨below, ?_, ?_, ?_⟩
  · rw [← value_interval format, grid_le_div_iff _ divides, ← isStep, isBelow]
    exact Nat.div_mul_le_self _ step
  · rw [← value_interval format, ← not_le, grid_le_div_iff _ divides, ← isStep, not_le, isBelow]
    exact (Nat.lt_mul_div_succ _ spaced).trans_eq (mul_comm _ _)
  · rw [taken, ← belowFits, ← aboveFits]
    cases ((format.interval number).rescaled exponent).admits (below * step) <;>
      cases ((format.interval number).rescaled exponent).admits ((below + 1) * step) <;>
      cases nearer <;> simp

/-- A decimal that is found on a grid is admitted, and next to the number. -/
theorem admits_of_onGrid? {tie : Tie} (positive : 0 < number.significand)
    (found : (format.interval number).onGrid? tie exponent = some decimal) :
    decimal.exponent = exponent ∧ format.Admits number decimal.value ∧
      |decimal.value - number.value| ≤ 10 ^ exponent := by
  obtain ⟨below, after, before, taken⟩ := onGrid?_cases format positive tie exponent
  push_cast at before taken
  rw [found] at taken
  rcases taken with ⟨same, admits⟩ | ⟨same, admits⟩ | ⟨same, -⟩
  · cases same
    refine ⟨rfl, admits, abs_le.mpr ⟨?_, ?_⟩⟩ <;> unfold Decimal.value <;> linarith
  · cases same
    unfold Decimal.value
    push_cast
    refine ⟨rfl, admits, abs_le.mpr ⟨?_, ?_⟩⟩ <;> linarith
  · contradiction

/-- A grid has a decimal if it has any that the number admits. -/
theorem onGrid?_isSome {multiple : ℕ} (tie : Tie) (positive : 0 < number.significand)
    (admits : format.Admits number (multiple * 10 ^ exponent)) :
    ((format.interval number).onGrid? tie exponent).isSome := by
  obtain ⟨below, after, before, taken⟩ := onGrid?_cases format positive tie exponent
  rcases taken with ⟨same, -⟩ | ⟨same, -⟩ | ⟨-, missesBelow, missesAbove⟩
  · rw [same]
    rfl
  · rw [same]
    rfl
  · exfalso
    rcases Nat.lt_or_ge below multiple with above | notAbove
    · refine missesAbove (admits.between (.inr ⟨before.le, ?_⟩))
      gcongr
      exact_mod_cast above
    · refine missesBelow (admits.between (.inl ⟨?_, after⟩))
      gcongr

/-- A grid as fine as a quarter of the number's unit has a decimal. -/
theorem onGrid?_isSome_of_fine (tie : Tie) (positive : 0 < number.significand)
    (fine : (10 : ℚ) ^ exponent ≤ 2 ^ number.exponent / 4) :
    ((format.interval number).onGrid? tie exponent).isSome := by
  obtain ⟨below, after, before, -⟩ := onGrid?_cases format positive tie exponent
  push_cast at before
  have unit : (0 : ℚ) < 2 ^ number.exponent := by positivity
  have reach : 1 / 4 ≤ format.reach number := by
    unfold reach
    split <;> norm_num
  have low : (number.significand - format.reach number) * 2 ^ number.exponent <
      below * 10 ^ exponent := by
    unfold Scaled.value at before
    nlinarith
  have high : below * 10 ^ exponent < (number.significand + 1 / 2) * (2 : ℚ) ^ number.exponent := by
    unfold Scaled.value at after
    nlinarith
  exact onGrid?_isSome tie positive ⟨low.le, high.le, .inr ⟨low, high⟩⟩

end Format

/-! ### The first grid with a decimal -/

namespace Interval

variable {interval : Interval} {tie : Tie}

theorem search_spec {fuel : ℕ} {start : ℤ}
    (found : ∃ less < fuel, (interval.onGrid? tie (start - less)).isSome) :
    ∃ exponent ≤ start, ∃ decimal, start < exponent + fuel ∧
      interval.onGrid? tie exponent = some decimal ∧ interval.search tie fuel start = decimal ∧
      ∀ coarser, exponent < coarser → coarser ≤ start → interval.onGrid? tie coarser = none := by
  induction fuel generalizing start with
  | zero =>
    obtain ⟨less, impossible, -⟩ := found
    contradiction
  | succ fuel ih =>
    cases here : interval.onGrid? tie start with
    | some decimal =>
      refine ⟨start, le_rfl, decimal, by omega, here, ?_, fun coarser above most => by omega⟩
      simp [search, here]
    | none =>
      obtain ⟨less, bounded, later⟩ := found
      have positive : less ≠ 0 := by
        rintro rfl
        simp [here] at later
      obtain ⟨exponent, below, decimal, near, at_, searched, none⟩ :=
        @ih (start - 1) ⟨less - 1, by omega, by
          rwa [show start - 1 - ((less - 1 : ℕ) : ℤ) = start - less by omega]⟩
      refine ⟨exponent, by omega, decimal, by push_cast; omega, at_, ?_, fun coarser above most => ?_⟩
      · simp [search, here, searched]
      · rcases eq_or_lt_of_le most with rfl | less
        · exact here
        · exact none coarser above (by omega)

end Interval

/-! ### Where the search starts -/

/-- The binary order of magnitude of a number. -/
def Scaled.magnitude (number : Scaled) : ℤ := number.exponent + Nat.log2 number.significand + 1

theorem Scaled.value_magnitude {number : Scaled} (positive : 0 < number.significand) :
    (2 : ℚ) ^ (number.magnitude - 1) ≤ number.value ∧ number.value < 2 ^ number.magnitude := by
  have least : (2 : ℚ) ^ Nat.log2 number.significand ≤ number.significand := by
    exact_mod_cast Nat.log2_self_le positive.ne'
  have most : (number.significand : ℚ) < 2 ^ (Nat.log2 number.significand + 1) := by
    exact_mod_cast Nat.lt_log2_self
  unfold magnitude value
  constructor
  · rw [add_sub_cancel_right, zpow_add₀ two_ne_zero, zpow_natCast, mul_comm]
    gcongr
  · rw [add_assoc, zpow_add₀ two_ne_zero, mul_comm]
    gcongr
    exact_mod_cast most

/-- The exponent of ten from which decimals of a magnitude are searched. -/
def firstGrid (magnitude : ℤ) : ℤ := magnitude * 30103 / 100000 + 1

theorem zpow_le_zpow_iff {first second : ℕ} (isPositive : 0 < first) (positive : 0 < second)
    (left right : ℤ) :
    (first : ℚ) ^ left ≤ (second : ℚ) ^ right ↔
      first.pow left.toNat * second.pow (-right).toNat ≤
        second.pow right.toNat * first.pow (-left).toNat := by
  have firstBottom : (0 : ℚ) < first.pow (-left).toNat := by exact_mod_cast Nat.pow_pos isPositive
  have secondBottom : (0 : ℚ) < second.pow (-right).toNat := by exact_mod_cast Nat.pow_pos positive
  rw [zpow_eq_div isPositive, zpow_eq_div positive, div_le_div_iff₀ firstBottom secondBottom]
  exact_mod_cast Iff.rfl

/-- The search starts above the number and at most two powers of ten above it. -/
theorem firstGrid_bounds {magnitude : ℤ} (least : -160 ≤ magnitude) (most : magnitude ≤ 140) :
    (2 : ℚ) ^ magnitude ≤ 10 ^ firstGrid magnitude ∧
      (10 : ℚ) ^ (firstGrid magnitude - 2) ≤ 2 ^ magnitude := by
  have all : ∀ index ∈ List.range 301,
      Nat.pow 2 ((index : ℤ) - 160).toNat * Nat.pow 10 (-firstGrid ((index : ℤ) - 160)).toNat ≤
          Nat.pow 10 (firstGrid ((index : ℤ) - 160)).toNat * Nat.pow 2 (-((index : ℤ) - 160)).toNat ∧
        Nat.pow 10 (firstGrid ((index : ℤ) - 160) - 2).toNat * Nat.pow 2 (-((index : ℤ) - 160)).toNat ≤
          Nat.pow 2 ((index : ℤ) - 160).toNat *
            Nat.pow 10 (-(firstGrid ((index : ℤ) - 160) - 2)).toNat := by
    decide +kernel
  have here := all (magnitude + 160).toNat (List.mem_range.mpr (by omega))
  rw [show (((magnitude + 160).toNat : ℕ) : ℤ) - 160 = magnitude by omega] at here
  exact ⟨(zpow_le_zpow_iff (by decide) (by decide) _ _).mpr here.1,
    (zpow_le_zpow_iff (by decide) (by decide) _ _).mpr here.2⟩

/-! ### Decimals of single precision -/

namespace Format

variable {number : Scaled}

/-- A decimal that is rounded to a number and next to it on its grid, where no coarser grid has one
that is rounded to it. -/
structure IsShortest (format : Format) (number : Scaled) (decimal : Decimal) : Prop where
  admits : format.Admits number decimal.value
  near : |decimal.value - number.value| ≤ 10 ^ decimal.exponent
  coarsest : ∀ coarser, decimal.exponent < coarser → ∀ multiple : ℕ,
    ¬format.Admits number (multiple * 10 ^ coarser)

theorem Admits.bounds {fraction : ℚ} (admits : format.Admits number fraction)
    (positive : 0 < number.significand) :
    number.value / 2 ≤ fraction ∧ fraction ≤ 2 * number.value := by
  have unit : (0 : ℚ) < 2 ^ number.exponent := by positivity
  have one : (1 : ℚ) ≤ number.significand := by exact_mod_cast positive
  have reach := format.reach_le number
  obtain ⟨low, high, -⟩ := admits
  unfold Scaled.value
  constructor <;> nlinarith

/-- No power of ten from which a search starts, or above it, has multiples that are admitted. -/
theorem not_admits_above (positive : 0 < number.significand) (least : -160 ≤ number.magnitude)
    (most : number.magnitude ≤ 140) {exponent : ℤ} (above : firstGrid number.magnitude < exponent)
    (multiple : ℕ) : ¬format.Admits number (multiple * 10 ^ exponent) := by
  intro admits
  obtain ⟨low, high⟩ := admits.bounds positive
  obtain ⟨larger, smaller⟩ := Scaled.value_magnitude positive
  have value : 0 < number.value := lt_of_lt_of_le (by positivity) larger
  have start := (firstGrid_bounds least most).1
  have tenfold : (10 : ℚ) * 10 ^ firstGrid number.magnitude ≤ 10 ^ exponent := by
    rw [← zpow_one_add₀ (by norm_num)]
    exact zpow_le_zpow_right₀ (by norm_num) (by omega)
  rcases Nat.eq_zero_or_pos multiple with rfl | present
  · norm_num at low
    linarith
  · have one : (1 : ℚ) ≤ multiple := by exact_mod_cast present
    nlinarith

/-- The shortest decimal of a number is as its name says. -/
theorem isShortest (tie : Tie) (canonical : format.Canonical number)
    (positive : 0 < number.significand) (least : -160 ≤ number.magnitude)
    (most : number.magnitude ≤ 140) : format.IsShortest number (format.shortest tie number) := by
  have digits : Nat.log2 number.significand < format.precision :=
    (Nat.log2_lt positive.ne').mpr canonical.fits
  have fine : (10 : ℚ) ^ (firstGrid number.magnitude - (format.precision + 7 : ℕ)) ≤
      2 ^ number.exponent / 4 := by
    have start := (firstGrid_bounds least most).2
    have fewer : (10 : ℚ) ^ (firstGrid number.magnitude - 2) =
        10 ^ (firstGrid number.magnitude - (format.precision + 7 : ℕ)) *
          (10 ^ format.precision * 10 ^ 5) := by
      rw [← pow_add, ← zpow_natCast, ← zpow_add₀ (by norm_num)]
      congr 1
      omega
    have wide : (2 : ℚ) ^ number.magnitude ≤ 2 ^ number.exponent * 2 ^ format.precision := by
      rw [← zpow_natCast, ← zpow_add₀ two_ne_zero]
      refine zpow_le_zpow_right₀ one_le_two ?_
      unfold Scaled.magnitude
      omega
    have power : (2 : ℚ) ^ format.precision ≤ 10 ^ format.precision := by
      gcongr
      norm_num
    have unit : (0 : ℚ) < 2 ^ number.exponent := by positivity
    have present : (0 : ℚ) < 10 ^ format.precision := by positivity
    nlinarith
  have finds := @onGrid?_isSome_of_fine format number _ tie positive fine
  obtain ⟨exponent, below, decimal, near, found, searched, none⟩ :=
    @Interval.search_spec (format.interval number) tie (format.precision + 8)
      (firstGrid number.magnitude) ⟨format.precision + 7, by omega, finds⟩
  obtain ⟨rfl, admits, next⟩ := admits_of_onGrid? positive found
  have same : format.shortest tie number = decimal := searched
  rw [same]
  refine ⟨admits, next, fun coarser above multiple admitted => ?_⟩
  rcases le_or_gt coarser (firstGrid number.magnitude) with within | beyond
  · have some_ := onGrid?_isSome tie positive admitted
    rw [none coarser above within] at some_
    contradiction
  · exact not_admits_above positive least most beyond multiple admitted

theorem IsShortest.unit_lt (shortest : format.IsShortest number decimal)
    (positive : 0 < number.significand) :
    (2 : ℚ) ^ number.exponent / 4 < 10 ^ (decimal.exponent + 1) := by
  by_contra fine
  have finds := @onGrid?_isSome_of_fine format number _ .up positive (not_lt.mp fine)
  obtain ⟨found, there⟩ := Option.isSome_iff_exists.mp finds
  obtain ⟨order, admits, -⟩ := admits_of_onGrid? positive there
  refine shortest.coarsest (decimal.exponent + 1) (by omega) found.digits ?_
  rwa [Decimal.value, order] at admits

theorem IsShortest.digits_pos (shortest : format.IsShortest number decimal)
    (positive : 0 < number.significand) : 0 < decimal.digits := by
  have low := (shortest.admits.bounds positive).1
  have present := lt_of_lt_of_le (by positivity) (Scaled.value_magnitude positive).1
  apply Nat.pos_of_ne_zero
  intro zero
  rw [Decimal.value, zero] at low
  linarith

/-- A shortest decimal has few more digits than the precision asks for. -/
theorem IsShortest.digits_lt (shortest : format.IsShortest number decimal)
    (canonical : format.Canonical number) (positive : 0 < number.significand) :
    decimal.digits < 2 ^ (format.precision + 7) := by
  have high := (shortest.admits.bounds positive).2
  have coarse := shortest.unit_lt positive
  have unit : (0 : ℚ) < 10 ^ decimal.exponent := by positivity
  have fits : (number.significand : ℚ) < 2 ^ format.precision := by exact_mod_cast canonical.fits
  rw [zpow_add_one₀ (by norm_num)] at coarse
  have few : decimal.digits * (10 : ℚ) ^ decimal.exponent <
      2 ^ (format.precision + 7) * 10 ^ decimal.exponent := by
    calc decimal.digits * (10 : ℚ) ^ decimal.exponent
        ≤ 2 * (number.significand * 2 ^ number.exponent) := high
      _ < 2 * (2 ^ format.precision * (4 * (10 ^ decimal.exponent * 10))) := by
          gcongr
          linarith
      _ ≤ _ := by
          rw [pow_add]
          nlinarith
  exact_mod_cast lt_of_mul_lt_mul_right few unit.le

theorem Admits.abs_sub_le {first second : ℚ} (isFirst : format.Admits number first)
    (isSecond : format.Admits number second) : |first - second| ≤ 2 ^ number.exponent := by
  have unit : (0 : ℚ) < 2 ^ number.exponent := by positivity
  have reach := format.reach_le number
  have firstLow := isFirst.low
  have secondLow := isSecond.low
  have firstHigh := isFirst.high
  have secondHigh := isSecond.high
  refine abs_le.mpr ⟨?_, ?_⟩ <;> nlinarith

/-- A finer format has the same shortest decimal for the number next to a shortest decimal. -/
theorem IsShortest.unique {finer : Format} {other : Scaled} {second : Decimal}
    (shortest : format.IsShortest number decimal) (isSecond : finer.IsShortest other second)
    (admits : finer.Admits other decimal.value)
    (fine : (2 : ℚ) ^ other.exponent < 10 ^ decimal.exponent) : second = decimal := by
  obtain ⟨digits, exponent⟩ := decimal
  obtain ⟨otherDigits, otherExponent⟩ := second
  obtain ⟨more, rfl⟩ : ∃ more : ℕ, exponent + more = otherExponent := by
    refine Int.le.dest (not_lt.mp fun finer => ?_)
    exact isSecond.coarsest exponent finer digits admits
  have unit : (0 : ℚ) < 10 ^ exponent := by positivity
  have value : Decimal.value ⟨otherDigits, exponent + more⟩ =
      (otherDigits * 10 ^ more : ℕ) * 10 ^ exponent := by
    rw [Decimal.value, zpow_add₀ (by norm_num), zpow_natCast]
    push_cast
    ring
  have same : digits = otherDigits * 10 ^ more := by
    have near := (admits.abs_sub_le isSecond.admits).trans_lt fine
    rw [value, Decimal.value, ← sub_mul, abs_mul, abs_of_pos unit, mul_lt_iff_lt_one_left unit] at near
    have near : |(digits : ℤ) - (otherDigits * 10 ^ more : ℕ)| < 1 := by exact_mod_cast near
    have := Int.abs_lt_one_iff.mp near
    omega
  have none : more = 0 := by
    by_contra some_
    refine shortest.coarsest (exponent + more) (by dsimp only; omega) otherDigits ?_
    have admitted := shortest.admits
    rwa [show Decimal.value ⟨digits, exponent⟩ = _ from congrArg (fun digits : ℕ =>
      (digits : ℚ) * 10 ^ exponent) same, ← value] at admitted
  subst none
  simpa using same.symm

end Format

end InkStory.Number
