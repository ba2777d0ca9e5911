import InkStory.Proofs.ShortestDecimals

/-! # Decimals next to binary numbers

No multiple of a power of ten comes very close to a short multiple of a smaller power of two, but for
those that are equal to it and for six decimals (`eq_or_mem_nearMisses`). Between neighbours in a
Farey sequence there is no fraction with a small denominator, so it is enough to look at the two
neighbours of each quotient of a power of two and a power of ten. -/

namespace InkStory.Number

variable {exponent : ℤ} {significand : ℕ}

/-! ### Neighbouring fractions -/

/-- A fraction, by its numerator and denominator. -/
structure Ratio where
  top : ℕ
  bottom : ℕ
  deriving DecidableEq, Repr

namespace Ratio

/-- The fractions looked at have denominators below this. -/
def limit : ℕ := 2 ^ 25

/-- What counts as close is this part of the greater number. -/
def fineness : ℕ := 2 ^ 51

/-- Neighbours in the sequence of all fractions with denominators below the limit. -/
def Adjacent (left right : Ratio) : Prop :=
  right.top * left.bottom = left.top * right.bottom + 1 ∧ limit ≤ left.bottom + right.bottom

/-- A fraction is smaller than a target, and not close to it. -/
def FarBelow (target left : Ratio) : Prop :=
  fineness * (left.top * target.bottom) + left.bottom * target.top <
    fineness * (left.bottom * target.top)

/-- A fraction is greater than a target, and not close to it. -/
def FarAbove (target right : Ratio) : Prop :=
  fineness * (right.bottom * target.top) + right.bottom * target.top <
    fineness * (right.top * target.bottom)

/-- A fraction is close to a target. -/
def Close (target ratio : Ratio) : Prop :=
  fineness * (ratio.bottom * target.top) ≤
      fineness * (ratio.top * target.bottom) + ratio.bottom * target.top ∧
    fineness * (ratio.top * target.bottom) ≤
      fineness * (ratio.bottom * target.top) + ratio.bottom * target.top

instance (left right : Ratio) : Decidable (left.Adjacent right) := inferInstanceAs (Decidable (_ ∧ _))

instance (target left : Ratio) : Decidable (target.FarBelow left) := inferInstanceAs (Decidable (_ < _))

instance (target right : Ratio) : Decidable (target.FarAbove right) :=
  inferInstanceAs (Decidable (_ < _))

/-- No short fraction lies between neighbours. -/
theorem Adjacent.limit_le {left right ratio : Ratio} (adjacent : left.Adjacent right)
    (above : left.top * ratio.bottom < ratio.top * left.bottom)
    (below : ratio.top * right.bottom < right.top * ratio.bottom) : limit ≤ ratio.bottom := by
  obtain ⟨unit, long⟩ := adjacent
  have split : ratio.bottom + left.bottom * (ratio.top * right.bottom) +
      right.bottom * (left.top * ratio.bottom) =
      left.bottom * (right.top * ratio.bottom) + right.bottom * (ratio.top * left.bottom) := by
    calc _ = (left.top * right.bottom + 1) * ratio.bottom +
          left.bottom * (ratio.top * right.bottom) := by ring
      _ = right.top * left.bottom * ratio.bottom + left.bottom * (ratio.top * right.bottom) := by
          rw [unit]
      _ = _ := by ring
  have fromLeft : right.bottom * (left.top * ratio.bottom + 1) ≤ _ :=
    Nat.mul_le_mul_left right.bottom above
  have fromRight : left.bottom * (ratio.top * right.bottom + 1) ≤ _ :=
    Nat.mul_le_mul_left left.bottom below
  linarith

section Far

variable {target ratio other : Ratio} (close : target.Close ratio) (positive : 0 < ratio.bottom)

include close positive

theorem Close.lt_of_farBelow (far : target.FarBelow other) :
    other.top * ratio.bottom < ratio.top * other.bottom := by
  have scaled := Nat.mul_lt_mul_of_pos_right far positive
  have bound := Nat.mul_le_mul_right other.bottom close.1
  have less : fineness * target.bottom * (other.top * ratio.bottom) <
      fineness * target.bottom * (ratio.top * other.bottom) := by linarith
  exact Nat.lt_of_mul_lt_mul_left less

theorem Close.lt_of_farAbove (far : target.FarAbove other) :
    ratio.top * other.bottom < other.top * ratio.bottom := by
  have scaled := Nat.mul_lt_mul_of_pos_right far positive
  have bound := Nat.mul_le_mul_right other.bottom close.2
  have less : fineness * target.bottom * (ratio.top * other.bottom) <
      fineness * target.bottom * (other.top * ratio.bottom) := by linarith
  exact Nat.lt_of_mul_lt_mul_left less

end Far

/-- Pass from neighbours around a target to nearer ones, as far as the limit allows. -/
def approach (target : Ratio) : ℕ → Ratio → Ratio → Ratio × Ratio
  | 0, left, right => (left, right)
  | fuel + 1, left, right =>
    let short := target.top * left.bottom - left.top * target.bottom
    let excess := right.top * target.bottom - target.top * right.bottom
    let room := (limit - 1 - left.bottom) / right.bottom
    let steps := if excess = 0 then room else min (short / excess) room
    let left : Ratio := ⟨left.top + steps * right.top, left.bottom + steps * right.bottom⟩
    let short := target.top * left.bottom - left.top * target.bottom
    let room := (limit - 1 - right.bottom) / left.bottom
    let steps := if short = 0 then room else min (excess / short) room
    let right : Ratio := ⟨right.top + steps * left.top, right.bottom + steps * left.bottom⟩
    if limit ≤ left.bottom + right.bottom then (left, right) else approach target fuel left right

/-- The neighbour of a fraction on the other side of a neighbour. -/
def beyond (ratio neighbour : Ratio) : Ratio :=
  let steps := (limit - 1 + neighbour.bottom) / ratio.bottom
  ⟨steps * ratio.top - neighbour.top, steps * ratio.bottom - neighbour.bottom⟩

end Ratio

open Ratio

/-- Neighbours around a target, with the one fraction between them that may be close to it. -/
structure Frame where
  left : Ratio
  middle : Option Ratio
  right : Ratio

namespace Frame

/-- The fractions next to a target that are not close to it. -/
def around (target : Ratio) : Frame :=
  let (left, right) := target.approach 60 ⟨0, 1⟩ ⟨1, 1⟩
  if target.FarBelow left then
    if target.FarAbove right then ⟨left, none, right⟩ else ⟨left, some right, right.beyond left⟩
  else ⟨left.beyond right, some left, right⟩

/-- All fractions strictly inside the frame are too long, but for the one in the middle. -/
def Tight (frame : Frame) : Prop :=
  match frame.middle with
  | none => frame.left.Adjacent frame.right
  | some middle => frame.left.Adjacent middle ∧ middle.Adjacent frame.right

instance : (frame : Frame) → Decidable frame.Tight
  | ⟨left, none, right⟩ => inferInstanceAs (Decidable (left.Adjacent right))
  | ⟨left, some middle, right⟩ =>
    inferInstanceAs (Decidable (left.Adjacent middle ∧ middle.Adjacent right))

/-- A short fraction close to the target is the one in the middle. -/
theorem Tight.eq_middle {frame : Frame} (tight : frame.Tight) {target ratio : Ratio}
    (left : target.FarBelow frame.left) (right : target.FarAbove frame.right)
    (close : target.Close ratio) (positive : 0 < ratio.bottom) (short : ratio.bottom < limit) :
    ∃ middle ∈ frame.middle, 0 < middle.bottom ∧
      ratio.top * middle.bottom = middle.top * ratio.bottom := by
  have above := close.lt_of_farBelow positive left
  have below := close.lt_of_farAbove positive right
  unfold Tight at tight
  split at tight
  · exact absurd (tight.limit_le above below) (Nat.not_le.mpr short)
  · next middle found =>
    have divides : 0 < middle.bottom := by
      have unit := tight.2.1
      apply Nat.pos_of_ne_zero
      intro zero
      rw [zero] at unit
      omega
    refine ⟨middle, found, divides, ?_⟩
    rcases Nat.lt_trichotomy (ratio.top * middle.bottom) (middle.top * ratio.bottom)
      with less | same | more
    · exact absurd (tight.1.limit_le above less) (Nat.not_le.mpr short)
    · exact same
    · exact absurd (tight.2.limit_le more below) (Nat.not_le.mpr short)

end Frame

/-- The exponent of two below a power of ten. -/
def binaryOrder (exponent : ℤ) : ℤ :=
  binaryLog (Nat.pow 10 exponent.toNat) (Nat.pow 10 (-exponent).toNat)

/-- A power of ten under the power of two below it. -/
def orderRatio (exponent : ℤ) : Ratio :=
  ⟨Nat.pow 2 (binaryOrder exponent).toNat * Nat.pow 10 (-exponent).toNat,
    Nat.pow 10 exponent.toNat * Nat.pow 2 (-binaryOrder exponent).toNat⟩

/-- The fractions that are close to such a quotient without being equal to it. -/
def closeRatios : List (ℤ × Ratio) :=
  [(-37, ⟨23990983, 25511589⟩), (-32, ⟨14077062, 22841339⟩), (-15, ⟨25645849, 28874659⟩),
    (-12, ⟨10475821, 11518287⟩), (12, ⟨11518287, 20951642⟩), (17, ⟨17448701, 24214937⟩),
    (32, ⟨22841339, 28154124⟩)]

/-- The fractions next to the quotient for a power of ten are far from it, but for known ones. -/
def Framed (exponent : ℤ) : Prop :=
  (orderRatio exponent).FarBelow (Frame.around (orderRatio exponent)).left ∧
    (orderRatio exponent).FarAbove (Frame.around (orderRatio exponent)).right ∧
    (Frame.around (orderRatio exponent)).Tight ∧
    ∀ middle ∈ (Frame.around (orderRatio exponent)).middle,
      middle.top * (orderRatio exponent).bottom = middle.bottom * (orderRatio exponent).top ∨
        (exponent, middle) ∈ closeRatios

instance (exponent : ℤ) : Decidable (Framed exponent) := inferInstanceAs (Decidable (_ ∧ _))

theorem framed (least : -46 ≤ exponent) (most : exponent ≤ 40) : Framed exponent := by
  have all : ∀ index ∈ List.range 87, Framed ((index : ℤ) - 46) := by decide +kernel
  have here := all (exponent + 46).toNat (List.mem_range.mpr (by omega))
  rwa [show (((exponent + 46).toNat : ℕ) : ℤ) - 46 = exponent by omega] at here

/-- The decimals that come close to a short multiple of a power of two without being equal to it. -/
def nearMisses : List Decimal :=
  [⟨23990983, -37⟩, ⟨14077062, -32⟩, ⟨7038531, -32⟩, ⟨25645849, -15⟩, ⟨10475821, -12⟩,
    ⟨17448701, 17⟩]

/-- The close fractions are in lowest terms, so an odd multiple of one of them is too long; halving
what is above leads to known decimals. -/
theorem mem_nearMisses {middle : Ratio} (known : (exponent, middle) ∈ closeRatios)
    {digits shift : ℕ} (odd : significand % 2 = 1) (short : significand < limit)
    (same : digits * 2 ^ shift * middle.bottom = middle.top * significand) :
    ⟨digits, exponent⟩ ∈ nearMisses := by
  have facts : ∀ entry ∈ closeRatios, Nat.Coprime entry.2.bottom entry.2.top ∧
      limit ≤ 3 * entry.2.bottom ∧ 0 < entry.2.bottom ∧ 0 < entry.2.top ∧ entry.2.top < 2 ^ 25 ∧
      (entry.2.bottom % 2 = 1 → ∀ shift ∈ List.range 25, entry.2.top % 2 ^ shift = 0 →
        ⟨entry.2.top / 2 ^ shift, entry.1⟩ ∈ nearMisses) := by decide
  obtain ⟨coprime, long, present, above, bounded, halved⟩ := facts _ known
  dsimp only at coprime long present above bounded halved
  obtain ⟨multiple, rfl⟩ : middle.bottom ∣ significand :=
    coprime.dvd_of_dvd_mul_left ⟨digits * 2 ^ shift, by rw [← same]; ring⟩
  have once : multiple = 1 := by
    have few : multiple < 3 := by nlinarith
    rcases (by omega : multiple = 0 ∨ multiple = 1 ∨ multiple = 2) with rfl | rfl | rfl
    · simp at odd
    · rfl
    · omega
  subst once
  have whole : digits * 2 ^ shift = middle.top := by
    rw [mul_one] at same
    exact Nat.eq_of_mul_eq_mul_right present same
  have low : shift < 25 := by
    by_contra high
    have := Nat.pow_le_pow_right (by decide : 0 < 2) (not_lt.mp high)
    have : 0 < digits := Nat.pos_of_ne_zero (by rintro rfl; omega)
    nlinarith
  have found := halved (by simpa using odd) shift (List.mem_range.mpr low)
    (by rw [← whole]; exact Nat.mul_mod_left _ _)
  rwa [← whole, Nat.mul_div_cancel _ (Nat.pow_pos (by decide))] at found

/-- The power of two below a power of ten. -/
theorem binaryOrder_bounds (exponent : ℤ) :
    (2 : ℚ) ^ binaryOrder exponent ≤ 10 ^ exponent ∧
      (10 : ℚ) ^ exponent < 2 ^ (binaryOrder exponent + 1) := by
  rw [ten_zpow]
  exact binaryLog_spec (Nat.pow_pos (by decide)) (Nat.pow_pos (by decide))

theorem binaryOrder_eq {order : ℤ} (below : (2 : ℚ) ^ (order - 1) ≤ 10 ^ exponent)
    (above : (10 : ℚ) ^ exponent < 2 ^ order) : binaryOrder exponent = order - 1 := by
  obtain ⟨least, most⟩ := binaryOrder_bounds exponent
  have := (zpow_lt_zpow_iff_right₀ (one_lt_two (α := ℚ))).mp (least.trans_lt above)
  have := (zpow_lt_zpow_iff_right₀ (one_lt_two (α := ℚ))).mp (below.trans_lt most)
  omega

/-- A multiple of a power of ten and one of a power of two, in units that make both whole. -/
theorem exists_unit_orderRatio (exponent : ℤ) :
    ∃ unit : ℚ, 0 < unit ∧ unit * 10 ^ exponent = (orderRatio exponent).bottom ∧
      unit * 2 ^ binaryOrder exponent = (orderRatio exponent).top := by
  have tenPositive : (0 : ℚ) < Nat.pow 10 (-exponent).toNat := by
    exact_mod_cast Nat.pow_pos (by decide)
  have twoPositive : (0 : ℚ) < Nat.pow 2 (-binaryOrder exponent).toNat := by
    exact_mod_cast Nat.pow_pos (by decide)
  refine ⟨Nat.pow 10 (-exponent).toNat * Nat.pow 2 (-binaryOrder exponent).toNat, by positivity, ?_, ?_⟩
  · rw [ten_zpow, orderRatio]
    push_cast
    field_simp
  · rw [two_zpow, orderRatio]
    push_cast
    field_simp

/-- A decimal that is close to a short odd multiple of a smaller power of two is equal to it, or one
of a few. -/
theorem eq_or_mem_nearMisses {decimal : Decimal} (least : -46 ≤ decimal.exponent)
    (most : decimal.exponent ≤ 40) (odd : significand % 2 = 1) (short : significand < 2 ^ 25)
    (coarse : (2 : ℚ) ^ exponent ≤ 10 ^ decimal.exponent)
    (close : |decimal.value - significand * 2 ^ exponent| ≤ significand * 2 ^ exponent / 2 ^ 51) :
    decimal.value = significand * 2 ^ exponent ∨ decimal ∈ nearMisses := by
  obtain ⟨digits, order⟩ := decimal
  obtain ⟨shift, isOrder⟩ : ∃ shift : ℕ, exponent + shift = binaryOrder order := by
    have below := coarse.trans_lt (binaryOrder_bounds order).2
    have := (zpow_lt_zpow_iff_right₀ (one_lt_two (α := ℚ))).mp below
    exact Int.le.dest (by omega)
  obtain ⟨unit, positive, bottom, top⟩ := exists_unit_orderRatio order
  obtain ⟨whole, isWhole⟩ : ∃ whole : ℚ, whole = unit * 2 ^ shift := ⟨_, rfl⟩
  have present : 0 < whole := isWhole ▸ by positivity
  have upper : ((digits * 2 ^ shift * (orderRatio order).bottom : ℕ) : ℚ) =
      whole * Decimal.value ⟨digits, order⟩ := by
    rw [isWhole, Decimal.value]
    push_cast
    rw [← bottom]
    ring
  have lower : ((significand * (orderRatio order).top : ℕ) : ℚ) =
      whole * (significand * 2 ^ exponent) := by
    rw [isWhole]
    push_cast
    rw [← top, ← isOrder, zpow_add₀ two_ne_zero, zpow_natCast]
    ring
  obtain ⟨above, below⟩ := abs_le.mp close
  have isClose : (orderRatio order).Close ⟨digits * 2 ^ shift, significand⟩ := by
    constructor
    · have : (2 ^ 51 : ℚ) * (significand * (orderRatio order).top : ℕ) ≤
          2 ^ 51 * (digits * 2 ^ shift * (orderRatio order).bottom : ℕ) +
            (significand * (orderRatio order).top : ℕ) := by
        nlinarith
      exact_mod_cast this
    · have : (2 ^ 51 : ℚ) * (digits * 2 ^ shift * (orderRatio order).bottom : ℕ) ≤
          2 ^ 51 * (significand * (orderRatio order).top : ℕ) +
            (significand * (orderRatio order).top : ℕ) := by
        nlinarith
      exact_mod_cast this
  obtain ⟨left, right, tight, known⟩ := framed least most
  obtain ⟨middle, found, divides, same⟩ := tight.eq_middle left right isClose (show 0 < significand by omega) short
  rcases known middle found with equal | close
  · left
    -- The fraction is equal to the one in the middle, and that one to the quotient.
    have cross : digits * 2 ^ shift * (orderRatio order).bottom =
        significand * (orderRatio order).top := by
      apply Nat.eq_of_mul_eq_mul_left divides
      calc middle.bottom * (digits * 2 ^ shift * (orderRatio order).bottom)
          = digits * 2 ^ shift * middle.bottom * (orderRatio order).bottom := by ring
        _ = middle.top * significand * (orderRatio order).bottom := by rw [same]
        _ = significand * (middle.top * (orderRatio order).bottom) := by ring
        _ = significand * (middle.bottom * (orderRatio order).top) := by rw [equal]
        _ = middle.bottom * (significand * (orderRatio order).top) := by ring
    rw [← Nat.cast_inj (R := ℚ), upper, lower] at cross
    exact mul_left_cancel₀ present.ne' cross
  · exact .inr (mem_nearMisses close odd short same)

/-- No power of ten lies just below a power of two. -/
theorem room_below_order (least : -46 ≤ exponent) (most : exponent ≤ 40) :
    (10 : ℚ) ^ exponent * 2 ^ 20 + 2 * 2 ^ binaryOrder exponent ≤
      2 * 2 ^ binaryOrder exponent * 2 ^ 20 := by
  have all : ∀ index ∈ List.range 87,
      (orderRatio ((index : ℤ) - 46)).bottom * 2 ^ 20 + 2 * (orderRatio ((index : ℤ) - 46)).top ≤
        2 * (orderRatio ((index : ℤ) - 46)).top * 2 ^ 20 := by
    decide +kernel
  have here := all (exponent + 46).toNat (List.mem_range.mpr (by omega))
  rw [show (((exponent + 46).toNat : ℕ) : ℤ) - 46 = exponent by omega] at here
  obtain ⟨unit, positive, bottom, top⟩ := exists_unit_orderRatio exponent
  have here : ((orderRatio exponent).bottom : ℚ) * 2 ^ 20 + 2 * (orderRatio exponent).top ≤
      2 * (orderRatio exponent).top * 2 ^ 20 := by exact_mod_cast here
  refine le_of_mul_le_mul_left ?_ positive
  linarith

/-! ### Decimals of single precision -/

namespace Format

variable {number : Scaled} {decimal : Decimal}

theorem Canonical.magnitude_bounds (canonical : single.Canonical number)
    (positive : 0 < number.significand) (most : number.exponent ≤ 104) :
    -148 ≤ number.magnitude ∧ number.magnitude ≤ 128 := by
  have fits : Nat.log2 number.significand < 24 := (Nat.log2_lt positive.ne').mpr canonical.fits
  have least : -149 ≤ number.exponent := canonical.least
  unfold Scaled.magnitude
  omega

section

variable (shortest : single.IsShortest number decimal)

include shortest

theorem IsShortest.value_bounds (canonical : single.Canonical number)
    (positive : 0 < number.significand) (most : number.exponent ≤ 104) :
    (2 : ℚ) ^ (-150 : ℤ) ≤ decimal.value ∧ decimal.value ≤ 2 ^ (129 : ℤ) := by
  obtain ⟨least, large⟩ := canonical.magnitude_bounds positive most
  obtain ⟨low, high⟩ := shortest.admits.bounds positive
  obtain ⟨larger, smaller⟩ := Scaled.value_magnitude positive
  constructor
  · calc (2 : ℚ) ^ (-150 : ℤ) ≤ 2 ^ (-149 : ℤ) / 2 := by norm_num
      _ ≤ 2 ^ (number.magnitude - 1) / 2 := by
          gcongr
          · exact one_le_two
          · omega
      _ ≤ number.value / 2 := by gcongr
      _ ≤ decimal.value := low
  · calc decimal.value ≤ 2 * number.value := high
      _ ≤ 2 * 2 ^ number.magnitude := by gcongr
      _ ≤ 2 * 2 ^ (128 : ℤ) := by
          gcongr
          exact one_le_two
      _ = 2 ^ (129 : ℤ) := by norm_num

theorem IsShortest.le_exponent (canonical : single.Canonical number)
    (positive : 0 < number.significand) : -47 ≤ decimal.exponent := by
  have unit : (2 : ℚ) ^ (-149 : ℤ) ≤ 2 ^ number.exponent :=
    zpow_le_zpow_right₀ one_le_two canonical.least
  have order : (10 : ℚ) ^ (-47 : ℤ) < 10 ^ (decimal.exponent + 1) := by
    calc (10 : ℚ) ^ (-47 : ℤ) ≤ 2 ^ (-149 : ℤ) / 4 := by norm_num
      _ ≤ 2 ^ number.exponent / 4 := by gcongr
      _ < _ := shortest.unit_lt positive
  have := (zpow_lt_zpow_iff_right₀ (by norm_num : (1 : ℚ) < 10)).mp order
  omega

theorem IsShortest.exponent_le (positive : 0 < number.significand)
    (large : number.magnitude ≤ 128) : decimal.exponent ≤ 40 := by
  have one : (1 : ℚ) ≤ decimal.digits := by exact_mod_cast shortest.digits_pos positive
  have high := (shortest.admits.bounds positive).2
  have small := (Scaled.value_magnitude positive).2
  have order : (2 : ℚ) ^ number.magnitude ≤ 2 ^ (128 : ℤ) := zpow_le_zpow_right₀ one_le_two large
  have bound : (10 : ℚ) ^ decimal.exponent < 10 ^ (41 : ℤ) := by
    unfold Decimal.value at high
    nlinarith
  have := (zpow_lt_zpow_iff_right₀ (by norm_num : (1 : ℚ) < 10)).mp bound
  omega

/-- The shortest decimal of a number is equal to a bound of what is rounded to it, or far from it, or
one of a few. -/
theorem IsShortest.apart (positive : 0 < number.significand) (large : number.magnitude ≤ 128)
    {significand : ℕ} {exponent : ℤ} (odd : significand % 2 = 1) (short : significand < 2 ^ 25)
    (least : -151 ≤ exponent) (next : |significand * 2 ^ exponent - number.value| = 2 ^ exponent) :
    decimal.value = significand * 2 ^ exponent ∨ decimal ∈ nearMisses ∨
      significand * 2 ^ exponent / 2 ^ 51 < |decimal.value - significand * 2 ^ exponent| := by
  have unit : (0 : ℚ) < 2 ^ exponent := by positivity
  have few : (significand : ℚ) * 2 ^ exponent < 2 ^ 25 * 2 ^ exponent := by
    gcongr
    exact_mod_cast short
  have near := shortest.near
  have most := shortest.exponent_le positive large
  have order (coarse : (2 : ℚ) ^ exponent / 2 < 10 ^ decimal.exponent) :
      -46 ≤ decimal.exponent := by
    have small : (2 : ℚ) ^ (-151 : ℤ) ≤ 2 ^ exponent := zpow_le_zpow_right₀ one_le_two least
    have bound : (10 : ℚ) ^ (-47 : ℤ) < 10 ^ decimal.exponent := by
      refine lt_of_le_of_lt ?_ ((div_le_div_of_nonneg_right small zero_le_two).trans_lt coarse)
      norm_num
    have := (zpow_lt_zpow_iff_right₀ (by norm_num : (1 : ℚ) < 10)).mp bound
    omega
  have apart : (2 : ℚ) ^ exponent - 10 ^ decimal.exponent ≤
      |decimal.value - significand * 2 ^ exponent| := by
    have triangle := abs_sub_abs_le_abs_sub (significand * 2 ^ exponent - number.value)
      (decimal.value - number.value)
    rw [sub_sub_sub_cancel_right, abs_sub_comm _ decimal.value] at triangle
    linarith
  rcases le_or_gt ((2 : ℚ) ^ exponent) (10 ^ decimal.exponent) with coarse | fine
  · by_cases close : |decimal.value - significand * 2 ^ exponent| ≤ significand * 2 ^ exponent / 2 ^ 51
    · exact (eq_or_mem_nearMisses (order (by linarith)) most odd short coarse close).imp_right .inl
    · exact .inr (.inr (not_le.mp close))
  · right
    right
    have room : (10 : ℚ) ^ decimal.exponent * 2 ^ 20 + 2 ^ exponent ≤ 2 ^ exponent * 2 ^ 20 := by
      rcases le_or_gt ((10 : ℚ) ^ decimal.exponent) (2 ^ exponent / 2) with small | large
      · linarith
      · have half : (2 : ℚ) * 2 ^ (exponent - 1) = 2 ^ exponent := by
          rw [← zpow_one_add₀ two_ne_zero, add_sub_cancel]
        have bound := room_below_order (order large) most
        rwa [binaryOrder_eq (by linarith) fine, half] at bound
    linarith

end

/-- A small change of a decimal far from a bound leaves it on its side. -/
theorem side_of_apart {start bound fraction : ℚ} (positive : 0 ≤ bound)
    (near : |fraction - start| ≤ start * 7 / 2 ^ 54)
    (apart : start = bound ∧ fraction = start ∨ bound / 2 ^ 51 < |start - bound|) :
    (start ≤ bound → fraction ≤ bound) ∧ (start < bound → fraction < bound) ∧
      (bound ≤ start → bound ≤ fraction) ∧ (bound < start → bound < fraction) := by
  obtain ⟨low, high⟩ := abs_le.mp near
  rcases apart with ⟨rfl, rfl⟩ | far
  · exact ⟨id, id, id, id⟩
  · rcases lt_or_ge start bound with below | above
    · rw [abs_of_neg (by linarith)] at far
      have : fraction < bound := by linarith
      exact ⟨fun _ => this.le, fun _ => this, fun _ => by linarith, fun _ => by linarith⟩
    · rw [abs_of_nonneg (by linarith)] at far
      have : bound < fraction := by linarith
      exact ⟨fun _ => by linarith, fun _ => by linarith, fun _ => this.le, fun _ => this⟩

/-- A short odd multiple of a power of two that lies one unit of it from a number. -/
def IsEdge (number : Scaled) (edge : ℚ) : Prop :=
  ∃ significand : ℕ, ∃ exponent : ℤ, significand % 2 = 1 ∧ significand < 2 ^ 25 ∧
    -151 ≤ exponent ∧ |significand * 2 ^ exponent - number.value| = 2 ^ exponent ∧
    significand * 2 ^ exponent = edge

/-- The bounds of what is rounded to a number are such multiples of half its unit, or of a quarter. -/
theorem isEdge_of_odd (canonical : single.Canonical number) (bits significand : ℕ) {side : ℚ}
    (few : bits ≤ 2) (odd : significand % 2 = 1) (short : significand < 2 ^ 25) (next : |side| = 1)
    (same : (significand : ℚ) = 2 ^ bits * number.significand + side) :
    IsEdge number ((number.significand + side / 2 ^ bits) * 2 ^ number.exponent) := by
  have least : -149 ≤ number.exponent := canonical.least
  have unit : (2 : ℚ) ^ number.exponent = 2 ^ bits * 2 ^ (number.exponent - bits) := by
    rw [← zpow_natCast, ← zpow_add₀ two_ne_zero, add_sub_cancel]
  refine ⟨significand, number.exponent - bits, odd, short, by omega, ?_, ?_⟩
  · have apart : significand * 2 ^ (number.exponent - bits) - number.value =
        side * (2 : ℚ) ^ (number.exponent - bits) := by
      rw [Scaled.value, unit, same]
      ring
    rw [apart, abs_mul, next, one_mul, abs_of_pos (by positivity)]
  · rw [unit, same]
    field_simp

theorem isEdge_above (canonical : single.Canonical number) :
    IsEdge number ((number.significand + 1 / 2) * 2 ^ number.exponent) := by
  have fits : number.significand < 2 ^ 24 := canonical.fits
  have edge := isEdge_of_odd canonical 1 (2 * number.significand + 1) (by decide) (by omega)
    (by omega) abs_one (by push_cast; ring)
  rwa [pow_one] at edge

theorem isEdge_below (canonical : single.Canonical number) (positive : 0 < number.significand) :
    IsEdge number ((number.significand - single.reach number) * 2 ^ number.exponent) := by
  have fits : number.significand < 2 ^ 24 := canonical.fits
  have below (bits : ℕ) (few : bits = 1 ∨ bits = 2) (short : 2 ^ bits * number.significand ≤ 2 ^ 25)
      (reach : single.reach number = 1 / 2 ^ bits) :
      IsEdge number ((number.significand - single.reach number) * 2 ^ number.exponent) := by
    rw [reach, sub_eq_add_neg, ← neg_div]
    refine isEdge_of_odd canonical bits (2 ^ bits * number.significand - 1) (by omega) ?_ (by omega)
      (by norm_num) ?_
    · rcases few with rfl | rfl <;> omega
    · rw [Nat.cast_sub (Nat.mul_pos (by positivity) positive)]
      push_cast
      ring
  by_cases power : number.significand = 2 ^ 23 ∧ -149 < number.exponent
  · exact below 2 (.inr rfl) (by omega) ((if_pos power).trans (by norm_num))
  · exact below 1 (.inl rfl) (by omega) ((if_neg power).trans (by norm_num))

/-- A fraction next to the shortest decimal of a number is still rounded to it, if it is that decimal
wherever a bound is met exactly. -/
theorem IsShortest.admits_near (shortest : single.IsShortest number decimal)
    (canonical : single.Canonical number) (positive : 0 < number.significand)
    (most : number.exponent ≤ 104) (common : decimal ∉ nearMisses) {fraction : ℚ}
    (near : |fraction - decimal.value| ≤ decimal.value * 7 / 2 ^ 54)
    (exactly : ∀ significand : ℕ, significand < 2 ^ 25 → ∀ exponent : ℤ, -151 ≤ exponent →
      decimal.value = significand * 2 ^ exponent → fraction = decimal.value) :
    single.Admits number fraction := by
  have large := (canonical.magnitude_bounds positive most).2
  have side {edge : ℚ} (isEdge : IsEdge number edge) :=
    @side_of_apart _ edge _ (by obtain ⟨_, _, -, -, -, -, rfl⟩ := isEdge; positivity) near <| by
      obtain ⟨significand, exponent, odd, short, small, next, rfl⟩ := isEdge
      rcases shortest.apart positive large odd short small next with same | rare | far
      · exact .inl ⟨same, exactly significand short exponent small same⟩
      · exact absurd rare common
      · exact .inr far
  have high := side (isEdge_above canonical)
  have low := side (isEdge_below canonical positive)
  obtain ⟨above, below, inner⟩ := shortest.admits
  exact ⟨low.2.2.1 above, high.1 below,
    inner.imp_right fun ⟨above, below⟩ => ⟨low.2.2.2 above, high.2.1 below⟩⟩

end Format

end InkStory.Number
