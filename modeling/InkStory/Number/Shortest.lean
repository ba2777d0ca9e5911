import InkStory.Number.Rounding

/-! # The fewest decimal digits that identify a binary number -/

namespace InkStory.Number

/-- The number `digits * 10 ^ exponent`. -/
structure Decimal where
  digits : Nat
  exponent : Int
  deriving DecidableEq, Repr

/-- Which of two equally near decimals is taken. -/
inductive Tie where
  | up
  | even
  deriving DecidableEq, Repr

/-- The fractions that round to one number, over a common denominator. -/
structure Interval where
  lower : Nat
  value : Nat
  upper : Nat
  denominator : Nat
  closed : Bool

/-- Whether a fraction over the interval's denominator rounds to its number. -/
def Interval.admits (interval : Interval) (numerator : Nat) : Bool :=
  if interval.closed then interval.lower ≤ numerator && numerator ≤ interval.upper
  else interval.lower < numerator && numerator < interval.upper

/-- The fractions that the format rounds to a number; below a power of two they lie closer. -/
def Format.interval (format : Format) (number : Scaled) : Interval :=
  let unit := Nat.pow 2 (number.exponent - 2).toNat
  let below :=
    if number.significand = Nat.pow 2 (format.precision - 1) ∧ format.minExponent < number.exponent
    then 1 else 2
  { lower := (4 * number.significand - below) * unit
    value := 4 * number.significand * unit
    upper := (4 * number.significand + 2) * unit
    denominator := Nat.pow 2 (2 - number.exponent).toNat
    closed := number.significand % 2 == 0 }

/-- The multiple of `10 ^ exponent` nearest to the interval's number, if one rounds to it. -/
def Interval.onGrid? (interval : Interval) (tie : Tie) (exponent : Int) : Option Decimal :=
  let value := interval.value * Nat.pow 10 (-exponent).toNat
  let step := interval.denominator * Nat.pow 10 exponent.toNat
  let scaled : Interval :=
    { interval with
      lower := interval.lower * Nat.pow 10 (-exponent).toNat
      value := value
      upper := interval.upper * Nat.pow 10 (-exponent).toNat }
  let below := value / step
  let twice := 2 * (value % step)
  let belowFits := scaled.admits (below * step)
  let aboveFits := scaled.admits ((below + 1) * step)
  let aboveIsNearer :=
    step < twice || (twice == step && (tie == .up || below % 2 == 1))
  if belowFits && !(aboveFits && aboveIsNearer) then some ⟨below, exponent⟩
  else if aboveFits then some ⟨below + 1, exponent⟩
  else none

/-- The first grid, from `exponent` downward, on which some decimal rounds to the number. -/
def Interval.search (interval : Interval) (tie : Tie) : Nat → Int → Decimal
  | 0, exponent => ⟨0, exponent⟩
  | fuel + 1, exponent =>
    match interval.onGrid? tie exponent with
    | some decimal => decimal
    | none => interval.search tie fuel (exponent - 1)

/-- The decimal with the fewest digits that the format rounds to a positive number, and of those
the nearest to it. -/
def Format.shortest (format : Format) (tie : Tie) (number : Scaled) : Decimal :=
  let magnitude := number.exponent + Nat.log2 number.significand + 1
  let start := magnitude * 30103 / 100000 + 1
  (format.interval number).search tie (format.precision + 8) start

end InkStory.Number
