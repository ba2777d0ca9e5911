/-! # Binary floating-point formats and correct rounding -/

namespace InkStory.Number

/-- A binary format: the bits of a significand, and the least and greatest exponent of its unit. -/
structure Format where
  precision : Nat
  minExponent : Int
  maxExponent : Int
  deriving DecidableEq, Repr

def Format.single : Format := ⟨24, -149, 104⟩

def Format.double : Format := ⟨53, -1074, 971⟩

/-- The number `significand * 2 ^ exponent`. -/
structure Scaled where
  significand : Nat
  exponent : Int
  deriving DecidableEq, Repr

namespace Scaled

/-- Numerator of the number as a fraction over `denominator`. -/
def numerator (number : Scaled) : Nat := number.significand * Nat.pow 2 number.exponent.toNat

/-- A power of two that clears the exponent of the number. -/
def denominator (number : Scaled) : Nat := Nat.pow 2 (-number.exponent).toNat

def truncate (number : Scaled) : Nat := number.numerator / number.denominator

def isWhole (number : Scaled) : Bool := number.numerator % number.denominator == 0

end Scaled

/-- The quotient to the nearest integer, a half going to the even one. -/
def roundQuotient (numerator denominator : Nat) : Nat :=
  let quotient := numerator / denominator
  let twice := 2 * (numerator % denominator)
  if twice < denominator then quotient
  else if denominator < twice then quotient + 1
  else quotient + quotient % 2

/-- The integer part of the binary logarithm of a positive fraction. -/
def binaryLog (numerator denominator : Nat) : Int :=
  let estimate : Int := (Nat.log2 numerator : Int) - Nat.log2 denominator
  if denominator * Nat.pow 2 estimate.toNat ≤ numerator * Nat.pow 2 (-estimate).toNat then estimate
  else estimate - 1

/-- The number with the format's precision nearest to a fraction, a half going to the even
significand, however great it is. -/
def Format.nearestScaled (format : Format) (numerator denominator : Nat) : Scaled :=
  if numerator = 0 then ⟨0, format.minExponent⟩
  else
    let exponent := max format.minExponent
      (binaryLog numerator denominator - format.precision + 1)
    let significand := roundQuotient (numerator * Nat.pow 2 (-exponent).toNat)
      (denominator * Nat.pow 2 exponent.toNat)
    if significand = Nat.pow 2 format.precision then
      ⟨Nat.pow 2 (format.precision - 1), exponent + 1⟩
    else ⟨significand, exponent⟩

/-- The number of the format nearest to a fraction, or nothing where the fraction lies beyond the
format's greatest number. -/
def Format.round (format : Format) (numerator denominator : Nat) : Option Scaled :=
  let rounded := format.nearestScaled numerator denominator
  if format.maxExponent < rounded.exponent then none else some rounded

def Format.mul (format : Format) (left right : Scaled) : Option Scaled :=
  format.round (left.numerator * right.numerator) (left.denominator * right.denominator)

def Format.div (format : Format) (left right : Scaled) : Option Scaled :=
  format.round (left.numerator * right.denominator) (left.denominator * right.numerator)

end InkStory.Number
