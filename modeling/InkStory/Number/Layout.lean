import InkStory.Number.Shortest
import InkStory.Text.Digits

/-! # Layouts of decimal numbers -/

namespace InkStory.Number

/-- How many digits stand before the decimal point, if any. -/
def Decimal.pointPosition (decimal : Decimal) : Int :=
  (Text.ofNat decimal.digits).length + decimal.exponent

/-- All digits in place, with zeros to fill up and no exponent. -/
def Decimal.positional (decimal : Decimal) : List Char :=
  let digits := Text.ofNat decimal.digits
  let point := decimal.pointPosition
  if 0 ≤ decimal.exponent then digits ++ List.replicate decimal.exponent.toNat '0'
  else if 0 < point then digits.take point.toNat ++ '.' :: digits.drop point.toNat
  else '0' :: '.' :: List.replicate (-point).toNat '0' ++ digits

/-- Positional with at least one decimal. -/
def Decimal.withFraction (decimal : Decimal) : List Char :=
  if 0 ≤ decimal.exponent then decimal.positional ++ ['.', '0'] else decimal.positional

/-- One digit before the point and a power of ten behind it. -/
def Decimal.scientific (plusSign : Bool) (decimal : Decimal) : List Char :=
  let power := decimal.pointPosition - 1
  let mantissa :=
    match Text.ofNat decimal.digits with
    | [] => []
    | [digit] => [digit]
    | digit :: rest => digit :: '.' :: rest
  let sign := if power < 0 then ['-'] else if plusSign then ['+'] else []
  mantissa ++ 'e' :: sign ++ Text.ofNat power.natAbs

def signed (negative : Bool) (text : List Char) : List Char :=
  if negative then '-' :: text else text

end InkStory.Number
