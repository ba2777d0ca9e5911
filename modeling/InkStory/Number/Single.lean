import InkStory.Number.Layout
import InkStory.Number.Parts
import InkStory.Text.Blank

/-! # Single-precision numbers of a story -/

namespace InkStory

/-- The fractional numbers of a story have 32 bits. -/
abbrev Single := Float32

namespace Single

open Number

def parts (number : Single) : Parts := Format.single.unpack number.toBits.toNat

def ofParts (parts : Parts) : Single := Float32.ofBits (UInt32.ofNat (Format.single.pack parts))

def ofFraction (negative : Bool) (numerator denominator : Nat) : Single :=
  ofParts (Format.single.nearest negative numerator denominator)

/-- The number nearest to a binary number of any format. -/
def narrow : Parts → Single
  | .finite negative magnitude => ofFraction negative magnitude.numerator magnitude.denominator
  | parts => ofParts parts

def ofInt (value : Int) : Single := ofFraction (value < 0) value.natAbs 1

def isFinite (number : Single) : Bool :=
  match number.parts with
  | .finite _ _ => true
  | _ => false

/-- The integer part, or nothing for infinities and undefined numbers. -/
def truncate? (number : Single) : Option Int :=
  match number.parts with
  | .finite true magnitude => some (-(magnitude.truncate : Int))
  | .finite false magnitude => some magnitude.truncate
  | _ => none

/-- The integer part, held within 32 bits; an undefined number gives zero. -/
def toInt32 (number : Single) : Int32 :=
  match number.parts with
  | .nan => 0
  | .infinite negative => if negative then Int32.minValue else Int32.maxValue
  | .finite negative magnitude =>
    let whole : Int := if negative then -(magnitude.truncate : Int) else magnitude.truncate
    if whole < Int32.minValue.toInt then Int32.minValue
    else if Int32.maxValue.toInt < whole then Int32.maxValue
    else Int32.ofInt whole

def isWhole (number : Single) : Bool :=
  match number.parts with
  | .finite _ magnitude => magnitude.isWhole
  | _ => false

/-- Round to an integer, away from zero if `outward` holds of the sign; a zero keeps its sign. -/
def roundWhole (outward : Bool → Bool) (number : Single) : Single :=
  match number.parts with
  | .finite negative magnitude =>
    if magnitude.isWhole then number
    else
      ofFraction negative (magnitude.truncate + if outward negative then 1 else 0) 1
  | _ => number

def floor (number : Single) : Single := roundWhole (fun negative => negative) number

def ceiling (number : Single) : Single := roundWhole (fun negative => !negative) number

/-- The exact remainder of a division that truncates; it takes the sign of the dividend. -/
def remainder (dividend divisor : Single) : Single :=
  match dividend.parts, divisor.parts with
  | .finite negative magnitude, .finite _ unit =>
    if unit.significand = 0 then ofParts .nan
    else
      ofFraction negative
        ((magnitude.numerator * unit.denominator) % (unit.numerator * magnitude.denominator))
        (magnitude.denominator * unit.denominator)
  | .finite _ _, .infinite _ => dividend
  | _, _ => ofParts .nan

/-- The greater number; an undefined one counts for nothing. -/
def maximum (left right : Single) : Single :=
  if left.isNaN then right else if right.isNaN then left else if left < right then right else left

def minimum (left right : Single) : Single :=
  if left.isNaN then right else if right.isNaN then left else if right < left then right else left

/-- The shortest decimal that reads back as a positive magnitude; a tie goes up. -/
def shortest (magnitude : Scaled) : Decimal := Format.single.shortest .up magnitude

/-- The number in the fewest digits that read back, written without exponent. -/
def text (number : Single) : String :=
  match number.parts with
  | .nan => "NaN"
  | .infinite negative => if negative then "-inf" else "inf"
  | .finite negative magnitude =>
    String.ofList <| signed negative <|
      if magnitude.significand = 0 then ['0'] else (shortest magnitude).positional

/-- The number as a story prints it: whole numbers below `10 ^ 15` show every digit they have,
and zero shows no sign. -/
def storyText (number : Single) : String :=
  match number.truncate? with
  | some whole =>
    if number.isWhole && number.abs < ofInt 1000000000000000 then whole.repr else number.text
  | none => number.text

/-- The number as it stands in the description of a stored object: always with a fraction, and
with an exponent from `10 ^ 16` up and below `10 ^ -4`. -/
def described (number : Single) : String :=
  match number.parts with
  | .nan => "NaN"
  | .infinite negative => if negative then "-inf" else "inf"
  | .finite negative magnitude =>
    String.ofList <| signed negative <|
      if magnitude.significand = 0 then ['0', '.', '0']
      else
        let decimal := shortest magnitude
        let point := decimal.pointPosition
        if -4 < point && point ≤ 16 then decimal.withFraction else decimal.scientific false

/-- The number nearest to a signed decimal. Exponents far out of range are not expanded. -/
def ofDecimal (negative : Bool) (decimal : Decimal) : Single :=
  if decimal.digits = 0 then ofFraction negative 0 1
  else if 60 < decimal.pointPosition then ofParts (.infinite negative)
  else if decimal.pointPosition < -60 then ofFraction negative 0 1
  else
    ofFraction negative (decimal.digits * Nat.pow 10 decimal.exponent.toNat)
      (Nat.pow 10 (-decimal.exponent).toNat)

def splitExponent (text : List Char) : List Char × Option (List Char) :=
  match text.span fun c => !(c == 'e' || c == 'E') with
  | (mantissa, []) => (mantissa, none)
  | (mantissa, _ :: exponent) => (mantissa, some exponent)

/-- Read an unsigned decimal: digits with at most one point among them, and an exponent. -/
def decimal? (text : List Char) : Option Decimal := do
  let (mantissa, exponentText) := splitExponent text
  let (whole, fraction) :=
    match mantissa.span (· != '.') with
    | (whole, []) => (whole, [])
    | (whole, _ :: fraction) => (whole, fraction)
  let digits ← Text.digits? (whole ++ fraction)
  let exponent ←
    match exponentText with
    | none => some 0
    | some exponentText => Text.integer? exponentText
  some ⟨digits, exponent - fraction.length⟩

/-- The words for numbers that no digits express, in any case. -/
def special? (negative : Bool) (text : List Char) : Option Single :=
  let lower := String.ofList (text.map Char.toLower)
  if lower == "inf" || lower == "infinity" then some (ofParts (.infinite negative))
  else if lower == "nan" then some (ofParts .nan)
  else none

/-- Read a number: a sign, then digits or a word for infinity or an undefined number. -/
def parse? (text : String) : Option Single :=
  let (negative, body) :=
    match text.toList with
    | '-' :: body => (true, body)
    | '+' :: body => (false, body)
    | body => (false, body)
  match decimal? body with
  | some decimal => some (ofDecimal negative decimal)
  | none => special? negative body

end Single

end InkStory
