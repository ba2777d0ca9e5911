import InkStory.Json.Basic

/-! # Number literals of JSON -/

namespace InkStory.Json.Number

open InkStory.Number

/-- The powers of ten that a scaling step uses have an exponent of at most this. -/
def maxScale : Nat := 308

def powerOfTen (exponent : Nat) : Scaled := Format.double.nearestScaled (Nat.pow 10 exponent) 1

/-- Multiply a number by a power of ten, each step rounded; nothing where the result lies beyond
double precision. A power below `10 ^ -308` is taken in steps. -/
def scale (value : Scaled) (exponent : Int) : Option Scaled :=
  if value.significand = 0 then some value
  else if 0 ≤ exponent then
    if (maxScale : Int) < exponent then none
    else Format.double.mul value (powerOfTen exponent.toNat)
  else
    let steps := (-exponent).toNat / maxScale
    let rest := (-exponent).toNat % maxScale
    if 2 < steps then some ⟨0, Format.double.minExponent⟩
    else do
      let stepped ← (List.replicate steps ()).foldlM
        (fun value _ => Format.double.div value (powerOfTen maxScale)) value
      Format.double.div stepped (powerOfTen rest)

/-- The digits that fit 64 bits, and how many are left over behind them. -/
def takeDigits (significand : Nat) : List Char → Nat × List Char
  | [] => (significand, [])
  | c :: rest =>
    let next := 10 * significand + (c.toNat - '0'.toNat)
    if next < UInt64.size then takeDigits next rest else (significand, c :: rest)

/-- The fraction that digits before and after the point and an exponent denote. Digits beyond 64
bits of significand count as zeros before the point and for nothing behind it. -/
def ofDigits (negative : Bool) (whole fraction : List Char) (exponent : Int) : Option Number := do
  let (significand, dropped) := takeDigits 0 whole
  let (significand, unused) := takeDigits significand fraction
  let used := fraction.length - unused.length
  let value := Format.double.nearestScaled significand 1
  let magnitude ← scale value (exponent + dropped.length - used)
  some (.fraction negative magnitude)

/-- An integer literal: an integer where 64 bits hold it, and else a fraction. Minus zero is a
fraction, because no integer is it. -/
def ofInteger (negative : Bool) (whole : List Char) : Option Number :=
  let value := Text.numeral whole
  if negative then
    if value ≠ 0 ∧ value ≤ Nat.pow 2 63 then some (.integer (-value)) else ofDigits true whole [] 0
  else if value < UInt64.size then some (.integer value)
  else ofDigits false whole [] 0

structure Literal where
  negative : Bool
  whole : List Char
  fraction : Option (List Char)
  exponent : Option Int

/-- Read the exponent behind its mark: a sign, and at least one digit. -/
def exponent? : List Char → Option Int
  | '-' :: digits => (Text.digits? digits).map fun (value : Nat) => -(value : Int)
  | '+' :: digits => (Text.digits? digits).map Int.ofNat
  | digits => (Text.digits? digits).map Int.ofNat

def unsign : List Char → Bool × List Char
  | '-' :: rest => (true, rest)
  | rest => (false, rest)

def decimals? : List Char → Option (Option (List Char) × List Char)
  | '.' :: rest =>
    let digits := rest.takeWhile Char.isDigit
    if digits.isEmpty then none else some (some digits, rest.dropWhile Char.isDigit)
  | rest => some (none, rest)

def marked? : List Char → Option (Option Int)
  | [] => some none
  | mark :: rest => if mark == 'e' || mark == 'E' then (exponent? rest).map some else none

/-- Split a literal into its parts. Digits stand on both sides of a point, a whole part has no
leading zero, and nothing else may stand in the text. -/
def literal? (text : List Char) : Option Literal :=
  let (negative, unsigned) := unsign text
  let whole := unsigned.takeWhile Char.isDigit
  if whole.isEmpty || (whole.head? == some '0' && 1 < whole.length) then none
  else do
    let (decimals, rest) ← decimals? (unsigned.dropWhile Char.isDigit)
    let exponent ← marked? rest
    some ⟨negative, whole, decimals, exponent⟩

/-- The number of a literal, or nothing where it lies beyond double precision. -/
def ofLiteral (literal : Literal) : Option Number :=
  match literal.fraction, literal.exponent with
  | none, none => ofInteger literal.negative literal.whole
  | decimals, exponent =>
    ofDigits literal.negative literal.whole (decimals.getD []) (exponent.getD 0)

/-- A decimal as numbers are written: positional from `0.00001` up to sixteen digits before the
point, and else with a signed exponent. -/
def layout (decimal : Decimal) : List Char :=
  let point := decimal.pointPosition
  if -5 < point && point ≤ 16 then decimal.withFraction else decimal.scientific true

def chars : Number → List Char
  | .integer value => signed (value < 0) (Text.ofNat value.natAbs)
  | .fraction negative magnitude =>
    signed negative <|
      if magnitude.significand = 0 then ['0', '.', '0']
      else layout (Format.double.shortest .even magnitude)

def toSingle : Number → Single
  | .integer value => Single.narrow (Format.double.nearest (value < 0) value.natAbs 1)
  | .fraction negative magnitude => Single.narrow (.finite negative magnitude)

/-- A finite single-precision number as the double with the same shortest decimal. -/
def ofMagnitude (negative : Bool) (magnitude : Scaled) : Number :=
  let decimal := if magnitude.significand = 0 then ⟨0, 0⟩ else Single.shortest magnitude
  .fraction negative <|
    Format.double.nearestScaled (decimal.digits * Nat.pow 10 decimal.exponent.toNat)
      (Nat.pow 10 (-decimal.exponent).toNat)

/-- A story's number. An undefined number is written as zero, an infinite one as the greatest
number, and any other in the fewest digits that single precision needs. -/
def ofSingle (number : Single) : Number :=
  match number.parts with
  | .nan => ofMagnitude false ⟨0, 0⟩
  | .infinite negative => ofMagnitude negative ⟨Nat.pow 2 24 - 1, 104⟩
  | .finite negative magnitude => ofMagnitude negative magnitude

end InkStory.Json.Number
