/-! # Decimal numerals -/

namespace InkStory.Text

/-- The number that a numeral stands for; its characters are taken to be digits. -/
def numeral (digits : List Char) : Nat :=
  digits.foldl (fun value c => 10 * value + (c.toNat - '0'.toNat)) 0

/-- The number of a nonempty text of decimal digits. -/
def digits? (text : List Char) : Option Nat :=
  if !text.isEmpty && text.all Char.isDigit then some (numeral text) else none

/-- The number of a text of decimal digits, with or without a plus sign before it. -/
def natural? : List Char → Option Nat
  | '+' :: text => digits? text
  | text => digits? text

/-- The number of a text of decimal digits, with or without a sign before it. -/
def integer? : List Char → Option Int
  | '-' :: text => (digits? text).map fun (value : Nat) => -(value : Int)
  | text => (natural? text).map Int.ofNat

def ofNat (value : Nat) : List Char := Nat.toDigits 10 value

end InkStory.Text
