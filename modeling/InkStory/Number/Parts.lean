import InkStory.Number.Rounding

/-! # Sign, significand and exponent of a floating-point word -/

namespace InkStory.Number

/-- What a floating-point word stands for. Zero keeps its sign. -/
inductive Parts where
  | nan
  | infinite (negative : Bool)
  | finite (negative : Bool) (magnitude : Scaled)
  deriving DecidableEq, Repr

namespace Format

/-- Weight of the lowest bit of the exponent field. -/
def exponentUnit (format : Format) : Nat := Nat.pow 2 (format.precision - 1)

/-- The exponent field that marks infinities and words that are no number. -/
def specialField (format : Format) : Nat := (format.maxExponent - format.minExponent + 2).toNat

def signUnit (format : Format) : Nat := (format.specialField + 1) * format.exponentUnit

def unpack (format : Format) (word : Nat) : Parts :=
  let fraction := word % format.exponentUnit
  let field := word / format.exponentUnit % (format.specialField + 1)
  let negative : Bool := format.signUnit ≤ word
  if field = format.specialField then
    if fraction = 0 then .infinite negative else .nan
  else if field = 0 then .finite negative ⟨fraction, format.minExponent⟩
  else .finite negative ⟨format.exponentUnit + fraction, format.minExponent + (field - 1 : Nat)⟩

/-- Write a word of the format. A magnitude must be one that `round` gives. -/
def pack (format : Format) : Parts → Nat
  | .nan => format.specialField * format.exponentUnit + format.exponentUnit / 2
  | .infinite negative =>
    (if negative then format.signUnit else 0) + format.specialField * format.exponentUnit
  | .finite negative magnitude =>
    (if negative then format.signUnit else 0) +
      (magnitude.exponent - format.minExponent).toNat * format.exponentUnit +
      magnitude.significand

/-- The signed number of the format nearest to a fraction; infinite beyond the greatest one. -/
def nearest (format : Format) (negative : Bool) (numerator denominator : Nat) : Parts :=
  match format.round numerator denominator with
  | some magnitude => .finite negative magnitude
  | none => .infinite negative

end Format

end InkStory.Number
