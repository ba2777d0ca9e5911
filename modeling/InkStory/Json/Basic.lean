import InkStory.Number.Single

/-! # JSON values -/

namespace InkStory

/-- A number is an integer of at most 64 bits or a fraction in double precision. -/
inductive Json.Number where
  | integer (value : Int)
  | fraction (negative : Bool) (magnitude : Number.Scaled)
  deriving DecidableEq, Repr, Inhabited

/-- A JSON value. Members stand in the order of the text, each name once. -/
inductive Json where
  | null
  | bool (value : Bool)
  | number (value : Json.Number)
  | string (value : String)
  | array (items : List Json)
  | object (members : List (String × Json))
  deriving Repr, Inhabited

namespace Json

def int (value : Int) : Json := .number (.integer value)

/-- The integer that a value is, where it fits the given bounds. -/
def intWithin? (low high : Int) : Json → Option Int
  | .number (.integer value) => if low ≤ value ∧ value ≤ high then some value else none
  | _ => none

def int32? (json : Json) : Option Int32 :=
  (json.intWithin? Int32.minValue.toInt Int32.maxValue.toInt).map Int32.ofInt

def int64? (json : Json) : Option Int := json.intWithin? Int64.minValue.toInt Int64.maxValue.toInt

def nat32? (json : Json) : Option Nat := (json.intWithin? 0 (UInt32.size - 1)).map Int.toNat

def nat64? (json : Json) : Option Nat := (json.intWithin? 0 (UInt64.size - 1)).map Int.toNat

def string? : Json → Option String
  | .string value => some value
  | _ => none

def bool? : Json → Option Bool
  | .bool value => some value
  | _ => none

def array? : Json → Option (List Json)
  | .array items => some items
  | _ => none

def object? : Json → Option (List (String × Json))
  | .object members => some members
  | _ => none

def member? (name : String) : Json → Option Json
  | .object members => members.lookup name
  | _ => none

end Json

end InkStory
