import InkStory.Items.Basic
import InkStory.Number.Single
import InkStory.Path

/-! # Values of a story -/

namespace InkStory

/-- The kinds of values, from the narrowest to the widest. -/
inductive ValueKind where
  | void
  | bool
  | int
  | float
  | list
  | string
  | divertTarget
  | variablePointer
  deriving DecidableEq, Repr, Inhabited

namespace ValueKind

/-- The place of a kind in the order of widening. -/
def rank : ValueKind → Nat
  | void => 0
  | bool => 1
  | int => 2
  | float => 3
  | list => 4
  | string => 5
  | divertTarget => 6
  | variablePointer => 7

def widest (left right : ValueKind) : ValueKind := if left.rank < right.rank then right else left

def name : ValueKind → String
  | void => "Void"
  | bool => "Bool"
  | int => "Int"
  | float => "Float"
  | list => "List"
  | string => "String"
  | divertTarget => "DivertTarget"
  | variablePointer => "VariablePointer"

def all : List ValueKind :=
  [void, bool, int, float, list, string, divertTarget, variablePointer]

end ValueKind

/-- Where a pointed-at variable lives. -/
inductive Context where
  /-- Not known yet: a global, or else a temporary of the current frame. -/
  | unknown
  | global
  /-- A temporary of the frame at a height, counted from the bottom of its thread. -/
  | frame (height : Nat)
  deriving DecidableEq, Repr, Inhabited

namespace Context

def number : Context → Int
  | unknown => -1
  | global => 0
  | frame height => height + 1

def ofNumber : Int → Context
  | .negSucc _ => unknown
  | .ofNat 0 => global
  | .ofNat (height + 1) => frame height

end Context

inductive Value where
  /-- What a function without a result leaves in a variable. -/
  | void
  | bool (value : Bool)
  | int (value : Int32)
  | float (value : Single)
  | list (value : ItemSet)
  | string (value : String)
  | divertTarget (target : Path)
  | variablePointer (name : String) (context : Context)
  deriving DecidableEq, Repr, Inhabited

namespace Value

def kind : Value → ValueKind
  | void => .void
  | bool _ => .bool
  | int _ => .int
  | float _ => .float
  | list _ => .list
  | string _ => .string
  | divertTarget _ => .divertTarget
  | variablePointer _ _ => .variablePointer

def boolText (value : Bool) : String := if value then "true" else "false"

def text : Value → String
  | void => "void"
  | bool value => boolText value
  | int value => value.toInt.repr
  | float value => value.storyText
  | list value => value.text
  | string value => value
  | divertTarget target => "DivertTargetValue(" ++ target.text ++ ")"
  | variablePointer name _ => "VariablePointerValue(" ++ name ++ ")"

/-- Whether two values are the same to a story: numbers by their comparison and lists by their
items. -/
def same : Value → Value → Bool
  | void, void => true
  | bool left, bool right => left == right
  | int left, int right => left == right
  | float left, float right => left == right
  | list left, list right => left.same right
  | string left, string right => left == right
  | divertTarget left, divertTarget right => left == right
  | variablePointer left context, variablePointer right otherContext =>
    left == right && context == otherContext
  | _, _ => false

def int? : Value → Option Int32
  | int value => some value
  | _ => none

def float? : Value → Option Single
  | float value => some value
  | _ => none

def bool? : Value → Option Bool
  | bool value => some value
  | _ => none

def string? : Value → Option String
  | string value => some value
  | _ => none

def list? : Value → Option ItemSet
  | list value => some value
  | _ => none

def divertTarget? : Value → Option Path
  | divertTarget target => some target
  | _ => none

/-- A new value in place of an old one: an empty list stays with the lists of the former. -/
def replacing (value : Value) (old : Option Value) : Value :=
  match value, old with
  | list new, some (list old) => list (new.replacing old)
  | value, _ => value

/-- The least number that a lower bound of a range admits. -/
def lowerBound : Value → Int32
  | int value => value
  | list value => value.minimum?.getD 0
  | _ => 0

/-- The greatest number that an upper bound of a range admits. -/
def upperBound : Value → Int32
  | int value => value
  | list value => value.maximum?.getD Int32.maxValue
  | _ => Int32.maxValue

end Value

/-- The items within two bounds, which are numbers or lists. -/
def ItemSet.range (set : ItemSet) (low high : Value) : ItemSet :=
  set.between low.lowerBound high.upperBound

end InkStory
