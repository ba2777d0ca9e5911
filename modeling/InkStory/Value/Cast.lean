import InkStory.Error.Fault

/-! # Conditions and conversions -/

namespace InkStory.Value

def isTruthy : Value → Except Fault Bool
  | void => .error .voidCondition
  | bool value => .ok value
  | int value => .ok (value != 0)
  | float value => .ok (value != 0)
  | list value => .ok (!value.isEmpty)
  | string value => .ok (value != "")
  | divertTarget target => .error (.divertTargetCondition target.text)
  | variablePointer name _ => .error (.variablePointerCondition name)

/-- An integer of 32 bits in a text, white space around it ignored. -/
def parseInt? (text : String) : Option Int32 := do
  let value ← Text.integer? (Text.strip text).toList
  if Int32.minValue.toInt ≤ value ∧ value ≤ Int32.maxValue.toInt then some (Int32.ofInt value)
  else none

/-- Convert a value to another kind, where there is a conversion. -/
def convert? (value : Value) (target : ValueKind) : Option Value :=
  match value, target with
  | bool value, .int => some (int (if value then 1 else 0))
  | bool value, .float => some (float (if value then 1 else 0))
  | bool value, .string => some (string (boolText value))
  | int value, .bool => some (bool (value != 0))
  | int value, .float => some (float (Single.ofInt value.toInt))
  | int value, .string => some (string value.toInt.repr)
  | float value, .bool => some (bool (value != 0))
  | float value, .int => some (int value.toInt32)
  | float value, .string => some (string value.storyText)
  | string value, .int => (parseInt? value).map int
  | string value, .float => (Single.parse? (Text.strip value)).map float
  | list value, .int => some (int (value.maximum?.getD 0))
  | list value, .float => some (float (Single.ofInt (value.maximum?.getD 0).toInt))
  | list value, .string => some (string value.text)
  | _, _ => none

/-- Convert a value to a kind; its own kind takes nothing. -/
def cast (value : Value) (target : ValueKind) : Except Fault Value :=
  if value.kind = target then .ok value
  else
    match value.convert? target with
    | some value => .ok value
    | none => .error (.badCast value.text value.kind target)

end InkStory.Value
