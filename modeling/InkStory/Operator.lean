import InkStory.Items.Definitions
import InkStory.Value.Cast

/-! # Operators of expressions -/

namespace InkStory

inductive Operator where
  | add
  | subtract
  | divide
  | multiply
  | modulo
  | negate
  | equal
  | greater
  | less
  | greaterOrEqual
  | lessOrEqual
  | notEqual
  | not
  | and
  | or
  | min
  | max
  | power
  | floor
  | ceiling
  | int
  | float
  | has
  | hasNot
  | intersect
  | listMin
  | listMax
  | listAll
  | listCount
  | listValue
  | listInvert
  deriving DecidableEq, Repr, Inhabited

namespace Operator

def all : List Operator :=
  [add, subtract, divide, multiply, modulo, negate, equal, greater, less, greaterOrEqual,
    lessOrEqual, notEqual, not, and, or, min, max, power, floor, ceiling, int, float, has, hasNot,
    intersect, listMin, listMax, listAll, listCount, listValue, listInvert]

def symbol : Operator → String
  | add => "+"
  | subtract => "-"
  | divide => "/"
  | multiply => "*"
  | modulo => "%"
  | negate => "_"
  | equal => "=="
  | greater => ">"
  | less => "<"
  | greaterOrEqual => ">="
  | lessOrEqual => "<="
  | notEqual => "!="
  | not => "!"
  | and => "&&"
  | or => "||"
  | min => "MIN"
  | max => "MAX"
  | power => "POW"
  | floor => "FLOOR"
  | ceiling => "CEILING"
  | int => "INT"
  | float => "FLOAT"
  | has => "?"
  | hasNot => "!?"
  | intersect => "^"
  | listMin => "LIST_MIN"
  | listMax => "LIST_MAX"
  | listAll => "LIST_ALL"
  | listCount => "LIST_COUNT"
  | listValue => "LIST_VALUE"
  | listInvert => "LIST_INVERT"

def word : Operator → String
  | add => "Add"
  | subtract => "Subtract"
  | divide => "Divide"
  | multiply => "Multiply"
  | modulo => "Mod"
  | negate => "Negate"
  | equal => "Equal"
  | greater => "Greater"
  | less => "Less"
  | greaterOrEqual => "GreaterThanOrEquals"
  | lessOrEqual => "LessThanOrEquals"
  | notEqual => "NotEquals"
  | not => "Not"
  | and => "And"
  | or => "Or"
  | min => "Min"
  | max => "Max"
  | power => "Pow"
  | floor => "Floor"
  | ceiling => "Ceiling"
  | int => "Int"
  | float => "Float"
  | has => "Has"
  | hasNot => "Hasnt"
  | intersect => "Intersect"
  | listMin => "ListMin"
  | listMax => "ListMax"
  | listAll => "All"
  | listCount => "Count"
  | listValue => "ValueOfList"
  | listInvert => "Invert"

def ofSymbol? (symbol : String) : Option Operator :=
  all.find? fun operator => operator.symbol == symbol

def isUnary : Operator → Bool
  | negate | not | floor | ceiling | int | float | listMin | listMax | listAll | listCount
  | listValue | listInvert => true
  | _ => false

def arity (operator : Operator) : Nat := if operator.isUnary then 1 else 2

/-- An integer power, computed in double precision. -/
def intPower (base exponent : Int32) : Single :=
  Single.narrow <| Number.Format.double.unpack
    (Float.pow (Float.ofInt base.toInt) (Float.ofInt exponent.toInt)).toBits.toNat

def occursIn (needle : List Char) : List Char → Bool
  | [] => needle.isEmpty
  | c :: rest => needle.isPrefixOf (c :: rest) || occursIn needle rest

/-- Two integers. Arithmetic wraps around, and division drops the fraction. -/
def onInts (operator : Operator) (left right : Int32) : Except Fault Value :=
  match operator with
  | add => .ok (.int (left + right))
  | subtract => .ok (.int (left - right))
  | multiply => .ok (.int (left * right))
  | divide => if right = 0 then .error .divisionByZero else .ok (.int (left / right))
  | modulo => if right = 0 then .error .divisionByZero else .ok (.int (left % right))
  | equal => .ok (.bool (left == right))
  | greater => .ok (.bool (right < left))
  | less => .ok (.bool (left < right))
  | greaterOrEqual => .ok (.bool (right ≤ left))
  | lessOrEqual => .ok (.bool (left ≤ right))
  | notEqual => .ok (.bool (left != right))
  | and => .ok (.bool (left != 0 && right != 0))
  | or => .ok (.bool (left != 0 || right != 0))
  | max => .ok (.int (if left < right then right else left))
  | min => .ok (.int (if right < left then right else left))
  | power => .ok (.float (intPower left right))
  | _ => .error (.badOperand operator.symbol .int)

def onFloats (operator : Operator) (left right : Single) : Except Fault Value :=
  match operator with
  | add => .ok (.float (left + right))
  | subtract => .ok (.float (left - right))
  | multiply => .ok (.float (left * right))
  | divide => .ok (.float (left / right))
  | modulo => .ok (.float (left.remainder right))
  | equal => .ok (.bool (left == right))
  | greater => .ok (.bool (right < left))
  | less => .ok (.bool (left < right))
  | greaterOrEqual => .ok (.bool (right ≤ left))
  | lessOrEqual => .ok (.bool (left ≤ right))
  | notEqual => .ok (.bool (left != right))
  | and => .ok (.bool (left != 0 && right != 0))
  | or => .ok (.bool (left != 0 || right != 0))
  | max => .ok (.float (left.maximum right))
  | min => .ok (.float (left.minimum right))
  | power => .ok (.float (Float32.pow left right))
  | _ => .error (.badOperand operator.symbol .float)

def onStrings (operator : Operator) (left right : String) : Except Fault Value :=
  match operator with
  | add => .ok (.string (left ++ right))
  | equal => .ok (.bool (left == right))
  | notEqual => .ok (.bool (left != right))
  | has => .ok (.bool (occursIn right.toList left.toList))
  | hasNot => .ok (.bool (!occursIn right.toList left.toList))
  | _ => .error (.badOperand operator.symbol .string)

def onLists (operator : Operator) (left right : ItemSet) : Except Fault Value :=
  match operator with
  | add => .ok (.list (left.union right))
  | subtract => .ok (.list (left.without right))
  | has => .ok (.bool (left.includes right))
  | hasNot => .ok (.bool (!left.includes right))
  | intersect => .ok (.list (left.inter right))
  | equal => .ok (.bool (left.same right))
  | notEqual => .ok (.bool (!left.same right))
  | greater => .ok (.bool (left.gt right))
  | less => .ok (.bool (left.lt right))
  | greaterOrEqual => .ok (.bool (left.ge right))
  | lessOrEqual => .ok (.bool (left.le right))
  | and => .ok (.bool (!left.isEmpty && !right.isEmpty))
  | or => .ok (.bool (!left.isEmpty || !right.isEmpty))
  | _ => .error (.badOperand operator.symbol .list)

def onTargets (operator : Operator) (left right : Path) : Except Fault Value :=
  match operator with
  | equal => .ok (.bool (left == right))
  | notEqual => .ok (.bool (left != right))
  | _ => .error (.badOperand operator.symbol .divertTarget)

def onSameKind (operator : Operator) (left right : Value) : Except Fault Value :=
  match left, right with
  | .int left, .int right => operator.onInts left right
  | .float left, .float right => operator.onFloats left right
  | .string left, .string right => operator.onStrings left right
  | .list left, .list right => operator.onLists left right
  | .divertTarget left, .divertTarget right => operator.onTargets left right
  | left, _ => .error (.badOperand operator.symbol left.kind)

/-- Two operands of which one at least is a set. An integer moves a set along its lists; with
anything but another set there is only logic. -/
def onListOperands (lists : ListDefinitions) (operator : Operator) (left right : Value) :
    Except Fault Value :=
  match operator, left, right with
  | add, .list set, .int shift => .ok (.list (set.shifted lists (· + shift)))
  | subtract, .list set, .int shift => .ok (.list (set.shifted lists (· - shift)))
  | operator, .list left, .list right => operator.onLists left right
  | and, left, right => do
    let left ← left.isTruthy
    let right ← right.isTruthy
    return .bool (left && right)
  | or, left, right => do
    let left ← left.isTruthy
    let right ← right.isTruthy
    return .bool (left || right)
  | operator, left, right => .error (.badListOperands operator.symbol left.kind right.kind)

/-- Apply an operator to two operands. Both are brought to the wider of their kinds first, which
is integer at least. -/
def applyBinary (lists : ListDefinitions) (operator : Operator) (left right : Value) :
    Except Fault Value :=
  if left.kind = .list ∨ right.kind = .list then operator.onListOperands lists left right
  else do
    let kind := (ValueKind.int.widest left.kind).widest right.kind
    let left ← left.cast kind
    let right ← right.cast kind
    operator.onSameKind left right

/-- One operand that is no truth value. -/
def onOperand (lists : ListDefinitions) (operator : Operator) (operand : Value) :
    Except Fault Value :=
  match operator, operand with
  | negate, .int value => .ok (.int (-value))
  | not, .int value => .ok (.bool (value == 0))
  | floor, .int value => .ok (.int value)
  | ceiling, .int value => .ok (.int value)
  | int, .int value => .ok (.int value)
  | float, .int value => .ok (.float (Single.ofInt value.toInt))
  | negate, .float value => .ok (.float (-value))
  | not, .float value => .ok (.bool (value == 0))
  | floor, .float value => .ok (.float value.floor)
  | ceiling, .float value => .ok (.float value.ceiling)
  | int, .float value => .ok (.int value.toInt32)
  | float, .float value => .ok (.float value)
  | not, .list value => .ok (.int (if value.isEmpty then 1 else 0))
  | listInvert, .list value => .ok (.list (value.complement lists))
  | listAll, .list value => .ok (.list (value.whole lists))
  | listMin, .list value => .ok (.list value.least)
  | listMax, .list value => .ok (.list value.greatest)
  | listCount, .list value => .ok (.int (Int32.ofNat value.size))
  | listValue, .list value => .ok (.int (value.maximum?.getD 0))
  | operator, operand => .error (.badOperand operator.symbol operand.kind)

/-- Apply an operator to one operand, which becomes an integer at least. -/
def applyUnary (lists : ListDefinitions) (operator : Operator) (operand : Value) :
    Except Fault Value := do
  let operand ← operand.cast (ValueKind.int.widest operand.kind)
  operator.onOperand lists operand

/-- Apply an operator to its operands, of which there are one or two. -/
def apply (lists : ListDefinitions) (operator : Operator) : List Value → Except Fault Value
  | [left, right] => operator.applyBinary lists left right
  | [operand] => operator.applyUnary lists operand
  | _ => .ok .void

end Operator

end InkStory
