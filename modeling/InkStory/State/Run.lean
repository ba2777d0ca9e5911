import InkStory.Content.Description
import InkStory.State.Walk

/-! # Operations that may fail -/

namespace InkStory

/-- An operation on a state. What it did before it fails stays done. -/
abbrev Run := EStateM Error State

namespace Run

def fault (fault : Fault) : Run α := throw (.runtime fault)

def ofFault : Except Fault α → Run α
  | .ok value => pure value
  | .error found => fault found

def ofState : Except Error State → Run Unit
  | .ok state => set state
  | .error error => throw error

def push (content : Content) : Run Unit := modify fun state => state.push content

def pushValue (value : Value) : Run Unit := push (.value value)

def pushInt (number : Int32) : Run Unit := pushValue (.int number)

def emit (content : Content) : Run Unit := modify fun state => state.emit content

def pop : Run Content := do
  match (← get).evaluation with
  | top :: rest =>
    modify fun state => { state with evaluation := rest }
    return top
  | [] => fault .emptyStack

/-- Pop a number of objects, the one pushed first in front. -/
def popMany (count : Nat) : Run (List Content) := do
  let stack := (← get).evaluation
  if stack.length < count then fault (.shortStack count stack.length)
  modify fun state => { state with evaluation := stack.drop count }
  return (stack.take count).reverse

def popValue : Run Value := do
  match ← pop with
  | .value value => return value
  | other => fault (.strangeValue other.description)

def popCondition : Run Bool := do ofFault (← popValue).isTruthy

/-- The pointer that an absolute path stands for, with a warning if the path does not lead there
exactly. -/
def pointerAt (program : Program) (path : Path) : Run (Option Pointer) := do
  let landing ← ofFault (program.pointerAt path)
  if let some place := landing.approximatedTo then
    modify fun state =>
      state.warn program (.approximatedPath path.text (program.pathOf place).text)
  return landing.pointer

def divertTo (program : Program) (path : Path) : Run Unit := do
  let pointer ← pointerAt program path
  modify fun state => { state with diverted := pointer }

/-- Go to an absolute path and drop all choices. A turn begins, if `beginsTurn`. -/
def choosePath (program : Program) (path : Path) (beginsTurn : Bool) : Run Unit := do
  modify fun state => { state with choices := [] }
  let pointer ← pointerAt program path
  let pointer := pointer.map fun pointer => { pointer with index := some (pointer.index.getD 0) }
  modify fun state => state.setPointer pointer
  if beginsTurn then modify fun state => { state with turn := state.turn + 1 }
  modify fun state => state.visitEntered program

def passArguments (arguments : List Value) : Run Unit :=
  arguments.forM fun argument =>
    match argument with
    | .bool _ | .int _ | .float _ | .string _ | .list _ => pushValue argument
    | other => throw (.invalidArgument (.unpassable other.kind))

def enterFunction (function : Address) (arguments : List Value) : Run Unit := do
  modify fun state =>
    { state with
      callStack :=
        (state.callStack.push .hostCall state.evaluation.length 0).setPointer
          (some (Pointer.startOf function)) }
  passArguments arguments

/-- Leave a function on behalf of the host, with the value that it left on top of the evaluation
stack, and restore the height of the stack. -/
def leaveFunction (program : Program) : Run (Option Value) := do
  let state ← get
  if !state.callStack.inHostCall then fault (.unfinishedFunction (state.callStack.trace program))
  let added := state.evaluation.length - state.callStack.frame.stackHeight
  set { state with evaluation := state.evaluation.drop added }
  ofState ((← get).leaveFrame (some .hostCall))
  return (state.evaluation.take added).head?.bind Content.value?

end Run

end InkStory
