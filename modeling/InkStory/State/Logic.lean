import InkStory.State.Choices
import InkStory.State.Commands

/-! # Objects at work -/

namespace InkStory

/-- A call of the host that an object asks for, with a number of arguments from the stack. -/
structure HostRequest where
  function : String
  arguments : Nat
  deriving DecidableEq, Repr

namespace Run

def divertToVariable (program : Program) (name : String) : Run Unit := do
  match (← get).lookup? program name with
  | none => fault (.missingDivertVariable name)
  | some (.divertTarget path) => divertTo program path
  | some (.int 0) => fault (.nullDivertVariable name)
  | some other => fault (.strangeDivertVariable name other.text)

def pushFrame (kind : FrameKind) : Run Unit :=
  modify fun state =>
    { state with callStack := state.callStack.push kind 0 state.output.length }

/-- Push the frame of a divert, if it returns. Its target must be known. -/
def finishJump (divert : Divert) : Run (Option HostRequest) := do
  if let some kind := divert.pushes then pushFrame kind
  if (← get).diverted.isNone then fault (.unresolvedDivert divert.description)
  return none

def jump (program : Program) (origin : Place) (divert : Divert) : Run (Option HostRequest) :=
  match divert.target with
  | .external function arguments => return some ⟨function, arguments⟩
  | .variable name => do
    divertToVariable program name
    finishJump divert
  | .path path => do
    modify fun state => { state with diverted := program.divertPointer? origin path }
    finishJump divert

def performDivert (program : Program) (origin : Place) (divert : Divert) :
    Run (Option HostRequest) := do
  if divert.isConditional then
    if !(← popCondition) then return none
  jump program origin divert

def assignable (assignment : Assignment) : Content → Except Fault Value
  | .value value => .ok value
  | .void => .ok .void
  | other => .error (.strangeAssignment assignment.name other.description)

def assign (program : Program) (assignment : Assignment) : Run Unit := do
  let value ← ofFault (assignable assignment (← pop))
  ofState ((← get).assign program assignment value)

def readCount (program : Program) (origin : Place) (path : Path) : Run Unit := do
  let some address := (program.resolvePath origin path).container?
    | fault (.missingReadCount path.text)
  let count ← ofFault ((← get).readVisits program address)
  pushInt (Int32.ofNat count)

/-- Push the value of a variable; zero with a warning if there is none. -/
def readVariable (program : Program) (name : String) : Run Unit := do
  match (← get).lookup? program name with
  | some value => push (.ofValue value)
  | none =>
    modify fun state => state.warn program (.unknownVariable name)
    pushInt 0

def operand (operator : Operator) : Content → Except Fault Value
  | .value value => .ok value
  | .void => .error .voidOperand
  | other => .error (.strangeOperand operator.symbol other.description)

def applyOperator (program : Program) (operator : Operator) : Run Unit := do
  let operands ← popMany operator.arity
  let values ← ofFault (operands.mapM (operand operator))
  pushValue (← ofFault (operator.apply program.lists values))

/-- Carry out an object that stands at a place, but for the call of the host that it asks for. -/
def performContent (program : Program) (origin : Place) : Content → Run (Option HostRequest)
  | .divert divert => performDivert program origin divert
  | .command command => do
    perform program command
    return none
  | .assignment assignment => do
    assign program assignment
    return none
  | .readCount path => do
    readCount program origin path
    return none
  | .variable name => do
    readVariable program name
    return none
  | .operator operator => do
    applyOperator program operator
    return none
  | .value _ | .choicePoint _ | .glue | .tag _ | .void => return none

/-- An object as it is added: a pointer to a variable is fixed to where the variable lives. -/
def pinned (state : State) : Content → Content
  | .value (.variablePointer name .unknown) =>
    .value (.variablePointer name (state.callStack.contextOf name))
  | other => other

def addContent (content : Content) : Run Unit :=
  modify fun state =>
    if state.evaluating then state.push (pinned state content)
    else state.emit (pinned state content)

/-- Offer the choice of a choice point, or add an object that is content. -/
def deliver (program : Program) (origin : Place) : Content → Run Unit
  | .choicePoint point => offerChoice program origin point
  | .value value => addContent (.value value)
  | .glue => addContent .glue
  | .tag text => addContent (.tag text)
  | .void => addContent .void
  | _ => pure ()

/-- Do what is left to do with an object, then move on. -/
def finishContent (program : Program) (origin : Place) (content : Content) : Run Unit := do
  if (← get).pointer.isNone then return
  deliver program origin content
  modify fun state => state.moveOn program
  if content = .command .startThread then
    modify fun state => { state with callStack := state.callStack.pushThread }

end Run

end InkStory
