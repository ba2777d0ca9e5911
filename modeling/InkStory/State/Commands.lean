import InkStory.State.Run
import InkStory.State.Shuffle

/-! # Control commands at work -/

namespace InkStory

namespace Run

def beginEvaluation : Run Unit := do
  if (← get).evaluating then fault .alreadyEvaluating
  modify fun state => state.setEvaluating true

def endEvaluation : Run Unit := do
  if !(← get).evaluating then fault .notEvaluating
  modify fun state => state.setEvaluating false

/-- The text that an object on the evaluation stack is written with; nothing for a void. -/
def writtenText : Content → Except Fault (Option String)
  | .void => .ok none
  | .value value => .ok (some value.text)
  | .tag text => .ok (some text)
  | other => .error (.strangeOutput other.description)

def outputValue : Run Unit := do
  if (← get).evaluation.isEmpty then return
  if let some text ← ofFault (writtenText (← pop)) then emit (.ofText text)

def duplicate : Run Unit := do
  match (← get).evaluation with
  | top :: _ => push top
  | [] => fault .nothingToDuplicate

/-- Where a tunnel is to return to instead of its caller. -/
def popReturnTarget : Run (Option Path) := do
  match ← pop with
  | .value (.divertTarget path) => return some path
  | .void => return none
  | other => fault (.strangeTunnelTarget other.description)

/-- Return from a frame of a kind, or stop where the host waits for it. -/
def returnFrom (program : Program) (kind : FrameKind) (target : Option Path) : Run Unit := do
  let stack := (← get).callStack
  if stack.inHostCall then modify State.exitHostCall
  else if !stack.canPopKind kind then
    throw (.mismatchedReturn (if stack.canPop then some stack.frame.kind else none) kind)
  else
    ofState ((← get).leaveFrame none)
    if let some path := target then divertTo program path

def beginString : Run Unit := do
  if !(← get).evaluating then fault .stringOutsideExpression
  emit (.command .beginString)
  modify fun state => state.setEvaluating false

def endString : Run Unit :=
  modify fun state =>
    let (text, output) := state.output.endString
    ({ state with output := output }.setEvaluating true).push (.ofText text)

/-- End a tag. Within a string it goes to the evaluation stack, for a choice to find. -/
def endTag : Run Unit := do
  let state ← get
  if state.output.inString then
    let (text, output) ← ofFault state.output.endTag
    set { state with output := output }
    push (.tag text)
  else emit (.command .endTag)

/-- Pop the path of a container that is asked about. -/
def popCountTarget : Run Path := do
  match ← pop with
  | .value (.divertTarget path) => return path
  | .value (.int number) => fault (.strangeCountTarget (Value.int number).text true)
  | .value other => fault (.strangeCountTarget other.text false)
  | other => fault (.strangeCountTarget other.description false)

/-- Push a number about the container at a path, or another with a warning if there is none. -/
def countAt (program : Program) (command : Command) (missing : Int32)
    (count : State → Address → Except Fault Int32) : Run Unit := do
  let path ← popCountTarget
  match (program.followPath [] path).exactContainer? with
  | some address => pushInt (← ofFault (count (← get) address))
  | none =>
    modify fun state => state.warn program (.missingCountTarget command.token path.text)
    pushInt missing

def draw : Run Int32 := do
  let state ← get
  return firstDraw (state.seed + state.previousDraw)

def remember (drawn : Int32) : Run Unit :=
  modify fun state => { state with previousDraw := drawn }

/-- The size of the range between two numbers, both included. -/
def rangeSize (low high : Int32) : Except Fault Int32 :=
  let difference := high.toInt - low.toInt
  if difference < Int32.minValue.toInt ∨ Int32.maxValue.toInt ≤ difference then
    .error .randomRangeTooLarge
  else if difference < 0 then .error (.randomRangeEmpty low high)
  else .ok (Int32.ofInt (difference + 1))

def random : Run Unit := do
  let high := (← popValue).int?
  let low := (← popValue).int?
  let some low := low | fault .badRandomMinimum
  let some high := high | fault .badRandomMaximum
  let size ← ofFault (rangeSize low high)
  let drawn ← draw
  pushInt (drawn % size + low)
  remember drawn

def seedRandom : Run Unit := do
  let some seed := (← popValue).int? | fault .badSeed
  modify fun state => { state with seed := seed, previousDraw := 0 }
  push .void

def visitIndex (program : Program) : Run Unit := do
  let state ← get
  let some pointer := state.pointer | fault .noVisitedContainer
  let count ← ofFault (state.readVisits program pointer.container)
  pushInt (Int32.ofNat count - 1)

def shuffleIndex (program : Program) : Run Unit := do
  let some size := (← popValue).int? | fault .badShuffleSize
  let some pointer := (← get).pointer | fault .noShuffledContainer
  let some count := (← popValue).int? | fault .badShuffleCount
  if size ≤ 0 then fault .emptyShuffle
  let path := program.containerPath pointer.container
  match Shuffle.element? path (← get).seed size count with
  | some element => pushInt element
  | none => fault .shuffleOutOfRange

/-- Go back to the thread that waits, or stop. -/
def done : Run Unit :=
  modify fun state =>
    if state.callStack.canPopThread then { state with callStack := state.callStack.popThread }
    else { state with exitedSafely := true }.setPointer none

def listFromInt (program : Program) : Run Unit := do
  let number := (← popValue).int?
  let name := ((← popValue).string?).getD ""
  let some number := number | fault .badListNumber
  let some definition := program.lists.find? name | fault (.unknownList name)
  pushValue <| .list <|
    match definition.itemWith? number with
    | some item => ItemSet.single item number
    | none => {}

/-- Pop a value, if there is one; whatever is on top goes. -/
def tryPopValue : Run (Option Value) := do
  match (← get).evaluation with
  | [] => return none
  | _ :: _ => return (← pop).value?

def listRange : Run Unit := do
  let high ← tryPopValue
  let low ← tryPopValue
  let set ← tryPopValue
  match set, low, high with
  | some (.list set), some low, some high => pushValue (.list (set.range low high))
  | _, _, _ => fault .badListRange

def listRandom : Run Unit := do
  match ← popValue with
  | .list set =>
    if set.isEmpty then pushValue (.list {})
    else
      let drawn ← draw
      pushValue <| .list <|
        match set.toList[drawn.toInt.toNat % set.size]? with
        | some (item, number) =>
          { ItemSet.single item number with remembered := item.origin.toList }
        | none => {}
      remember drawn
  | _ => fault .badListRandom

/-- Carry out a command. A thread is started behind it. -/
def perform (program : Program) : Command → Run Unit
  | .beginEvaluation => beginEvaluation
  | .endEvaluation => endEvaluation
  | .outputValue => outputValue
  | .nothing => pure ()
  | .duplicate => duplicate
  | .dropValue => discard pop
  | .returnFromFunction => returnFrom program .function none
  | .returnFromTunnel => do returnFrom program .tunnel (← popReturnTarget)
  | .beginString => beginString
  | .endString => endString
  | .beginTag => emit (.command .beginTag)
  | .endTag => endTag
  | .choiceCount => do pushInt (Int32.ofNat (← get).choices.length)
  | .turns => do pushInt ((← get).turn + 1)
  | .turnsSince => countAt program .turnsSince (-1) fun state => state.turnsSince program
  | .readCount =>
    countAt program .readCount 0 fun state address =>
      (state.readVisits program address).map Int32.ofNat
  | .random => random
  | .seedRandom => seedRandom
  | .visitIndex => visitIndex program
  | .shuffleIndex => shuffleIndex program
  | .startThread => pure ()
  | .done => done
  | .finish => modify State.forceEnd
  | .listFromInt => listFromInt program
  | .listRange => listRange
  | .listRandom => listRandom

end Run

end InkStory
