import InkStory.Choice
import InkStory.Config
import InkStory.Output
import InkStory.State.Scope

/-! # The state of a play-through -/

namespace InkStory

/-- Everything that changes while a story is played. -/
structure State where
  callStack : CallStack := CallStack.atStart
  globals : Globals := {}
  /-- The evaluation stack, its top first. -/
  evaluation : List Content := []
  output : Output := {}
  /-- All choices generated so far, invisible ones among them. -/
  choices : List Choice := []
  visits : Table Address Nat := {}
  turns : Table Address Int32 := {}
  turn : Int32 := -1
  seed : Int32 := 0
  previousDraw : Int32 := 0
  /-- The story stopped where it is meant to. -/
  exitedSafely : Bool := false
  /-- Where to go next instead of to the following object. -/
  diverted : Option Pointer := none
  errors : List String := []
  warnings : List String := []
  patch : Option Patch := none
  deriving DecidableEq, Repr, Inhabited

namespace State

def atStart (config : Config) : State := { seed := config.seed.getD 0 }

def pointer (state : State) : Option Pointer := state.callStack.pointer

def setPointer (state : State) (pointer : Option Pointer) : State :=
  { state with callStack := state.callStack.setPointer pointer }

def setPrevious (state : State) (pointer : Option Pointer) : State :=
  { state with callStack := state.callStack.setPrevious pointer }

/-- Whether there is content to evaluate, and no error forbids it. -/
def canContinue (state : State) : Bool := state.pointer.isSome && state.errors.isEmpty

/-- The choices shown to the player: none while there is content to evaluate. -/
def visibleChoices (state : State) : List Choice :=
  if state.canContinue then [] else state.choices.filter fun choice => !choice.isInvisible

/-- The path of the content to evaluate next. -/
def path? (program : Program) (state : State) : Option String :=
  state.pointer.map fun pointer => (program.pointerPath pointer).text

def evaluating (state : State) : Bool := state.callStack.frame.evaluating

/-- Choose between the evaluation stack and the output for the objects that follow. -/
def setEvaluating (state : State) (evaluating : Bool) : State :=
  { state with
    callStack := state.callStack.modifyFrame fun frame => { frame with evaluating := evaluating } }

def push (state : State) (content : Content) : State :=
  { state with evaluation := content :: state.evaluation }

def pushInt (state : State) (number : Int32) : State := state.push (.value (.int number))

def emit (state : State) (content : Content) : State :=
  let (output, callStack) := state.output.push state.callStack content
  { state with output := output, callStack := callStack }

/-- Leave all frames, threads and choices, and stop. -/
def forceEnd (state : State) : State :=
  let callStack := (state.callStack.reset.setPointer none).setPrevious none
  { state with callStack := callStack, choices := [], exitedSafely := true }

/-- Stop in a frame that the host waits for. -/
def exitHostCall (state : State) : State := { state.setPointer none with exitedSafely := true }

/-- Drop the running frame; a function's output loses its blanks at the end. -/
def leaveFrame (state : State) (kind : Option FrameKind) : Except Error State :=
  let output :=
    if state.callStack.frame.kind = .function then state.output.leaveFunction state.callStack
    else state.output
  (state.callStack.pop kind).map fun callStack =>
    { state with output := output, callStack := callStack }

def report (program : Program) (state : State) (kind message : String) : String :=
  "RUNTIME " ++ kind ++ ": " ++
    match state.path? program with
    | some path => "(" ++ path ++ "): " ++ message
    | none => message

def warn (program : Program) (state : State) (warning : Warning) : State :=
  { state with
    warnings := state.warnings ++ [state.report program "WARNING" warning.message] }

/-- Note an error, which ends the story. -/
def fail (program : Program) (state : State) (error : Error) : State :=
  { state.forceEnd with
    errors := state.errors ++ [state.report program "ERROR" error.message] }

def forgetReports (state : State) : State := { state with errors := [], warnings := [] }

def visitsOf (state : State) (address : Address) : Nat :=
  ((state.patch.bind fun patch => patch.visits.get? address).or
    (state.visits.get? address)).getD 0

def turnOf? (state : State) (address : Address) : Option Int32 :=
  (state.patch.bind fun patch => patch.turns.get? address).or (state.turns.get? address)

def countVisit (state : State) (address : Address) : State :=
  let count := state.visitsOf address + 1
  match state.patch with
  | some patch => { state with patch := some (patch.setVisits address count) }
  | none => { state with visits := state.visits.insert address count }

def recordTurn (state : State) (address : Address) : State :=
  match state.patch with
  | some patch => { state with patch := some (patch.setTurn address state.turn) }
  | none => { state with turns := state.turns.insert address state.turn }

/-- How often a container was visited, if that is counted. -/
def readVisits (program : Program) (state : State) (address : Address) : Except Fault Nat :=
  if (program.container address).counting.visits then .ok (state.visitsOf address)
  else .error (.uncountedVisits (program.containerPath address).text)

/-- The turns since a container was visited, if that is noted; `-1` if it never was. -/
def turnsSince (program : Program) (state : State) (address : Address) : Except Fault Int32 :=
  if (program.container address).counting.turns then
    .ok <|
      match state.turnOf? address with
      | some turn => state.turn - turn
      | none => -1
  else .error (.uncountedTurns (program.containerPath address).text)

def visitsAt (program : Program) (state : State) (path : String) : Except Error Nat :=
  match (program.followPath [] (Path.parse path)).exactContainer? with
  | some address => .ok (state.visitsOf address)
  | none => .error (.invalidArgument (.noContent path))

/-- The state to go on with while this one is kept as it is: writes go to a patch. -/
def startPatch (state : State) : State := { state with patch := some (state.patch.getD {}) }

/-- Make the writes of the patch, if there is one. -/
def applyPatch (state : State) : State :=
  match state.patch with
  | none => state
  | some patch =>
    { state with
      patch := none
      globals := state.globals.applyPatch patch
      visits := state.visits.insertAll patch.visits.entries
      turns := state.turns.insertAll patch.turns.entries }

def scope (program : Program) (state : State) : Scope :=
  ⟨state.globals, state.patch, state.callStack, program.lists⟩

def lookup? (program : Program) (state : State) (name : String) : Option Value :=
  (state.scope program).value? name .unknown

def global? (state : State) (name : String) : Option Value :=
  state.globals.get? state.patch name

def assign (program : Program) (state : State) (assignment : Assignment) (value : Value) :
    Except Error State := do
  let scope ← (state.scope program).assign assignment value
  return { state with
    globals := scope.globals, patch := scope.patch, callStack := scope.stack }

end State

end InkStory
