import InkStory.Program.Reader
import InkStory.Save.Record
import InkStory.State.Run

/-! # Loading a state -/

namespace InkStory

def Save.oldestVersion : Nat := 8

def Save.parse (text : String) : Except Error Save := do
  let some json := Json.parse? text | throw (.saveFormat .unreadable)
  let some version := (json.member? "inkSaveVersion").bind Json.nat64?
    | throw (.saveFormat .missingVersion)
  if version < oldestVersion then throw (.saveVersionTooOld version oldestVersion)
  let some save := json.object?.bind read? | throw (.saveFormat .unreadable)
  return save

def Content.restore (json : Json) : Except Error Content :=
  match Content.read json with
  | .ok content => .ok content
  | .error fault => .error (.saveFormat (.badObject fault))

def Value.restore (json : Json) : Except Error Value := do
  match ← Content.restore json with
  | .value value => return value
  | .void => return .void
  | other => throw (.saveFormat (.expectedValue other.description))

def Value.restoreAll (members : List (String × Json)) : Except Error (Table String Value) := do
  let values ← members.mapM fun (name, json) => do return (name, ← Value.restore json)
  return Table.ofList values

/-- Where a saved frame stands, with a warning if that is not where it was saved. -/
def SavedFrame.restorePointer (program : Program) (frame : SavedFrame) :
    Except Error (Option Pointer × List Warning) :=
  match frame.container with
  | none => .ok (none, [])
  | some path =>
    let found := program.followPath [] (Path.parse path)
    match found.container? with
    | none => .error (.runtime (.lostLocation path))
    | some address =>
      let position := if frame.position < 0 then none else some frame.position.toNat
      let warnings :=
        if found.approximate then
          [.approximatedLocation path (program.containerPath address).text]
        else []
      .ok (some ⟨address, position⟩, warnings)

def SavedFrame.restore (program : Program) (frame : SavedFrame) :
    Except Error (Frame × List Warning) := do
  let some kind := FrameKind.ofNumber? frame.kind
    | throw (.saveFormat (.unknownFrameKind frame.kind))
  let (pointer, warnings) ← frame.restorePointer program
  let temporaries ← Value.restoreAll frame.temporaries
  return ({ pointer, kind, temporaries, evaluating := frame.evaluating }, warnings)

def restorePath (program : Program) : Option String → Except Error (Option Pointer)
  | none => .ok none
  | some path =>
    match program.pointerAt (Path.parse path) with
    | .ok landing => .ok landing.pointer
    | .error fault => .error (.runtime fault)

def SavedThread.restore (program : Program) (thread : SavedThread) :
    Except Error (Thread × List Warning) := do
  let frames ← thread.frames.mapM (SavedFrame.restore program)
  let previous ← restorePath program thread.previous
  let some restored := Thread.ofFrames? (frames.map Prod.fst) thread.index previous
    | throw (.saveFormat .unreadable)
  return (restored, frames.flatMap Prod.snd)

def SavedChoice.restore (program : Program) (stack : CallStack)
    (threads : List (String × SavedThread)) (choice : SavedChoice) :
    Except Error (Choice × List Warning) := do
  let (thread, warnings) ←
    match stack.thread? choice.thread, threads.lookup choice.thread.repr with
    | some thread, _ => pure (thread, [])
    | none, some saved => saved.restore program
    | none, none => throw (.saveFormat (.missingThread choice.thread))
  let restored : Choice :=
    { text := choice.text, source := choice.source, target := Path.parse choice.target,
      isInvisible := choice.isInvisible, tags := choice.tags, index := choice.index, thread }
  return (restored, warnings)

/-- Counts by container; those of containers that the story does not have are dropped. -/
def restoreCounts (program : Program) (counts : List (String × α)) : Table Address α :=
  Table.ofList <| counts.filterMap fun (path, count) =>
    (program.followPath [] (Path.parse path)).exactContainer?.map fun address => (address, count)

/-- Where a saved story stands: what a save must hold for anything of it to be taken over. -/
structure SavedFlow where
  callStack : CallStack
  choices : List Choice
  globals : Table String Value
  diverted : Option Pointer
  warnings : List Warning

def Save.restoreFlow (program : Program) (save : Save) : Except Error SavedFlow := do
  let threads ← save.threads.mapM (SavedThread.restore program)
  let some callStack := CallStack.ofThreads? (threads.map Prod.fst) save.threadCounter
    | throw (.saveFormat .noThreads)
  let choices ← save.choices.mapM (SavedChoice.restore program callStack save.choiceThreads)
  let globals ← Value.restoreAll save.globals
  let diverted ← restorePath program save.diverted
  return {
    callStack, globals, diverted
    choices := choices.map Prod.fst
    warnings := threads.flatMap Prod.snd ++ choices.flatMap Prod.snd }

namespace State

def takeFlow (state : State) (flow : SavedFlow) : State :=
  { state with
    callStack := flow.callStack
    choices := flow.choices
    globals := state.globals.load flow.globals }

/-- Take over the counts of a save and what is left of its flow. -/
def takeCounts (program : Program) (save : Save) (flow : SavedFlow) (state : State) : State :=
  let taken : State :=
    { state with
      diverted := flow.diverted
      visits := restoreCounts program save.visits
      turns := restoreCounts program save.turns
      turn := save.turn
      seed := save.seed
      previousDraw := save.previousDraw
      patch := none }
  flow.warnings.foldl (fun state warning => state.warn program warning) taken

end State

def Run.takeOver (program : Program) (save : Save) (flow : SavedFlow) : Run Unit := do
  modify fun state => state.takeFlow flow
  let evaluation ← ofExcept (save.evaluation.mapM Content.restore)
  modify fun state => { state with evaluation := evaluation.reverse }
  let output ← ofExcept (save.output.mapM Content.restore)
  modify fun state => { state with output := Output.ofList output }
  modify fun state => state.takeCounts program save flow

/-- Read a text as a save, and restore where the saved story stands. -/
def Save.open (program : Program) (text : String) : Except Error (Save × SavedFlow) := do
  let save ← Save.parse text
  return (save, ← save.restoreFlow program)

def Run.load (program : Program) (text : String) : Run Unit := do
  let (save, flow) ← ofExcept (Save.open program text)
  takeOver program save flow

end InkStory
