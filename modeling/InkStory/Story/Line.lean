import InkStory.Story.External
import InkStory.Story.Lookahead

/-! # Evaluating a line -/

namespace InkStory

namespace Play

def evaluate (place : Place) (content : Content) : Play Unit := do
  let program := (← get).program
  if let some request ← onState (Run.performContent program place content) then
    callHost request.function request.arguments
  onState (Run.finishContent program place content)

def step : Play Unit := do
  let program := (← get).program
  let some start := (← get).state.pointer | return
  modifyState fun state => state.descend program start
  let some pointer := (← get).state.pointer | return
  match program.objectAt? pointer with
  | some (place, content) => evaluate place content
  | none => modifyState fun state => state.moveOn program

/-- Take the first choice, if there are invisible ones only. A thread that the snapshot still holds
is copied. -/
def followInvisibleChoice : Play Unit := do
  let story ← get
  match story.state.choices with
  | [] => return
  | choice :: _ =>
    if story.state.choices.all Choice.isInvisible then
      modifyState fun state =>
        let taken := state.take choice
        if story.snapshot.isSome then { taken with callStack := taken.callStack.renumber }
        else taken
      onState (Run.choosePath story.program choice.target false)

/-- Compare the line with the one at the snapshot, if there is one: go back to the newline if there
is more text behind it, and forget the snapshot if the newline is gone. The answer is whether the
story went back. -/
def compareWithSnapshot : Play Bool := do
  modify Story.workOutText
  let story ← get
  match story.snapshot with
  | none => return false
  | some snapshot =>
    let change := story.changeSince snapshot
    if change = .extended ∨ story.callDeferred = true then
      set story.rewind
      return true
    if change = .newlineRemoved then set story.keepLookahead
    return false

/-- At a newline, begin to look ahead if there is more content, and else stop to. -/
def markNewline : Play Unit :=
  modify fun story =>
    if !story.state.output.endsInNewline then story
    else if !story.canContinue then story.keepLookahead
    else if story.snapshot.isNone then story.takeSnapshot
    else story

/-- Take the first choice where the story stops, if there are invisible ones only. -/
def leaveDeadEnd : Play Unit := do
  let state := (← get).state
  if !state.canContinue && !state.callStack.inHostCall then followInvisibleChoice

/-- See what a step made of the line. The answer is whether the story went back to its end. -/
def checkLine : Play Bool := do
  let story ← get
  if story.state.output.inString then return false
  if story.snapshot.isSome then
    if ← compareWithSnapshot then return true
  markNewline
  return false

/-- Take one step. The answer is whether the story went back to the end of a line. -/
def singleStep : Play Bool := do
  step
  leaveDeadEnd
  checkLine

/-- Turn a failure into an error of the story, which ends it. -/
def reportFailure (play : Play Bool) : Play Bool := fun story =>
  match play story with
  | .ok value story => .ok value story
  | .error error story =>
    .ok false (story.modifyState fun state => state.fail story.program error)

/-- Take a step and `more` others at most. The answer is whether the line is complete. -/
def runSteps : Nat → Play Bool
  | 0 => do
    let wentBack ← reportFailure singleStep
    return wentBack || !(← get).canContinue
  | more + 1 => do
    let wentBack ← reportFailure singleStep
    if wentBack || !(← get).canContinue then return true
    runSteps more

/-- Begin a line, unless one is only partly evaluated. `partly` says whether it may be again. -/
def beginLine (partly : Bool) : Play Unit := do
  let story ← get
  if story.inLine then set { story with inLine := partly }
  else
    if !story.canContinue then throw .cannotContinue
    set
      { story with
        inLine := partly
        state :=
          { story.state with
            exitedSafely := false
            output := {}
            globals := story.state.globals.beginLine } }

end Play

namespace Story

def endFault (state : State) : Fault :=
  if state.callStack.canPopKind .tunnel then .tunnelLeft
  else if state.callStack.canPopKind .function then .functionLeft
  else if !state.callStack.canPop then .outOfContent
  else .frameLeft

/-- Check that a story that cannot go on may stop where it does. -/
def checkEnd (program : Program) (state : State) : State :=
  if state.canContinue then state
  else
    let flat :=
      if state.callStack.canPopThread then state.fail program (.runtime .threadLeft) else state
    if flat.choices.isEmpty && !flat.exitedSafely then
      flat.fail program (.runtime (endFault flat))
    else flat

/-- Complete a line: go back to its end, and tell observers what changed. -/
def endLine (story : Story) : Story :=
  let story := story.rewind
  let state := checkEnd story.program story.state
  let changes := state.globals.lineChanges state.patch
  let ended : Story :=
    { story with
      inLine := false
      callDeferred := false
      state := { state with exitedSafely := false, globals := state.globals.endLine } }
  ended.notify changes

end Story

namespace Play

/-- More steps than any line should take. -/
def stepLimit : Nat := Nat.pow 2 62

def wholeLine : Play Unit := do
  beginLine false
  if ← runSteps stepLimit then modify Story.endLine else throw .endless

/-- Evaluate a line for one step and `more` others at most; it may be left unfinished. -/
def partOfLine (more : Nat) : Play Unit := do
  beginLine true
  if ← runSteps more then modify Story.endLine

def requireBindings : Play Unit := do
  if !(← get).bindingsChecked then checkBindings

def nextLine : Play String := do
  requireBindings
  wholeLine
  return (← get).text

/-- Evaluate the next line for a number of steps and one more at most. -/
def nextSteps (more : Nat) : Play Unit := do
  requireBindings
  partOfLine more

/-- Evaluate lines, fewer than `limit`, until there is no more content, and give their text. -/
def linesWithin : Nat → Play String
  | 0 => throw .endless
  | limit + 1 => do
    if !(← get).canContinue then return ""
    let line ← nextLine
    return line ++ (← linesWithin limit)

def allLines : Play String := do
  requireLineEnd "continue_maximally"
  linesWithin stepLimit

end Play

end InkStory
