import InkStory.Story.Line

/-! # What the host does with a story -/

namespace InkStory

namespace Play

def choose (index : Nat) : Play Unit := do
  let story ← get
  let choices := story.state.visibleChoices
  let some choice := choices[index]? | throw (.choiceOutOfRange index choices.length)
  modifyState fun state => state.take choice
  onState (Run.choosePath story.program choice.target true)

/-- Leave all frames to go to a path, if `reset`; else the story must not stand in a function. -/
def leaveFor (path : String) (reset : Bool) : Play Unit := do
  let story ← get
  let stack := story.state.callStack
  if reset then modifyState State.forceEnd
  else if stack.frame.kind = .function then
    let function := stack.pointer.map fun pointer =>
      (story.program.containerPath pointer.container).text
    fault (.pathInsideFunction (function.getD "") path (stack.trace story.program))

/-- Go to a path with arguments. All frames are left first, if `reset`. -/
def goTo (path : String) (reset : Bool) (arguments : List Value) : Play Unit := do
  requireLineEnd "call choose_path_string right now"
  leaveFor path reset
  onState (Run.passArguments arguments)
  onState (Run.choosePath (← get).program (Path.parse path) true)

def enterCall (name : String) (arguments : List Value) : Play Unit := do
  requireLineEnd "evaluate a function"
  if Text.strip name = "" then throw (.invalidArgument .blankFunction)
  let some function := (← get).program.knot? name | throw (.functionNotFound name)
  modifyState fun state => { state with output := {} }
  onState (Run.enterFunction function arguments)

/-- Leave a function that the host called, with its value, and go back to an output. -/
def leaveCall (output : Output) : Play (Option Value) := do
  modifyState fun state => { state with output := Output.ofStream output.stream }
  onState (Run.leaveFunction (← get).program)

/-- Call a function of the story, which gives its value and its text. The output stays what it
was. -/
def callFunction (name : String) (arguments : List Value) : Play (Option Value × String) := do
  let output := (← get).state.output
  enterCall name arguments
  let text ← linesWithin stepLimit
  return (← leaveCall output, text)

def setGlobal (name : String) (value : Value) : Play Unit := do
  let state := (← get).state
  let (globals, patch) ← ofExcept (state.globals.setDeclared state.patch name value)
  modifyState fun state =>
    { state with globals := globals.forgetOthers, patch := patch }
  modify fun story => story.notify (globals.otherChanges patch)

/-- Observe a global, which gives the number of the observer. -/
def observe (name : String) : Play Nat := do
  requireLineEnd "observe a new variable"
  let story ← get
  if !story.state.globals.has name then throw (.undeclaredVariable name)
  let others := (story.observers.get? name).getD []
  set
    { story with
      observers := story.observers.insert name (others ++ [story.nextObserver])
      nextObserver := story.nextObserver + 1 }
  return story.nextObserver

/-- Remove an observer. The answer is whether it was there. -/
def removeObserver (observer : Nat) : Play Bool := do
  requireLineEnd "remove a variable observer"
  let story ← get
  let left := story.observers.map fun observers => observers.filter (· != observer)
  set { story with observers := left.filter fun _ observers => !observers.isEmpty }
  return story.observers.values.any fun observers => observers.contains observer

end Play

end InkStory
