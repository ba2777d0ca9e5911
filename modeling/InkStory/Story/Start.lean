import InkStory.Program.Reader
import InkStory.Story.Line

/-! # Beginning a story -/

namespace InkStory

def declarationName : String := "global decl"

namespace Play

/-- Run the declarations of the globals, and remember the values that they set. -/
def declareGlobals : Play Unit := do
  let story ← get
  if story.program.root.hasName declarationName then
    onState (Run.choosePath story.program (Path.parse declarationName) false)
    wholeLine
    modifyState fun state => state.setPointer story.state.pointer
  modifyState fun state => { state with globals := state.globals.declare }

def reset : Play Unit := do
  requireLineEnd "reset state"
  modify fun story => { story with state := State.atStart story.config, snapshot := none }
  declareGlobals

def resetCallStack : Play Unit := do
  requireLineEnd "reset the callstack"
  modifyState State.forceEnd

def forgetReports : Play Unit := modifyState State.forgetReports

end Play

def Story.start (program : Program) (config : Config) : Except Error Story :=
  match Play.declareGlobals { program, config, state := State.atStart config } with
  | .ok _ story => .ok story
  | .error error _ => .error error

/-- Read a compiled story and begin it. -/
def Story.read (text : String) (config : Config) : Except Error Story := do
  Story.start (← Program.read text) config

end InkStory
