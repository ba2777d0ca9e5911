import InkStory.State.Run
import InkStory.Story.Host

/-! # A story and its play-through -/

namespace InkStory

/-- A compiled story with the state of a play-through and what its host set up. -/
structure Story where
  program : Program
  config : Config
  state : State
  /-- The state at the last newline, while the story looks ahead behind it. -/
  snapshot : Option State := none
  bindings : Table String Binding := {}
  /-- Every function that the story calls was found once. -/
  bindingsChecked : Bool := false
  observers : Table String (List Nat) := {}
  nextObserver : Nat := 0
  /-- A line is only partly evaluated. -/
  inLine : Bool := false
  /-- The host is saving a state that was handed over. -/
  isSaving : Bool := false
  /-- A call was put off until the story does not look ahead any more. -/
  callDeferred : Bool := false
  /-- What the host got to see, in order. -/
  journal : List Event := []

/-- An operation on a story. What it did before it fails stays done. -/
abbrev Play := EStateM Error Story

namespace Story

def canContinue (story : Story) : Bool := story.state.canContinue

def text (story : Story) : String := story.state.output.text

def tags (story : Story) : List String := story.state.output.tags

def modifyState (change : State → State) (story : Story) : Story :=
  { story with state := change story.state }

def notify (story : Story) (changes : List (String × Value)) : Story :=
  let events := changes.flatMap fun (name, value) =>
    ((story.observers.get? name).getD []).map fun observer => Event.changed observer name value
  { story with journal := story.journal ++ events }

end Story

namespace Play

def onState (run : Run α) : Play α := fun story =>
  match run story.state with
  | .ok value state => .ok value { story with state := state }
  | .error error state => .error error { story with state := state }

def modifyState (change : State → State) : Play Unit := modify (Story.modifyState change)

def fault (fault : Fault) : Play α := throw (.runtime fault)

def requireLineEnd (activity : String) : Play Unit := do
  if (← get).inLine then throw (.lineUnfinished activity)

end Play

end InkStory
