import InkStory.Save.Reader
import InkStory.Save.Writer
import InkStory.Story.Basic

/-! # Saving and loading a story -/

namespace InkStory

def Story.saveOf (story : Story) (state : State) : Save :=
  state.save story.program story.config.saveDefaults

def Story.save (story : Story) : Save := story.saveOf story.state

namespace Play

def load (text : String) : Play Unit := do
  requireLineEnd "load a saved state"
  let program := (← get).program
  onState (Run.load program text)
  modify fun story => { story with snapshot := none }

/-- Hand the state over to be saved, and go on with a copy. -/
def startBackgroundSave : Play State := do
  requireLineEnd "start saving on a background thread"
  let story ← get
  if story.isSaving then throw .backgroundSaveActive
  set { story with state := story.state.startPatch, isSaving := true }
  return story.state

def endBackgroundSave : Play Unit :=
  modify fun story =>
    let state := if story.snapshot.isNone then story.state.applyPatch else story.state
    { story with state := state, isSaving := false }

end Play

end InkStory
