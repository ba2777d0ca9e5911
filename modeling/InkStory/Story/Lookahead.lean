import InkStory.Story.Basic

/-! # Looking ahead behind the end of a line -/

namespace InkStory

/-- What became of a line since its newline. -/
inductive LineChange where
  | unchanged
  | extended
  | newlineRemoved
  deriving DecidableEq, Repr

/-- Compare the bytes of a text and the number of its tags with those at the newline. Blanks behind
the newline do not count. -/
def LineChange.between (before after : List UInt8) (tagsBefore tagsAfter : Nat) : LineChange :=
  let newlineThere := !before.isEmpty && after[before.length - 1]? == some 10
  if !newlineThere then .newlineRemoved
  else if tagsBefore = tagsAfter ∧ before.length = after.length then .unchanged
  else if tagsBefore < tagsAfter then .extended
  else if (after.drop before.length).any fun byte => byte != 32 && byte != 9 then .extended
  else .unchanged

namespace Story

/-- Work out the text and tags of the state and of the snapshot, once for every change of them. -/
def workOutText (story : Story) : Story :=
  { story with
    state := { story.state with output := story.state.output.known }
    snapshot := story.snapshot.map fun snapshot =>
      { snapshot with output := snapshot.output.known } }

def changeSince (story : Story) (snapshot : State) : LineChange :=
  LineChange.between snapshot.output.text.toUTF8.toList story.text.toUTF8.toList
    snapshot.output.tags.length story.tags.length

/-- Keep the state at a newline and go on with a copy. -/
def takeSnapshot (story : Story) : Story :=
  { story with snapshot := some story.state, state := story.state.startPatch }

/-- Make the writes of the patch, unless the host is saving what lies below it. -/
def settle (story : Story) : Story :=
  if story.isSaving then story else { story with state := story.state.applyPatch }

/-- Go back to the state at the newline. Errors and warnings stay. -/
def rewind (story : Story) : Story :=
  match story.snapshot with
  | none => story
  | some snapshot =>
    settle
      { story with
        snapshot := none
        state :=
          { snapshot with errors := story.state.errors, warnings := story.state.warnings } }

/-- Stay with what was evaluated behind the newline. -/
def keepLookahead (story : Story) : Story := { story.settle with snapshot := none }

end Story

end InkStory
