import InkStory.Program.Writer
import InkStory.Save.Record
import InkStory.State.Basic

/-! # Saving a state -/

namespace InkStory

def Save.currentVersion : Nat := 9

def Frame.save (program : Program) (frame : Frame) : SavedFrame where
  container := frame.pointer.map fun pointer => (program.containerPath pointer.container).text
  position :=
    match frame.pointer.bind Pointer.index with
    | some position => (Int64.ofNat position).toInt
    | none => -1
  evaluating := frame.evaluating
  kind := frame.kind.number
  temporaries := (frame.temporaries.map Value.write).entries

def Thread.save (program : Program) (thread : Thread) : SavedThread where
  frames := thread.frames.reverse.map (Frame.save program)
  index := thread.index
  previous :=
    (thread.previous.bind program.resolve?).map fun place => (program.pathOf place).text

def Choice.save (choice : Choice) : SavedChoice where
  text := choice.text
  index := choice.index
  source := choice.source
  thread := choice.thread.index
  target := choice.target.text
  tags := choice.tags
  isInvisible := choice.isInvisible

namespace State

/-- The threads of choices that are not among the threads of the call stack, by number. -/
def choiceThreads (program : Program) (state : State) : Table String SavedThread :=
  Table.ofList <| state.choices.filterMap fun choice =>
    if (state.callStack.thread? choice.thread.index).isSome then none
    else some (choice.thread.index.repr, choice.thread.save program)

/-- Counts by the path of the container, those of a patch in the order of the tree. -/
def countsByPath (program : Program) (counts : Table Address α) (patch : Option (Table Address α)) :
    Table String α :=
  let patched := program.addresses.filterMap fun address =>
    (patch.bind fun patch => patch.get? address).map fun count => (address, count)
  Table.ofList <| (counts.insertAll patched).entries.map fun (address, count) =>
    ((program.containerPath address).text, count)

def writeContents (program : Program) (contents : List Content) : List Json :=
  contents.map (Content.write program (.container []))

def save (program : Program) (saveDefaults : Bool) (state : State) : Save where
  threads := state.callStack.threads.map (Thread.save program)
  threadCounter := state.callStack.counter
  output := writeContents program state.output.toList
  choices := state.choices.map Choice.save
  choiceThreads := (state.choiceThreads program).entries
  globals :=
    (state.globals.toSave saveDefaults state.patch).map fun (name, value) => (name, value.write)
  evaluation := writeContents program state.evaluation.reverse
  diverted := state.diverted.map fun pointer => (program.pointerPath pointer).text
  visits := (countsByPath program state.visits (state.patch.map Patch.visits)).entries
  turns := (countsByPath program state.turns (state.patch.map Patch.turns)).entries
  turn := state.turn
  seed := state.seed
  previousDraw := state.previousDraw
  version := Save.currentVersion
  storyVersion := currentVersion

end State

end InkStory
