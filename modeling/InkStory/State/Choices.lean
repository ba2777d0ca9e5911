import InkStory.State.Run

/-! # Choices at work -/

namespace InkStory

namespace State

/-- Offer a choice, whose thread has the next number. -/
def offer (state : State) (choice : Choice) : State :=
  { state with callStack := state.callStack.fork.2, choices := state.choices ++ [choice] }

/-- Go on in the thread of a choice and drop all choices. -/
def take (state : State) (choice : Choice) : State :=
  { state with callStack := state.callStack.runOnly choice.thread, choices := [] }

end State

namespace Run

/-- The tags on top of a stack, topmost first. -/
def leadingTags : List Content → List String
  | .tag text :: rest => text :: leadingTags rest
  | _ => []

def popChoiceText : Run (String × List String) := do
  match ← popValue with
  | .string text =>
    let stack := (← get).evaluation
    let tags := leadingTags stack
    modify fun state => { state with evaluation := stack.drop tags.length }
    return (text, tags.reverse)
  | other => fault (.strangeChoiceText other.text)

def popChoiceTextIf (present : Bool) : Run (String × List String) :=
  if present then popChoiceText else pure ("", [])

def popConditionIf (present : Bool) : Run Bool := if present then popCondition else pure true

/-- Whether a choice point was chosen before and may not be again. -/
def isUsedUp (program : Program) (origin : Place) (point : ChoicePoint) : Run Bool := do
  if !point.isOnceOnly then return false
  match (program.resolvePath origin point.target).container? with
  | some address => return 0 < (← ofFault ((← get).readVisits program address))
  | none => return false

/-- The choice of a choice point, if it is to be offered. Its condition and text are taken off the
evaluation stack in any case. -/
def generateChoice (program : Program) (origin : Place) (point : ChoicePoint) :
    Run (Option Choice) := do
  let holds ← popConditionIf point.hasCondition
  let (choiceText, choiceTags) ← popChoiceTextIf point.hasChoiceOnlyContent
  let (startText, startTags) ← popChoiceTextIf point.hasStartContent
  let usedUp ← isUsedUp program origin point
  if !holds || usedUp then return none
  let state ← get
  let text := Text.stripChars Text.isInlineBlank (startText ++ choiceText).toList
  return some
    { text := String.ofList text
      source := (program.pathOf origin).text
      target := program.absolutePath origin point.target
      isInvisible := point.isInvisibleDefault
      tags := startTags ++ choiceTags
      index := (state.choices.filter fun choice => !choice.isInvisible).length
      thread := state.callStack.fork.1 }

def offerChoice (program : Program) (origin : Place) (point : ChoicePoint) : Run Unit := do
  if let some choice ← generateChoice program origin point then
    modify fun state => state.offer choice

end Run

end InkStory
