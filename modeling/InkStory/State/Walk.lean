import InkStory.Program.Walk
import InkStory.State.Basic

/-! # Moving through the tree -/

namespace InkStory

namespace State

/-- Count a visit to a container as the container asks for it. -/
def visit (program : Program) (state : State) (address : Address) (atStart : Bool) : State :=
  let counting := (program.container address).counting
  if counting.startOnly && !atStart then state
  else
    let counted := if counting.visits then state.countVisit address else state
    if counting.turns then counted.recordTurn address else counted

def visitAll (program : Program) (state : State) (visits : List (Address × Bool)) : State :=
  visits.foldl (fun state (address, atStart) => state.visit program address atStart) state

/-- Count visits to the containers that the last jump entered. -/
def visitEntered (program : Program) (state : State) : State :=
  match state.pointer with
  | some pointer =>
    state.visitAll program (program.enteredByJump state.callStack.current.previous pointer)
  | none => state

def descend (program : Program) (state : State) (pointer : Pointer) : State :=
  let (entered, last) := program.descend pointer
  (state.visitAll program (entered.map fun address => (address, true))).setPointer (some last)

/-- Move to the following object, out of containers that are done; `none` where there is none. -/
def increment (program : Program) (state : State) : State :=
  match state.pointer with
  | some pointer => state.setPointer (program.next? pointer)
  | none => state

/-- Return from a function that reached its end; it leaves a void where a value is awaited. -/
def returnFromFunction (state : State) : State :=
  let left : State :=
    { state with
      output := state.output.leaveFunction state.callStack
      callStack := state.callStack.drop }
  if left.evaluating then left.push .void else left

/-- Leave a function or a thread that reached its end. -/
def unwind? (state : State) : Option State :=
  if state.callStack.canPopKind .function then some state.returnFromFunction
  else if state.callStack.canPopThread then
    some { state with callStack := state.callStack.popThread }
  else none

/-- Move on to the next content: where a divert leads, to the following object, or out of functions
and threads that reached their end. Fewer than `limit` of them are left. -/
def moveOnWithin (program : Program) : Nat → State → State
  | 0, state => state
  | limit + 1, state =>
    let state := state.setPrevious state.pointer
    match state.diverted with
    | some pointer =>
      ({ state with diverted := none }.setPointer (some pointer)).visitEntered program
    | none =>
      let moved := state.increment program
      if moved.pointer.isSome then moved
      else
        match moved.unwind? with
        | some outer =>
          if outer.pointer.isSome then outer.moveOnWithin program limit else outer
        | none => if moved.callStack.inHostCall then moved.exitHostCall else moved

/-- Move on to the next content. There are more frames than functions and threads to leave. -/
def moveOn (program : Program) (state : State) : State :=
  state.moveOnWithin program state.callStack.frameCount

end State

end InkStory
