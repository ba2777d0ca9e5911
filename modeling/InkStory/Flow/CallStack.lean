import InkStory.Error.Basic
import InkStory.Program.Paths

/-! # Frames, threads and the call stack -/

namespace InkStory

/-- A frame: where it stands, and its temporary variables. -/
structure Frame where
  pointer : Option Pointer
  /-- Whether objects go to the evaluation stack rather than to the output. -/
  evaluating : Bool := false
  temporaries : Table String Value := {}
  kind : FrameKind
  /-- The height of the evaluation stack when the host entered the frame. -/
  stackHeight : Nat := 0
  /-- The length of the output at the call, while white space is still to be trimmed from there. -/
  outputStart : Option Nat := none
  deriving DecidableEq, Repr, Inhabited

/-- A thread: its frames, the top one and those below it, nearest first, with a number of its own
and the pointer behind which it evaluates. -/
structure Thread where
  top : Frame
  below : List Frame := []
  index : Nat := 0
  previous : Option Pointer := none
  deriving DecidableEq, Repr, Inhabited

/-- The call stack: the running thread, those that wait for it, latest first, and the number given
out last. -/
structure CallStack where
  current : Thread
  waiting : List Thread := []
  counter : Nat := 0
  deriving DecidableEq, Repr, Inhabited

namespace Thread

def atStart : Thread := { top := { pointer := some (Pointer.startOf []), kind := .tunnel } }

/-- The frames from the top down. -/
def frames (thread : Thread) : List Frame := thread.top :: thread.below

def depth (thread : Thread) : Nat := thread.below.length + 1

/-- The frame at a height above the bottom. -/
def frameAt? (thread : Thread) (height : Nat) : Option Frame := thread.frames.reverse[height]?

def modifyAt (thread : Thread) (height : Nat) (change : Frame → Frame) : Thread :=
  match (thread.frames.reverse.modify height change).reverse with
  | top :: below => { thread with top := top, below := below }
  | [] => thread

/-- The thread of frames from the bottom up, of which there is one at least. -/
def ofFrames? (frames : List Frame) (index : Nat) (previous : Option Pointer) : Option Thread :=
  match frames.reverse with
  | top :: below => some ⟨top, below, index, previous⟩
  | [] => none

end Thread

namespace CallStack

def atStart : CallStack := { current := Thread.atStart }

/-- Begin again with one thread; numbers go on from where they are. -/
def reset (stack : CallStack) : CallStack := { stack with current := Thread.atStart, waiting := [] }

/-- All threads, the running one last. -/
def threads (stack : CallStack) : List Thread := (stack.current :: stack.waiting).reverse

/-- The call stack of threads with the running one last, of which there is one at least. -/
def ofThreads? (threads : List Thread) (counter : Nat) : Option CallStack :=
  match threads.reverse with
  | current :: waiting => some ⟨current, waiting, counter⟩
  | [] => none

def frame (stack : CallStack) : Frame := stack.current.top

def modifyFrame (stack : CallStack) (change : Frame → Frame) : CallStack :=
  { stack with current := { stack.current with top := change stack.current.top } }

def pointer (stack : CallStack) : Option Pointer := stack.frame.pointer

def setPointer (stack : CallStack) (pointer : Option Pointer) : CallStack :=
  stack.modifyFrame fun frame => { frame with pointer := pointer }

def setPrevious (stack : CallStack) (pointer : Option Pointer) : CallStack :=
  { stack with current := { stack.current with previous := pointer } }

def canPop (stack : CallStack) : Bool := !stack.current.below.isEmpty

/-- Whether the running frame is of a kind and one lies below it. -/
def canPopKind (stack : CallStack) (kind : FrameKind) : Bool :=
  stack.canPop && stack.frame.kind == kind

def inHostCall (stack : CallStack) : Bool := stack.frame.kind == .hostCall

/-- Push a frame that stands where the running one does. -/
def push (stack : CallStack) (kind : FrameKind) (stackHeight outputLength : Nat) : CallStack :=
  { stack with
    current :=
      { stack.current with
        top :=
          { pointer := stack.pointer, kind := kind, stackHeight := stackHeight,
            outputStart := some outputLength }
        below := stack.current.top :: stack.current.below } }

/-- Drop the running frame, if one lies below it. -/
def drop (stack : CallStack) : CallStack :=
  match stack.current.below with
  | next :: below => { stack with current := { stack.current with top := next, below := below } }
  | [] => stack

/-- Drop the running frame, which must be of a kind, if one is given. -/
def pop (stack : CallStack) (kind : Option FrameKind) : Except Error CallStack :=
  if stack.canPop && kind.all (stack.frame.kind == ·) then .ok stack.drop
  else
    let expected := if stack.canPop then some stack.frame.kind else none
    .error (.mismatchedReturn expected (kind.getD stack.frame.kind))

/-- A copy of the running thread under a new number. -/
def fork (stack : CallStack) : Thread × CallStack :=
  ({ stack.current with index := stack.counter + 1 }, { stack with counter := stack.counter + 1 })

/-- Go on in a copy of the running thread. -/
def renumber (stack : CallStack) : CallStack :=
  let (thread, forked) := stack.fork
  { forked with current := thread }

/-- Run a copy of the running thread, which waits for it. -/
def pushThread (stack : CallStack) : CallStack :=
  let (thread, forked) := stack.fork
  { forked with current := thread, waiting := stack.current :: stack.waiting }

/-- Whether a thread waits for the running one and the host does not. -/
def canPopThread (stack : CallStack) : Bool := !stack.waiting.isEmpty && !stack.inHostCall

/-- Go back to the thread that waits for the running one. -/
def popThread (stack : CallStack) : CallStack :=
  match stack.waiting with
  | next :: waiting => { stack with current := next, waiting := waiting }
  | [] => stack

def runOnly (stack : CallStack) (thread : Thread) : CallStack :=
  { stack with current := thread, waiting := [] }

def thread? (stack : CallStack) (index : Nat) : Option Thread :=
  stack.threads.find? fun thread => thread.index == index

def frameCount (stack : CallStack) : Nat :=
  stack.threads.foldr (fun thread count => thread.depth + count) 0

/-- The height of the running frame above the bottom of its thread. -/
def height (stack : CallStack) : Nat := stack.current.below.length

def heightOf (stack : CallStack) : Context → Nat
  | .frame height => height
  | _ => stack.height

def temporary? (stack : CallStack) (name : String) (context : Context) : Option Value :=
  (stack.current.frameAt? (stack.heightOf context)).bind fun frame => frame.temporaries.get? name

/-- Give a temporary variable a value. Unless it is declared here, it must exist. -/
def setTemporary (stack : CallStack) (name : String) (value : Value) (declare : Bool)
    (context : Context) : Except Error CallStack := do
  let height := stack.heightOf context
  let some frame := stack.current.frameAt? height | throw (.runtime (.unknownFrame name))
  let old := frame.temporaries.get? name
  if old.isNone && !declare then throw (.runtime (.unknownTemporary name))
  return { stack with
    current := stack.current.modifyAt height fun frame =>
      { frame with temporaries := frame.temporaries.insert name (value.replacing old) } }

/-- Where a variable lives as seen from the running frame. -/
def contextOf (stack : CallStack) (name : String) : Context :=
  if stack.frame.temporaries.contains name then .frame stack.height else .global

def traceFrame (program : Program) (frame : Frame) : String :=
  (if frame.kind = .function then "  [FUNCTION] " else "  [TUNNEL] ") ++
    match frame.pointer with
    | some pointer => "<SOMEWHERE IN " ++ (program.containerPath pointer.container).text ++ ">\n"
    | none => "\n"

def traceThread (program : Program) (count : Nat) (thread : Thread) (position : Nat) : String :=
  "=== THREAD " ++ (position + 1).repr ++ "/" ++ count.repr ++ " " ++
    (if position + 1 = count then "(current) " else "") ++ "===\n" ++
    String.join (thread.frames.reverse.map (traceFrame program))

def trace (program : Program) (stack : CallStack) : String :=
  let threads := stack.threads
  String.join <| threads.zipIdx.map fun (thread, position) =>
    traceThread program threads.length thread position

end CallStack

end InkStory
