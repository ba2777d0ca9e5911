/-! # Kinds of call frames -/

namespace InkStory

/-- What pushed a frame. The root frame of a thread counts as a tunnel. -/
inductive FrameKind where
  | tunnel
  | function
  /-- A function that the host evaluates. -/
  | hostCall
  deriving DecidableEq, Repr, Inhabited

namespace FrameKind

def number : FrameKind → Nat
  | tunnel => 0
  | function => 1
  | hostCall => 2

def ofNumber? : Int → Option FrameKind
  | 0 => some tunnel
  | 1 => some function
  | 2 => some hostCall
  | _ => none

def name : FrameKind → String
  | tunnel => "Tunnel"
  | function => "Function"
  | hostCall => "FunctionEvaluationFromGame"

def leavingStatement : FrameKind → String
  | tunnel => "tunnel onwards statement (->->)"
  | function => "function return statement (~ return)"
  | hostCall => "end of function evaluated from game"

end FrameKind

end InkStory
