import InkStory.Value.Native

/-! # Functions of the host -/

namespace InkStory

structure HostCall where
  function : String
  arguments : List Value
  deriving DecidableEq, Repr

/-- A function of the host: what it answers to arguments behind the calls, of any function, that
were made since it was bound, latest first. It may fail with a reason, or have nothing to
answer. -/
abbrev HostFunction := List HostCall → List Value → Except String (Option Value)

structure Binding where
  function : HostFunction
  /-- It may be called while the story looks ahead behind the end of a line. -/
  lookaheadSafe : Bool
  /-- The calls of the host since it was bound, latest first. -/
  history : List HostCall := []

namespace Binding

def answer (binding : Binding) (arguments : List Value) : Except String (Option Value) :=
  binding.function binding.history arguments

def note (call : HostCall) (binding : Binding) : Binding :=
  { binding with history := call :: binding.history }

end Binding

namespace HostFunction

/-- Take the next argument, which must be of a type. -/
def argument (name : String) (convert : Value → Except Error α) :
    List Value → Except String (α × List Value)
  | [] => .error ("Too few arguments passed to EXTERNAL function " ++ name)
  | value :: rest =>
    match convert value with
    | .ok converted => .ok (converted, rest)
    | .error error =>
      .error ("Invalid argument passed to EXTERNAL function " ++ name ++ ": " ++ error.message)

def noMore (name : String) : List Value → Except String Unit
  | [] => .ok ()
  | rest =>
    .error ("Extra arguments passed to EXTERNAL function " ++ name ++ ": " ++
      rest.length.repr ++ " extra")

/-- The function of a name that takes nothing. -/
def ofConstant (name : String) (result : Value) : HostFunction := fun _ arguments => do
  noMore name arguments
  return some result

def ofUnary (name : String) (convert : Value → Except Error α) (result : α → Value) :
    HostFunction := fun _ arguments => do
  let (first, rest) ← argument name convert arguments
  noMore name rest
  return some (result first)

def ofBinary (name : String) (convertFirst : Value → Except Error α)
    (convertSecond : Value → Except Error β) (result : α → β → Value) : HostFunction :=
  fun _ arguments => do
    let (first, rest) ← argument name convertFirst arguments
    let (second, rest) ← argument name convertSecond rest
    noMore name rest
    return some (result first second)

end HostFunction

/-- What the host gets to see besides the results of its operations. -/
inductive Event where
  | called (call : HostCall)
  | changed (observer : Nat) (name : String) (value : Value)
  deriving DecidableEq, Repr

end InkStory
