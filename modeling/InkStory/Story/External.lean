import InkStory.State.Logic
import InkStory.Story.Basic

/-! # Calls of the host's functions -/

namespace InkStory

/-- The functions of the host that objects call. -/
def Container.externals (container : Container) : List String :=
  container.nodes.filterMap fun node =>
    match node with
    | .content (.divert ⟨.external function _, _, _⟩) => some function
    | _ => none

/-- The functions of the host that a program calls, in the order of the text. -/
def Program.externals (program : Program) : List String :=
  program.addresses.flatMap fun address => (program.container address).externals

namespace Story

def hasFunctionFor (story : Story) (function : String) : Bool :=
  story.bindings.contains function ||
    story.config.allowFallbacks && story.program.root.hasName function

/-- The functions that the story calls and that are not there, each once. -/
def missingFunctions (story : Story) : List String :=
  ItemSet.distinct <| story.program.externals.filter fun function =>
    !story.hasFunctionFor function

end Story

namespace Play

def checkBindings : Play Unit := do
  let story ← get
  let missing := story.missingFunctions
  if !missing.isEmpty then fault (.missingBindings missing story.config.allowFallbacks)
  set { story with bindingsChecked := true }

def bind (name : String) (function : HostFunction) (lookaheadSafe : Bool) : Play Unit := do
  requireLineEnd "bind an external function"
  if (← get).bindings.contains name then throw (.alreadyBound name)
  modify fun story =>
    { story with bindings := story.bindings.insert name { function, lookaheadSafe } }

/-- Make functions of the host known to the story, except those whose names are taken. -/
def bindAll (functions : List (String × HostFunction × Bool)) : Play Unit := do
  requireLineEnd "bind an external function"
  modify fun story =>
    { story with
      bindings :=
        functions.foldl (fun bindings (name, function, lookaheadSafe) =>
          if bindings.contains name then bindings
          else bindings.insert name { function, lookaheadSafe }) story.bindings }

def unbind (name : String) : Play Unit := do
  requireLineEnd "unbind an external a function"
  if !(← get).bindings.contains name then throw (.invalidArgument (.notBound name))
  modify fun story => { story with bindings := story.bindings.erase name }

/-- Divert to the function that the story has itself for one that the host has not bound. -/
def callFallback (name : String) : Play Unit := do
  let story ← get
  if !story.config.allowFallbacks then fault (.unboundWithoutFallbacks name)
  let some fallback := story.program.knot? name | fault (.unboundWithoutFallback name)
  onState (Run.pushFrame .function)
  modifyState fun state => { state with diverted := some (Pointer.startOf fallback) }

def passable (name : String) : Content → Except Fault Value
  | .value value => .ok value
  | other => .error (.strangeArgument name other.description)

def popArguments (name : String) (count : Nat) : Run (List Value) := do
  Run.ofFault ((← Run.popMany count).mapM (passable name))

def callBinding (name : String) (binding : Binding) (arguments : List Value) : Play Unit := do
  let call : HostCall := ⟨name, arguments⟩
  modify fun story =>
    { story with
      bindings := story.bindings.map (Binding.note call)
      journal := story.journal ++ [.called call] }
  match binding.answer arguments with
  | .ok (some value) => onState (Run.pushValue value)
  | .ok none => onState (Run.push .void)
  | .error reason => fault (.hostFailure reason)

/-- Call a function of the host with arguments from the evaluation stack. One that is not to be
called while the story looks ahead is put off. -/
def callHost (name : String) (count : Nat) : Play Unit := do
  let story ← get
  match story.bindings.get? name with
  | none => callFallback name
  | some binding =>
    if !binding.lookaheadSafe && story.snapshot.isSome then
      set { story with callDeferred := true }
    else callBinding name binding (← onState (popArguments name count))

end Play

end InkStory
