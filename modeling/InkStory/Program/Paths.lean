import InkStory.Program.Basic

/-! # Paths through the tree -/

namespace InkStory

/-- What a path leads to. If it could not be followed to its end, the last place on the way. -/
structure Found where
  place : Place
  approximate : Bool
  deriving DecidableEq, Repr, Inhabited

def Found.container? (found : Found) : Option Address := found.place.container?

/-- The container found, if the path led there exactly. -/
def Found.exactContainer? (found : Found) : Option Address :=
  if found.approximate then none else found.container?

/-- The pointer that a path stands for, and the place that it was approximated to, if it was. -/
structure Landing where
  pointer : Option Pointer
  approximatedTo : Option Place
  deriving DecidableEq, Repr, Inhabited

/-- How a container is called within its parent: by its name, if that leads anywhere; else by its
position; and else by its name after all. -/
def Container.component (parent : Container) (step : Step) : Component :=
  let name := (parent.child? step).bind Container.name
  match name, step with
  | some name, step =>
    if parent.hasName name then .name name
    else
      match step with
      | .item position => .index position
      | .named _ => .name name
  | none, .item position => .index position
  | none, .named key => .name key

namespace Program

def componentsOf (program : Program) : Address → List Component
  | [] => []
  | step :: outer => program.componentsOf outer ++ [(program.container outer).component step]

def containerPath (program : Program) (address : Address) : Path :=
  ⟨program.componentsOf address, false⟩

def pathOf (program : Program) : Place → Path
  | .container address => program.containerPath address
  | .content address position => (program.containerPath address).withIndex position

def pointerPath (program : Program) (pointer : Pointer) : Path :=
  match pointer.index with
  | some position => (program.containerPath pointer.container).withIndex position
  | none => program.containerPath pointer.container

/-- The place that a component leads to from a container. -/
def follow? (program : Program) (address : Address) : Component → Option Place
  | .index position => program.childPlace? address position
  | .parent => (Place.container address).parent?.map .container
  | .name name => (program.named? address name).map .container

/-- Follow components as far as they lead. An object is only reached by the last of them. -/
def followAll (program : Program) (place : Place) : List Component → Found
  | [] => ⟨place, false⟩
  | component :: rest =>
    match place.container?.bind fun address => program.follow? address component with
    | none => ⟨place, true⟩
    | some next =>
      if !rest.isEmpty && next.container?.isNone then ⟨place, true⟩
      else program.followAll next rest

def followPath (program : Program) (start : Address) (path : Path) : Found :=
  program.followAll (.container start) path.components

/-- What a path means where it is used. The first component of a relative path only leads from an
object up to its container. -/
def resolvePath (program : Program) (origin : Place) (path : Path) : Found :=
  if path.relative then
    match origin with
    | .container address => program.followPath address path
    | .content address _ => program.followPath address path.tail
  else program.followPath [] path

/-- The pointer that an absolute path stands for. A position at its end is not looked up. -/
def pointerAt (program : Program) (path : Path) : Except Fault Landing :=
  if path.isEmpty then .ok ⟨none, none⟩
  else
    let found := program.followAll (.container []) path.beforePosition
    if found.place = .container [] ∧ path.beforePosition ≠ [] then
      .error (.missingContent path.text)
    else
      .ok
        { pointer := found.container?.map fun address => ⟨address, path.position?⟩
          approximatedTo := if found.approximate then some found.place else none }

def divertPointer? (program : Program) (origin : Place) (target : Path) : Option Pointer :=
  let found := program.resolvePath origin target
  match target.last?, found.approximate with
  | some (.index position), false => found.place.parent?.map fun address => ⟨address, some position⟩
  | _, _ => found.container?.map Pointer.startOf

/-- The absolute path to what a path means where it is used. -/
def absolutePath (program : Program) (origin : Place) (path : Path) : Path :=
  if path.relative then program.pathOf (program.resolvePath origin path).place else path

/-- The length of the longest common beginning of two lists. -/
def sharedLength [DecidableEq α] : List α → List α → Nat
  | left :: lefts, right :: rights => if left = right then sharedLength lefts rights + 1 else 0
  | _, _ => 0

/-- The relative path from a place to an absolute one; an absolute path where nothing is shared. -/
def relativePath (program : Program) (origin : Place) (target : Path) : Path :=
  let own := (program.pathOf origin).components
  let shared := sharedLength own target.components
  if shared = 0 then target
  else
    { components :=
        List.replicate (own.length - shared) .parent ++ target.components.drop shared
      relative := true }

/-- The shorter of the relative and the absolute text of a path, by bytes; of equal ones the
absolute. -/
def compactText (program : Program) (origin : Place) (path : Path) : String :=
  let (relative, absolute) :=
    if path.relative then (path.text, ((program.pathOf origin).append path).text)
    else ((program.relativePath origin path).text, path.text)
  if relative.utf8ByteSize < absolute.utf8ByteSize then relative else absolute

end Program

end InkStory
