import InkStory.Program.Basic

/-! # Ways through the tree -/

namespace InkStory

namespace Container

mutual

/-- Go down from a container, which `pointer` points at, to the first object or empty container:
the containers entered on the way, outermost first, and the pointer to where it ends. -/
def descend (pointer : Pointer) (address : Address) : Container → List Address × Pointer
  | mk _ _ nodes _ =>
    match nodes with
    | [] => ([address], pointer)
    | node :: _ =>
      let (entered, last) := descendNode address node
      (address :: entered, last)

/-- Go down from the first item of the container at an address. -/
def descendNode (address : Address) : Node Container → List Address × Pointer
  | .content _ => ([], Pointer.startOf address)
  | .container inner => descend (Pointer.startOf address) (.item 0 :: address) inner

end

end Container

/-- The addresses of a container and of those around it, innermost first. -/
def Address.enclosing : Address → List Address
  | [] => [[]]
  | step :: outer => (step :: outer) :: enclosing outer

namespace Program

/-- Go down from a pointer to an object or an empty container: the containers entered on the way,
outermost first, and the pointer to where it ends. -/
def descend (program : Program) (pointer : Pointer) : List Address × Pointer :=
  match program.resolve? pointer with
  | some (.container address) => (program.container address).descend pointer address
  | _ => ([], pointer)

/-- The pointer to the item that follows, in a container or in one around it, the position behind
the last item of a container. -/
def following? (program : Program) (address : Address) (position : Nat) : Option Pointer :=
  if position < (program.container address).size then some ⟨address, some position⟩
  else
    match address with
    | .item outerPosition :: outer => program.following? outer (outerPosition + 1)
    | _ => none

def next? (program : Program) (pointer : Pointer) : Option Pointer :=
  program.following? pointer.container
    (match pointer.index with
    | some position => position + 1
    | none => 0)

/-- The containers around a place, innermost first, up to one that was not left, each with whether
it is entered at its start. A container that is only counted at its start is passed even if it was
not left. -/
def enteredFrom (program : Program) (kept : List Address) (child : Place) (atStart : Bool)
    (address : Address) : List (Address × Bool) :=
  let container := program.container address
  if kept.contains address && !container.counting.startOnly then []
  else
    let entersStart := atStart && program.childPlace? address 0 == some child
    (address, entersStart) ::
      match address with
      | [] => []
      | _ :: outer => program.enteredFrom kept (.container address) entersStart outer

/-- The containers around a place, those that it lies in and itself, innermost first. -/
def around (program : Program) (pointer : Pointer) : List Address :=
  let address := ((program.resolve? pointer).bind Place.container?).getD pointer.container
  Address.enclosing address

/-- The containers that a jump from one pointer to another enters, innermost first, each with
whether it is entered at its start. -/
def enteredByJump (program : Program) (previous : Option Pointer) (pointer : Pointer) :
    List (Address × Bool) :=
  let kept := (previous.map program.around).getD []
  match pointer.index, program.resolve? pointer with
  | some _, some place =>
    match place.parent? with
    | some parent => program.enteredFrom kept place true parent
    | none => []
  | _, _ => []

end Program

end InkStory
