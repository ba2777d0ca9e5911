import InkStory.Content.Basic

/-! # The tree of a story -/

namespace InkStory

/-- What is remembered about visits to a container. -/
structure Counting where
  visits : Bool := false
  turns : Bool := false
  /-- Only an entry at the start of the container counts. -/
  startOnly : Bool := false
  deriving DecidableEq, Repr, Inhabited

namespace Counting

/-- What the bits of a number ask for. -/
def ofFlags (flags : Nat) : Counting where
  visits := flags.testBit 0
  turns := flags.testBit 1
  startOnly := flags.testBit 2

/-- The number whose bits ask for this. How to count is left out where nothing is counted. -/
def flags (counting : Counting) : Nat :=
  let counted := counting.visits.toNat + 2 * counting.turns.toNat
  if counting.startOnly && counted != 0 then counted + 4 else counted

end Counting

/-- An item of a container: an object, or a container within it. -/
inductive Node (Inner : Type) where
  | content (content : Content)
  | container (inner : Inner)
  deriving Repr

/-- A container: its name, what is counted about it, its items in order, and containers that are
only reached by the name they are listed under. -/
inductive Container where
  | mk (name : Option String) (counting : Counting) (nodes : List (Node Container))
      (named : List (String × Container))
  deriving Repr

namespace Container

def name : Container → Option String
  | mk name _ _ _ => name

def counting : Container → Counting
  | mk _ counting _ _ => counting

def nodes : Container → List (Node Container)
  | mk _ _ nodes _ => nodes

def named : Container → List (String × Container)
  | mk _ _ _ named => named

instance : Inhabited Container := ⟨mk none {} [] []⟩

def withName (name : String) : Container → Container
  | mk (some own) counting nodes named => mk (some own) counting nodes named
  | mk none counting nodes named => mk (some name) counting nodes named

def size (container : Container) : Nat := container.nodes.length

def isEmpty (container : Container) : Bool := container.nodes.isEmpty

end Container

/-- One step down the tree: to the container at a position, or to one reached by name only. -/
inductive Step where
  | item (position : Nat)
  | named (key : String)
  deriving DecidableEq, Repr, Inhabited

/-- The steps from the root to a container, innermost first: the tail leads to its parent. -/
abbrev Address := List Step

namespace Container

def child? (container : Container) : Step → Option Container
  | .item position =>
    match container.nodes[position]? with
    | some (.container inner) => some inner
    | _ => none
  | .named key => container.named.lookup key

def find? (container : Container) : Address → Option Container
  | [] => some container
  | step :: outer => (container.find? outer).bind fun parent => parent.child? step

def itemNames : Nat → List (Node Container) → List (String × Step)
  | _, [] => []
  | position, .content _ :: rest => itemNames (position + 1) rest
  | position, .container inner :: rest =>
    match inner.name with
    | some name => (name, .item position) :: itemNames (position + 1) rest
    | none => itemNames (position + 1) rest

/-- Where a name leads. One that is reached by name only comes before all items, and of items with
one name the last counts. -/
def stepTo? (container : Container) (name : String) : Option Step :=
  if (container.named.lookup name).isSome then some (.named name)
  else (itemNames 0 container.nodes).reverse.lookup name

def hasName (container : Container) (name : String) : Bool := (container.stepTo? name).isSome

/-- Where each name leads, in the order in which the names first stand in the text. -/
def names (container : Container) : Table String Step :=
  Table.ofList <|
    itemNames 0 container.nodes ++ container.named.map fun (key, _) => (key, .named key)

mutual

/-- The addresses of a container at `address` and of all containers below it, in the order of the
text: items first, then those reached by name only. -/
def addressesFrom (address : Address) : Container → List Address
  | mk _ _ nodes named =>
    address :: nodeAddressesFrom address 0 nodes ++ namedAddressesFrom address named

def nodeAddressesFrom (address : Address) (position : Nat) :
    List (Node Container) → List Address
  | [] => []
  | .content _ :: rest => nodeAddressesFrom address (position + 1) rest
  | .container inner :: rest =>
    addressesFrom (.item position :: address) inner ++
      nodeAddressesFrom address (position + 1) rest

def namedAddressesFrom (address : Address) : List (String × Container) → List Address
  | [] => []
  | (key, inner) :: rest =>
    addressesFrom (.named key :: address) inner ++ namedAddressesFrom address rest

end

end Container

/-- A compiled story: its tree and its declared lists. -/
structure Program where
  root : Container := default
  lists : ListDefinitions := {}
  deriving Repr, Inhabited

/-- Something in the tree: a container, or the object at a position of a container. -/
inductive Place where
  | container (address : Address)
  | content (address : Address) (position : Nat)
  deriving DecidableEq, Repr, Inhabited

/-- A position in a container, or, without a position, the container itself. -/
structure Pointer where
  container : Address
  index : Option Nat
  deriving DecidableEq, Repr, Inhabited

def Pointer.startOf (address : Address) : Pointer := ⟨address, some 0⟩

namespace Place

def container? : Place → Option Address
  | container address => some address
  | content _ _ => none

def parent? : Place → Option Address
  | container [] => none
  | container (_ :: outer) => some outer
  | content address _ => some address

end Place

namespace Program

/-- The container at an address; where there is none, an empty one. -/
def container (program : Program) (address : Address) : Container :=
  (program.root.find? address).getD default

def addresses (program : Program) : List Address := program.root.addressesFrom []

def childPlace? (program : Program) (address : Address) (position : Nat) : Option Place :=
  match (program.container address).nodes[position]? with
  | some (.container _) => some (.container (.item position :: address))
  | some (.content _) => some (.content address position)
  | none => none

def content? (program : Program) (address : Address) (position : Nat) : Option Content :=
  match (program.container address).nodes[position]? with
  | some (.content content) => some content
  | _ => none

def named? (program : Program) (address : Address) (name : String) : Option Address :=
  ((program.container address).stepTo? name).map (· :: address)

def knot? (program : Program) (name : String) : Option Address := program.named? [] name

/-- What a pointer points at. A pointer into an empty container points at the container. -/
def resolve? (program : Program) (pointer : Pointer) : Option Place :=
  match pointer.index with
  | none => some (.container pointer.container)
  | some position =>
    if (program.container pointer.container).isEmpty then some (.container pointer.container)
    else program.childPlace? pointer.container position

def objectAt? (program : Program) (pointer : Pointer) : Option (Place × Content) :=
  match program.resolve? pointer with
  | some (.content address position) =>
    (program.content? address position).map fun content => (.content address position, content)
  | _ => none

end Program

end InkStory
