import InkStory.Text.Digits

/-! # Paths into the tree of a story -/

namespace InkStory

/-- One step of a path: to the item at a position, to the container with a name, or upward. -/
inductive Component where
  | index (position : Nat)
  | name (key : String)
  | parent
  deriving DecidableEq, Repr, Inhabited

namespace Component

/-- Positions are numbers of 64 bits. -/
def positionLimit : Nat := UInt64.size

/-- Read a component. A numeral is a position, unless it is too large to be one. -/
def parse (text : String) : Component :=
  if text = "^" then .parent
  else
    match Text.natural? text.toList with
    | some position => if position < positionLimit then .index position else .name text
    | none => .name text

def text : Component → String
  | .index position => String.ofList (Text.ofNat position)
  | .name key => key
  | .parent => "^"

def isIndex : Component → Bool
  | .index _ => true
  | _ => false

def isParent : Component → Bool
  | .parent => true
  | _ => false

end Component

/-- A path. It starts at the root of the story, or, if relative, where it is used. -/
structure Path where
  components : List Component := []
  relative : Bool := false
  deriving DecidableEq, Repr, Inhabited

namespace Path

/-- The relative path to the place where it is used. -/
def toSelf : Path := ⟨[], true⟩

def length (path : Path) : Nat := path.components.length

def isEmpty (path : Path) : Bool := path.components.isEmpty

def head? (path : Path) : Option Component := path.components.head?

def last? (path : Path) : Option Component := path.components.getLast?

def position? (path : Path) : Option Nat :=
  match path.last? with
  | some (.index position) => some position
  | _ => none

/-- The components before the position at the end, if there is one. -/
def beforePosition (path : Path) : List Component :=
  if path.position?.isSome then path.components.dropLast else path.components

/-- The path behind its first component, which is absolute, unless nothing is left. -/
def tail (path : Path) : Path :=
  match path.components with
  | _ :: next :: rest => ⟨next :: rest, false⟩
  | _ => toSelf

def join (path : Path) (component : Component) : Path :=
  { path with components := path.components ++ [component] }

def withIndex (path : Path) (position : Nat) : Path := path.join (.index position)

/-- Append another path, whose leading upward steps take components away first. -/
def append (path other : Path) : Path :=
  let upward := (other.components.takeWhile Component.isParent).length
  { path with
    components :=
      path.components.take (path.length - upward) ++ other.components.drop upward }

def text (path : Path) : String :=
  let joined := String.intercalate "." (path.components.map Component.text)
  if path.relative then "." ++ joined else joined

def pieces (text : List Char) : List (List Char) := text.splitOnP (· == '.')

/-- Read a path. A leading dot makes it relative, and empty pieces are dropped. -/
def parse (text : String) : Path :=
  let (relative, body) :=
    match text.toList with
    | '.' :: body => (true, body)
    | body => (false, body)
  { components :=
      ((pieces body).filter fun piece => !piece.isEmpty).map fun piece =>
        Component.parse (String.ofList piece)
    relative := relative }

end Path

end InkStory
