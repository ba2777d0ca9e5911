import InkStory.Table

/-! # Sets of list items -/

namespace InkStory

/-- An item, identified by its own name and the list that declares it, if known. -/
structure Item where
  origin : Option String
  name : String
  deriving DecidableEq, Repr, Inhabited

namespace Item

/-- Read `origin.name`. A question mark, or no dot, leaves the origin unknown. -/
def parse (text : String) : Item :=
  match text.toList.span (· != '.') with
  | (_, []) => ⟨none, text⟩
  | (origin, _ :: name) =>
    if origin = ['?'] then ⟨none, String.ofList name⟩
    else ⟨some (String.ofList origin), String.ofList name⟩

/-- The name behind its origin. -/
def fullName (item : Item) : String := item.origin.getD "?" ++ "." ++ item.name

/-- Unknown origins stand before known ones, and these in the order of their names. -/
def originLe (left right : Item) : Bool :=
  match left.origin, right.origin with
  | none, _ => true
  | some _, none => false
  | some left, some right => !(right < left)

end Item

/-- The value of a list variable: items with their numbers, and the lists that an empty value
still belongs to. -/
structure ItemSet where
  items : Table Item Int32 := {}
  remembered : List String := []
  deriving DecidableEq, Repr, Inhabited

namespace ItemSet

def single (item : Item) (number : Int32) : ItemSet := ⟨Table.single item number, []⟩

def ofOrigin (origin : String) : ItemSet := ⟨{}, [origin]⟩

def insert (set : ItemSet) (item : Item) (number : Int32) : ItemSet :=
  { set with items := set.items.insert item number }

def insertAll (set : ItemSet) (pairs : List (Item × Int32)) : ItemSet :=
  { set with items := set.items.insertAll pairs }

def ofList (pairs : List (Item × Int32)) : ItemSet := insertAll {} pairs

/-- The items with their numbers, in the order of insertion. -/
def toList (set : ItemSet) : List (Item × Int32) := set.items.entries

def size (set : ItemSet) : Nat := set.items.size

def isEmpty (set : ItemSet) : Bool := set.items.isEmpty

def member (set : ItemSet) (item : Item) : Bool := set.items.contains item

/-- Whether an item of that name, of whatever origin, is in the set. -/
def memberNamed (set : ItemSet) (name : String) : Bool :=
  set.items.keys.any fun item => item.name == name

/-- The names of a list without repetitions, each at its first place. -/
def distinct (names : List String) : List String :=
  names.foldl (fun kept name => if kept.contains name then kept else kept ++ [name]) []

/-- The lists of the items, or of an empty set those it remembers. -/
def origins (set : ItemSet) : List String :=
  if set.isEmpty then set.remembered
  else distinct (set.items.keys.filterMap Item.origin)

/-- Two sets are the same if they hold the same items with the same numbers. -/
def same (left right : ItemSet) : Bool :=
  left.size == right.size &&
    left.toList.all fun (item, number) => right.items.get? item == some number

/-- Whether one item stands before another, or level with it: first by number, then by origin. -/
def entryLe (left right : Item × Int32) : Bool :=
  left.2 < right.2 || (left.2 == right.2 && left.1.originLe right.1)

/-- The items by number and origin; those that agree in both stay in the order of insertion. -/
def ordered (set : ItemSet) : List (Item × Int32) := set.toList.mergeSort entryLe

def least? (set : ItemSet) : Option (Item × Int32) := set.ordered.head?

def greatest? (set : ItemSet) : Option (Item × Int32) := set.ordered.getLast?

def minimum? (set : ItemSet) : Option Int32 := set.least?.map Prod.snd

def maximum? (set : ItemSet) : Option Int32 := set.greatest?.map Prod.snd

def text (set : ItemSet) : String :=
  String.intercalate ", " (set.ordered.map fun (item, _) => item.name)

def emptied (set : ItemSet) : ItemSet := ⟨{}, set.origins⟩

def union (left right : ItemSet) : ItemSet := left.insertAll right.toList

def inter (left right : ItemSet) : ItemSet :=
  ⟨left.items.filter fun item _ => right.member item, []⟩

def without (left right : ItemSet) : ItemSet :=
  ⟨left.items.filter fun item _ => !right.member item, left.origins⟩

def includes (left right : ItemSet) : Bool := right.items.keys.all left.member

/-- Whether every number here is greater than every number there. -/
def gt (left right : ItemSet) : Bool :=
  match left.minimum?, right.maximum? with
  | none, _ => false
  | some _, none => true
  | some least, some greatest => greatest < least

/-- Whether least and greatest number here are at least those there. -/
def ge (left right : ItemSet) : Bool :=
  match left.minimum?, left.maximum?, right.minimum?, right.maximum? with
  | some least, some greatest, some otherLeast, some otherGreatest =>
    otherLeast ≤ least && otherGreatest ≤ greatest
  | some _, some _, _, _ => true
  | _, _, _, _ => false

def lt (left right : ItemSet) : Bool :=
  match left.maximum?, right.minimum? with
  | _, none => false
  | none, some _ => true
  | some greatest, some least => greatest < least

def le (left right : ItemSet) : Bool :=
  match right.minimum?, right.maximum?, left.minimum?, left.maximum? with
  | some otherLeast, some otherGreatest, some least, some greatest =>
    greatest ≤ otherGreatest && least ≤ otherLeast
  | some _, some _, _, _ => true
  | _, _, _, _ => false

/-- The set of one found item, or else the empty set of the same lists. -/
def singleOr (set : ItemSet) : Option (Item × Int32) → ItemSet
  | some (item, number) => single item number
  | none => set.emptied

def least (set : ItemSet) : ItemSet := set.singleOr set.least?

def greatest (set : ItemSet) : ItemSet := set.singleOr set.greatest?

/-- The items with numbers between two bounds, in order. -/
def between (set : ItemSet) (low high : Int32) : ItemSet :=
  if set.isEmpty then {}
  else
    set.emptied.insertAll (set.ordered.filter fun (_, number) => low ≤ number && number ≤ high)

/-- An empty set takes over the lists of the set that it replaces. -/
def replacing (set old : ItemSet) : ItemSet :=
  if set.isEmpty then { set with remembered := old.origins } else set

end ItemSet

end InkStory
