import InkStory.Items.Basic

/-! # Declared lists -/

namespace InkStory

/-- A declared list: its name, and the names of its items with their numbers. -/
structure ListDefinition where
  name : String
  numbers : Table String Int32
  deriving DecidableEq, Repr

namespace ListDefinition

def items (definition : ListDefinition) : List (Item × Int32) :=
  definition.numbers.entries.map fun (name, number) => (⟨some definition.name, name⟩, number)

def itemWith? (definition : ListDefinition) (number : Int32) : Option Item :=
  (definition.items.find? fun entry => entry.2 == number).map Prod.fst

end ListDefinition

/-- The declared lists of a story, each name once. -/
structure ListDefinitions where
  definitions : List ListDefinition := []
  deriving DecidableEq, Repr, Inhabited

namespace ListDefinitions

def find? (lists : ListDefinitions) (name : String) : Option ListDefinition :=
  lists.definitions.find? fun definition => definition.name == name

/-- Every declared item under its own name and under its full name; a later one takes the name of
an earlier one. -/
def lookup (lists : ListDefinitions) : Table String (Item × Int32) :=
  Table.ofList <| lists.definitions.flatMap fun definition =>
    definition.items.flatMap fun (item, number) =>
      [(item.name, (item, number)), (item.fullName, (item, number))]

/-- The set of the one item that a name stands for. -/
def itemNamed? (lists : ListDefinitions) (name : String) : Option ItemSet :=
  (lists.lookup.get? name).map fun (item, number) => .single item number

def allOf (lists : ListDefinitions) (origins : List String) : ItemSet :=
  .ofList ((origins.filterMap lists.find?).flatMap ListDefinition.items)

end ListDefinitions

namespace ItemSet

/-- The items of the set's lists that are not in the set. -/
def complement (lists : ListDefinitions) (set : ItemSet) : ItemSet :=
  ⟨(lists.allOf set.origins).items.filter fun item _ => !set.member item, set.origins⟩

def whole (lists : ListDefinitions) (set : ItemSet) : ItemSet :=
  { lists.allOf set.origins with remembered := set.origins }

/-- The set with every number moved by `shift`, within its own list; where the list has no item
with the new number, nothing is left of the item. -/
def shifted (lists : ListDefinitions) (shift : Int32 → Int32) (set : ItemSet) : ItemSet :=
  .ofList <| set.toList.filterMap fun (item, number) => do
    let origin ← item.origin
    let definition ← lists.find? origin
    let target ← definition.itemWith? (shift number)
    some (target, shift number)

end ItemSet

end InkStory
