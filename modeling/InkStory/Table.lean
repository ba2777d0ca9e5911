/-! # Tables that keep the order in which keys were first added -/

namespace InkStory

/-- A finite map. Its entries stand in the order in which their keys were first inserted, each key
once. -/
structure Table (Key : Type u) (Entry : Type v) where
  entries : List (Key × Entry) := []
  distinct : (entries.map Prod.fst).Nodup := by exact List.nodup_nil
  deriving Repr, DecidableEq

namespace Table

variable {Key : Type u} {Entry : Type v} {Other : Type w}

instance : Inhabited (Table Key Entry) := ⟨{}⟩

def keys (table : Table Key Entry) : List Key := table.entries.map Prod.fst

def values (table : Table Key Entry) : List Entry := table.entries.map Prod.snd

def isEmpty (table : Table Key Entry) : Bool := table.entries.isEmpty

def size (table : Table Key Entry) : Nat := table.entries.length

def single (key : Key) (entry : Entry) : Table Key Entry where
  entries := [(key, entry)]
  distinct := by simp

/-- Change every entry, whose key is given along, and keep the keys. -/
def mapWithKey (change : Key → Entry → Other) (table : Table Key Entry) : Table Key Other where
  entries := table.entries.map fun entry => (entry.1, change entry.1 entry.2)
  distinct := by
    rw [List.map_map]
    exact table.distinct

def map (change : Entry → Other) (table : Table Key Entry) : Table Key Other :=
  table.mapWithKey fun _ => change

def filter (keep : Key → Entry → Bool) (table : Table Key Entry) : Table Key Entry where
  entries := table.entries.filter fun (key, entry) => keep key entry
  distinct := table.distinct.sublist (List.filter_sublist.map Prod.fst)

variable [DecidableEq Key]

def get? (table : Table Key Entry) (key : Key) : Option Entry := table.entries.lookup key

def contains (table : Table Key Entry) (key : Key) : Bool := (table.get? key).isSome

/-- Put an entry in the place of the key's former one, or at the end if it has none. -/
def insertInto (key : Key) (entry : Entry) : List (Key × Entry) → List (Key × Entry)
  | [] => [(key, entry)]
  | (former, old) :: rest =>
    if former = key then (former, entry) :: rest
    else (former, old) :: insertInto key entry rest

/-- Inserting a key adds it at the end of the keys, unless it is among them. -/
theorem keys_insertInto (key : Key) (entry : Entry) (entries : List (Key × Entry)) :
    (insertInto key entry entries).map Prod.fst =
      if key ∈ entries.map Prod.fst then entries.map Prod.fst
      else entries.map Prod.fst ++ [key] := by
  induction entries with
  | nil => rfl
  | cons head rest ih =>
    obtain ⟨former, old⟩ := head
    by_cases same : former = key
    · simp [insertInto, same]
    · have different : ¬key = former := fun equal => same equal.symm
      simp only [insertInto, same, if_false, List.map_cons, ih, List.mem_cons, different,
        false_or]
      split <;> simp

/-- Give a key an entry. A key that has one keeps its place; a new key goes to the end. -/
def insert (table : Table Key Entry) (key : Key) (entry : Entry) : Table Key Entry where
  entries := insertInto key entry table.entries
  distinct := by
    rw [keys_insertInto]
    split
    · exact table.distinct
    · next missing =>
      exact List.nodup_append.mpr ⟨table.distinct, by simp, by
        intro former member other single equal
        rw [List.mem_singleton.mp single] at equal
        exact missing (equal ▸ member)⟩

/-- Take a key out; the others keep their order. -/
def erase (table : Table Key Entry) (key : Key) : Table Key Entry :=
  table.filter fun other _ => other ≠ key

def insertAll (table : Table Key Entry) (pairs : List (Key × Entry)) : Table Key Entry :=
  pairs.foldl (fun table (key, entry) => table.insert key entry) table

/-- The table of a list of pairs; of a repeated key the first place and the last entry count. -/
def ofList (pairs : List (Key × Entry)) : Table Key Entry := insertAll {} pairs

end Table

end InkStory
