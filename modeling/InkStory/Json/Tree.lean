import InkStory.Json.Token
import InkStory.Table

/-! # Nesting of JSON tokens -/

namespace InkStory.Json

/-- A JSON text as it stands: repeated members and leaves without value are kept. -/
inductive Tree where
  | null
  | bool (value : Bool)
  | number (value : Option Number)
  | string (value : Option String)
  | array (items : List Tree)
  | object (members : List (Option String × Tree))
  deriving Repr, Inhabited

/-- An array or object that is still open, its finished parts last first. -/
inductive Open where
  | array (items : List Tree)
  | object (members : List (Option String × Tree)) (name : Option String)
  deriving Repr

/-- What the next token may be. -/
inductive Expect where
  | value
  | valueOrClose
  | name (members : List (Option String × Tree))
  | nameOrClose
  | colon (members : List (Option String × Tree)) (name : Option String)
  | done (tree : Tree)
  deriving Repr

/-- A reading under way: what is open, innermost first, and what is expected. -/
structure Reading where
  pending : List Open := []
  expect : Expect := .value
  deriving Repr

namespace Reading

/-- Start a value. An opening token leaves something open; a leaf is finished at once. -/
def startValue (pending : List Open) : Token → Option Reading
  | .openArray => some ⟨.array [] :: pending, .valueOrClose⟩
  | .openObject => some ⟨pending, .nameOrClose⟩
  | .null => some ⟨pending, .done .null⟩
  | .bool value => some ⟨pending, .done (.bool value)⟩
  | .number value => some ⟨pending, .done (.number value)⟩
  | .string value => some ⟨pending, .done (.string value)⟩
  | _ => none

def afterValue (pending : List Open) (tree : Tree) (token : Token) : Option Reading :=
  match pending, token with
  | .array items :: pending, .comma => some ⟨.array (tree :: items) :: pending, .value⟩
  | .array items :: pending, .closeArray => some ⟨pending, .done (.array (tree :: items).reverse)⟩
  | .object members name :: pending, .comma => some ⟨pending, .name ((name, tree) :: members)⟩
  | .object members name :: pending, .closeObject =>
    some ⟨pending, .done (.object ((name, tree) :: members).reverse)⟩
  | _, _ => none

def step (reading : Reading) (token : Token) : Option Reading :=
  match reading.expect with
  | .value => startValue reading.pending token
  | .valueOrClose =>
    match reading.pending, token with
    | .array _ :: pending, .closeArray => some ⟨pending, .done (.array [])⟩
    | pending, token => startValue pending token
  | .name members =>
    match token with
    | .string name => some ⟨reading.pending, .colon members name⟩
    | _ => none
  | .nameOrClose =>
    match token with
    | .closeObject => some ⟨reading.pending, .done (.object [])⟩
    | .string name => some ⟨reading.pending, .colon [] name⟩
    | _ => none
  | .colon members name =>
    match token with
    | .colon => some ⟨.object members name :: reading.pending, .value⟩
    | _ => none
  | .done tree => afterValue reading.pending tree token

def finish (reading : Reading) : Option Tree :=
  match reading.pending, reading.expect with
  | [], .done tree => some tree
  | _, _ => none

end Reading

def Tree.parse? (text : String) : Option Tree := do
  let tokens ← tokens? text.toList
  let reading ← tokens.foldlM Reading.step ({} : Reading)
  reading.finish

/-- Arrays and objects may be nested this deep. -/
def maxDepth : Nat := 127

mutual

/-- The value of a tree with at most `depth` levels of nesting. Every leaf needs a value; of a
repeated member the first place and the last value count. -/
def Tree.toJson? : Nat → Tree → Option Json
  | _, .null => some .null
  | _, .bool value => some (.bool value)
  | _, .number value => value.map Json.number
  | _, .string value => value.map Json.string
  | 0, .array _ => none
  | depth + 1, .array items => (Tree.itemsToJson? depth items).map Json.array
  | 0, .object _ => none
  | depth + 1, .object members =>
    (Tree.membersToJson? depth members).map fun members =>
      Json.object (Table.ofList members).entries

def Tree.itemsToJson? : Nat → List Tree → Option (List Json)
  | _, [] => some []
  | depth, tree :: rest => do
    let json ← Tree.toJson? depth tree
    let rest ← Tree.itemsToJson? depth rest
    some (json :: rest)

def Tree.membersToJson? : Nat → List (Option String × Tree) → Option (List (String × Json))
  | _, [] => some []
  | depth, (name, tree) :: rest => do
    let name ← name
    let json ← Tree.toJson? depth tree
    let rest ← Tree.membersToJson? depth rest
    some ((name, json) :: rest)

end

def parse? (text : String) : Option Json := do
  let tree ← Tree.parse? text
  tree.toJson? maxDepth

end InkStory.Json
