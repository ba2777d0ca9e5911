import InkStory.Error.Basic
import InkStory.Json.Tree
import InkStory.Program.Basic

/-! # Reading a compiled story -/

namespace InkStory

def currentVersion : Nat := 21

def oldestVersion : Nat := 18

namespace Content

def readString (subject : String) (json : Json) : Except FormatFault String :=
  match json with
  | .string text => .ok text
  | json => .error (.expectedString subject json)

def readInt (subject : String) (json : Json) : Except FormatFault Int32 :=
  match json.int32? with
  | some number => .ok number
  | none => .error (.expectedInteger subject json)

/-- The bits of an integer that a member may be. -/
def readFlags (subject : String) : Option Json → Except FormatFault Nat
  | none => .ok 0
  | some json => return (← readInt subject json).toBitVec.toNat

def readText (text : String) : Except FormatFault Content :=
  match text.toList with
  | '^' :: rest => .ok (ofText (String.ofList rest))
  | _ =>
    if text = "\n" then .ok (ofText "\n")
    else if text = "<>" then .ok .glue
    else
      match Command.ofToken? text with
      | some found => .ok (.command found)
      | none =>
        match Operator.ofSymbol? (if text = "L^" then "^" else text) with
        | some found => .ok (.operator found)
        | none =>
          if text = "void" then .ok .void else .error (.unknownToken text)

def readExternal (members : List (String × Json)) (function : String) :
    Except FormatFault DivertTarget := do
  match members.lookup "exArgs" with
  | none => return .external function 0
  | some count => return .external function (← readInt "external argument count" count).toInt.toNat

/-- How the kinds of diverts are written, with what they push and whether the host is called. -/
def divertKinds : List (String × Option FrameKind × Bool) :=
  [("->", none, false), ("f()", some .function, false), ("->t->", some .tunnel, false),
    ("x()", none, true)]

def readDivert (members : List (String × Json)) (pushes : Option FrameKind) (isExternal : Bool)
    (target : Json) : Except FormatFault Content := do
  let name ← readString "divert" target
  let target ←
    if isExternal then readExternal members name
    else if (members.lookup "var").isSome then pure (.variable name)
    else pure (.path (Path.parse name))
  return .divert ⟨target, pushes, (members.lookup "c").isSome⟩

/-- Read the lists that a set remembers. Anything among them that is no text is passed over. -/
def readOrigins (members : List (String × Json)) : List String :=
  match (members.lookup "origins").bind Json.array? with
  | some origins => origins.filterMap Json.string?
  | none => []

def readItem (member : String × Json) : Except FormatFault (Item × Int32) := do
  return (Item.parse member.1, ← readInt "list item value" member.2)

def readItems (members : List (String × Json)) (items : Json) : Except FormatFault Content := do
  let some items := items.object? | throw .listNotObject
  let pairs ← items.mapM readItem
  return .value (.list (ItemSet.insertAll ⟨{}, readOrigins members⟩ pairs))

def readPointer (members : List (String × Json)) (name : Json) : Except FormatFault Content := do
  let context ←
    match members.lookup "ci" with
    | some number => pure (Context.ofNumber (← readInt "variable pointer context" number).toInt)
    | none => pure .unknown
  return .value (.variablePointer (← readString "variable pointer" name) context)

def readChoicePoint (members : List (String × Json)) (target : Json) :
    Except FormatFault Content := do
  let flags ← readFlags "choice flags" (members.lookup "flg")
  return .choicePoint (.ofFlags (Path.parse (← readString "choice target" target)) flags)

def readAssignment (members : List (String × Json)) (isGlobal : Bool) (name : Json) :
    Except FormatFault Content := do
  let name ← readString "variable assignment" name
  return .assignment ⟨name, (members.lookup "re").isNone, isGlobal⟩

/-- The readers of objects that are written as JSON objects, under the member that tells them
apart. The first member that is there decides. -/
def memberReaders :
    List (String × (List (String × Json) → Json → Except FormatFault Content)) :=
  [("^->", fun _ target => do
      return .value (.divertTarget (Path.parse (← readString "divert target value" target)))),
    ("^var", readPointer)] ++
  divertKinds.map (fun (key, pushes, isExternal) =>
    (key, fun members target => readDivert members pushes isExternal target)) ++
  [("*", readChoicePoint),
    ("VAR?", fun _ name => do return .variable (← readString "variable reference" name)),
    ("CNT?", fun _ path => do return .readCount (Path.parse (← readString "read count" path))),
    ("VAR=", fun members name => readAssignment members true name),
    ("temp=", fun members name => readAssignment members false name),
    ("#", fun _ text => do return .tag (← readString "tag" text)),
    ("list", readItems)]

def readMembers (members : List (String × Json)) : Except FormatFault Content :=
  let readers := memberReaders.filterMap fun (key, reader) =>
    (members.lookup key).map (reader members)
  match readers.head? with
  | some content => content
  | none => .error (.unknownToken (Json.object members).render)

def read : Json → Except FormatFault Content
  | .bool truth => .ok (.value (.bool truth))
  | .number number =>
    if (Json.number number).int64?.isSome then
      return .value (.int (← readInt "integer value" (.number number)))
    else .ok (.value (.float number.toSingle))
  | .string text => readText text
  | .object members => readMembers members
  | .array _ => .error .containerAsObject
  | .null => .error .nullAsObject

end Content

namespace Container

/-- The name and the flags among the members of a terminator, and its containers. -/
structure Terminator where
  name : Option String := none
  counting : Counting := {}
  named : List (String × Container) := []

def close (nodes : List (Node Container)) (terminator : Terminator) : Container :=
  .mk terminator.name terminator.counting nodes terminator.named

mutual

def readNode : Json → Except FormatFault (Node Container)
  | .array items => do
    let (nodes, terminator) ← readNodes items
    return .container (close nodes terminator)
  | json => do return .content (← Content.read json)

/-- Read items up to the last, which is the terminator. -/
def readNodes : List Json → Except FormatFault (List (Node Container) × Terminator)
  | [] => .error .missingTerminator
  | [.null] => .ok ([], {})
  | [.object members] => do return ([], ← readTerminator {} members)
  | [json] => .error (.badTerminator json)
  | json :: rest => do
    let node ← readNode json
    let (nodes, terminator) ← readNodes rest
    return (node :: nodes, terminator)

/-- Read the members of a terminator. A container without a name of its own takes the name it is
listed under. -/
def readTerminator (terminator : Terminator) :
    List (String × Json) → Except FormatFault Terminator
  | [] => .ok terminator
  | (key, json) :: rest =>
    if key = "#f" then do
      let flags ← Content.readFlags "count flags" (some json)
      readTerminator { terminator with counting := .ofFlags flags } rest
    else if key = "#n" then do
      let name ← Content.readString "container name" json
      readTerminator { terminator with name := some name } rest
    else do
      match ← readNode json with
      | .container inner =>
        readTerminator
          { terminator with named := terminator.named ++ [(key, inner.withName key)] } rest
      | .content _ => throw (.namedNotContainer key)

end

def readItems (items : List Json) : Except FormatFault Container := do
  let (nodes, terminator) ← readNodes items
  return close nodes terminator

end Container

/-- The three parts of the file of a compiled story. -/
structure Envelope where
  version : Option Nat := none
  root : Option Json := none
  lists : ListDefinitions := {}

namespace Envelope

def readVersion? : Json → Option (Option Nat)
  | .null => some none
  | json => json.nat32?.map some

def readRoot : Json → Option Json
  | .null => none
  | json => some json

def readDefinition? (name : String) (json : Json) : Option ListDefinition := do
  let numbers ← (← json.object?).mapM fun (item, number) => do some (item, ← number.int32?)
  some ⟨name, Table.ofList numbers⟩

def readLists? (json : Json) : Option ListDefinitions := do
  let definitions ← (← json.object?).mapM fun (name, list) => readDefinition? name list
  some ⟨definitions⟩

/-- Read one member, of which the file may have no second. Members of other names may be anything,
at whatever depth. -/
def addMember? (seen : List String) (envelope : Envelope) (member : Option String × Json.Tree) :
    Option (List String × Envelope) := do
  let name ← member.1
  let known := name == "inkVersion" || name == "root" || name == "listDefs"
  if !known then some (seen, envelope)
  else if seen.contains name then none
  else
    let json ← member.2.toJson? (Json.maxDepth - 1)
    let envelope ←
      if name == "inkVersion" then
        (readVersion? json).map fun version => { envelope with version := version }
      else if name == "root" then some { envelope with root := readRoot json }
      else (readLists? json).map fun lists => { envelope with lists := lists }
    some (name :: seen, envelope)

/-- Read the parts in the order version, root and lists; only the lists may be left out. -/
def ofItems? (items : List Json.Tree) : Option Envelope := do
  let items ← items.mapM fun item => item.toJson? (Json.maxDepth - 1)
  match items with
  | [version, root] => some ⟨← readVersion? version, readRoot root, {}⟩
  | [version, root, lists] => some ⟨← readVersion? version, readRoot root, ← readLists? lists⟩
  | _ => none

def parse? (text : String) : Option Envelope := do
  match ← Json.Tree.parse? text with
  | .object members =>
    let (_, envelope) ← members.foldlM (fun (seen, envelope) member =>
      addMember? seen envelope member) (([], {}) : List String × Envelope)
    some envelope
  | .array items => ofItems? items
  | _ => none

end Envelope

/-- Read a compiled story of a version between the oldest and the current one. -/
def Program.read (text : String) : Except Error Program := do
  let some envelope := Envelope.parse? text | throw (.format .unreadable)
  let some version := envelope.version | throw .missingVersion
  if currentVersion < version then throw (.versionTooNew version currentVersion)
  if version < oldestVersion then throw (.versionTooOld version oldestVersion)
  match envelope.root with
  | some (.array items) =>
    match Container.readItems items with
    | .ok root => return ⟨root, envelope.lists⟩
    | .error fault => throw (.format fault)
  | some _ => throw (.format .rootNotContainer)
  | none => throw .missingRoot

end InkStory
