import InkStory.Program.Paths
import InkStory.Program.Reader

/-! # Writing a compiled story -/

namespace InkStory

def Value.write : Value → Json
  | .void => .string "void"
  | .bool value => .bool value
  | .int value => .int value.toInt
  | .float value => .number (.ofSingle value)
  | .string text => if text = "\n" then .string "\n" else .string ("^" ++ text)
  | .list set =>
    let items := Table.ofList <| set.toList.map fun (item, number) =>
      (item.fullName, Json.int number.toInt)
    let origins :=
      if set.isEmpty && !set.origins.isEmpty then
        [("origins", Json.array (set.origins.map Json.string))]
      else []
    .object (("list", .object items.entries) :: origins)
  | .divertTarget target => .object [("^->", .string target.text)]
  | .variablePointer name context =>
    .object [("^var", .string name), ("ci", .int context.number)]

def Divert.key (divert : Divert) : String :=
  match divert.target, divert.pushes with
  | .external _ _, _ => "x()"
  | _, some .tunnel => "->t->"
  | _, some _ => "f()"
  | _, none => "->"

def Divert.write (program : Program) (origin : Place) (divert : Divert) : Json :=
  let target :=
    match divert.target with
    | .path path => [(divert.key, Json.string (program.compactText origin path))]
    | .variable name => [(divert.key, .string name), ("var", .bool true)]
    | .external function _ => [(divert.key, .string function)]
  let condition := if divert.isConditional then [("c", Json.bool true)] else []
  let arguments :=
    match divert.target with
    | .external _ (count + 1) => [("exArgs", Json.int (count + 1))]
    | _ => []
  .object (target ++ condition ++ arguments)

/-- The JSON form of an object at a place, to which its paths are relative. -/
def Content.write (program : Program) (origin : Place) : Content → Json
  | .value held => held.write
  | .command given => .string given.token
  | .divert jump => jump.write program origin
  | .choicePoint point =>
    .object
      [("*", .string (program.compactText origin point.target)), ("flg", .int point.flags)]
  | .variable name => .object [("VAR?", .string name)]
  | .readCount path => .object [("CNT?", .string (program.compactText origin path))]
  | .assignment target =>
    let key := if target.isGlobal then "VAR=" else "temp="
    let again := if target.isDeclaration then [] else [("re", Json.bool true)]
    .object ((key, .string target.name) :: again)
  | .operator applied => .string (if applied = .intersect then "L^" else applied.symbol)
  | .glue => .string "<>"
  | .tag text => .object [("#", .string text)]
  | .void => .string "void"

namespace Container

/-- The written containers that are reached by name only, each where its name stands among all
names. -/
def orderNamed (container : Container) (written : List (String × Json)) : List (String × Json) :=
  container.names.values.filterMap fun step =>
    match step with
    | .named key => (written.lookup key).map fun json => (key, json)
    | .item _ => none

mutual

/-- The JSON form of a container. A name that it is listed under is not written again. -/
def write (program : Program) (address : Address) (listed : Bool) : Container → Json
  | .mk name counting nodes named =>
    let items := writeNodes program address 0 nodes
    let written := writeNamed program address named
    let flags :=
      if counting.flags = 0 then [] else [("#f", Json.int counting.flags)]
    let ownName :=
      match name, listed with
      | some name, false => [("#n", Json.string name)]
      | _, _ => []
    let terminator := orderNamed (.mk name counting nodes named) written ++ flags ++ ownName
    .array (items ++ [if terminator.isEmpty then .null else .object terminator])

def writeNodes (program : Program) (address : Address) (position : Nat) :
    List (Node Container) → List Json
  | [] => []
  | .content content :: rest =>
    content.write program (.content address position) ::
      writeNodes program address (position + 1) rest
  | .container inner :: rest =>
    write program (.item position :: address) false inner ::
      writeNodes program address (position + 1) rest

def writeNamed (program : Program) (address : Address) :
    List (String × Container) → List (String × Json)
  | [] => []
  | (key, inner) :: rest =>
    (key, write program (.named key :: address) true inner) :: writeNamed program address rest

end

end Container

def ListDefinitions.write (lists : ListDefinitions) : Json :=
  .object <| lists.definitions.map fun definition =>
    (definition.name,
      .object <| definition.numbers.entries.map fun (item, number) =>
        (item, Json.int number.toInt))

def Program.write (program : Program) : String :=
  (Json.object
    [("inkVersion", .int currentVersion), ("root", program.root.write program [] false),
      ("listDefs", program.lists.write)]).render

end InkStory
