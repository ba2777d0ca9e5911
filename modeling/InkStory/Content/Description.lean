import InkStory.Content.Basic
import InkStory.Text.Printable

/-! # Descriptions of objects for messages -/

namespace InkStory

def describeFields (name : String) (fields : List (String × String)) : String :=
  name ++ " \x7b " ++
    String.intercalate ", " (fields.map fun (field, text) => field ++ ": " ++ text) ++ " \x7d"

def describeList (parts : List String) : String := "[" ++ String.intercalate ", " parts ++ "]"

def describeCase (name part : String) : String := name ++ "(" ++ part ++ ")"

namespace Component

def description : Component → String
  | .index position => describeCase "Index" position.repr
  | .name key => describeCase "Name" (Text.describe key)
  | .parent => "Parent"

end Component

def Path.description (path : Path) : String :=
  describeFields "Path"
    [("parts", describeList (path.components.map Component.description)),
      ("is_relative", Value.boolText path.relative)]

def Context.description : Context → String
  | .unknown => "Unknown"
  | .global => "Global"
  | .frame height => describeCase "Temporary" height.repr

def Item.description (item : Item) : String :=
  describeFields "ListItem"
    [("origin_name",
        match item.origin with
        | some origin => describeCase "Some" (Text.describe origin)
        | none => "None"),
      ("item_name", Text.describe item.name)]

def ItemSet.description (set : ItemSet) : String :=
  let items := set.toList.map fun (item, number) => item.description ++ ": " ++ number.toInt.repr
  describeFields "InkList"
    [("items", "\x7b" ++ String.intercalate ", " items ++ "\x7d"),
      ("initial_origin_names", describeList (set.remembered.map Text.describe))]

def Value.description : Value → String
  | .void => "Void"
  | .bool value => describeCase "Bool" (boolText value)
  | .int value => describeCase "Int" value.toInt.repr
  | .float value => describeCase "Float" value.described
  | .list value => describeCase "List" value.description
  | .string value => describeCase "String" (Text.describe value)
  | .divertTarget target => describeCase "DivertTarget" target.description
  | .variablePointer name context =>
    describeCase "VariablePointer" (Text.describe name ++ ", " ++ context.description)

def ChoicePoint.description (choicePoint : ChoicePoint) : String :=
  describeFields "ChoicePoint"
    [("path_on_choice", choicePoint.target.description),
      ("has_condition", Value.boolText choicePoint.hasCondition),
      ("has_start_content", Value.boolText choicePoint.hasStartContent),
      ("has_choice_only_content", Value.boolText choicePoint.hasChoiceOnlyContent),
      ("once_only", Value.boolText choicePoint.isOnceOnly),
      ("is_invisible_default", Value.boolText choicePoint.isInvisibleDefault)]

def DivertTarget.description : DivertTarget → String
  | .path target => describeCase "Path" target.description
  | .variable name => describeCase "Variable" (Text.describe name)
  | .external function arguments =>
    describeFields "External" [("name", Text.describe function), ("args", arguments.repr)]

/-- The description of a divert. One that pushes nothing is described like a function call. -/
def Divert.description (divert : Divert) : String :=
  describeFields "Divert"
    [("target", divert.target.description),
      ("pushes_to_stack", Value.boolText divert.pushes.isSome),
      ("stack_push_type", (divert.pushes.getD .function).name),
      ("is_conditional", Value.boolText divert.isConditional)]

def Assignment.description (assignment : Assignment) : String :=
  describeFields "VariableAssignment"
    [("variable_name", Text.describe assignment.name),
      ("is_new_declaration", Value.boolText assignment.isDeclaration),
      ("is_global", Value.boolText assignment.isGlobal)]

def Content.description : Content → String
  | .value held => describeCase "Value" held.description
  | .command given => describeCase "ControlCommand" given.word
  | .divert jump => describeCase "Divert" jump.description
  | .choicePoint point => describeCase "ChoicePoint" point.description
  | .variable name =>
    describeCase "VariableReference" (describeCase "Variable" (Text.describe name))
  | .readCount path =>
    describeCase "VariableReference" (describeCase "PathForCount" path.description)
  | .assignment target => describeCase "VariableAssignment" target.description
  | .operator applied => describeCase "NativeFunctionCall" applied.word
  | .glue => "Glue"
  | .tag text => describeCase "Tag" (describeFields "Tag" [("text", Text.describe text)])
  | .void => "Void"

end InkStory
