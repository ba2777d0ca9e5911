import InkStory.Flow.CallStack
import InkStory.State.Globals

/-! # Variables in scope -/

namespace InkStory

structure Scope where
  globals : Globals
  patch : Option Patch
  stack : CallStack
  lists : ListDefinitions

/-- Where an assignment writes: a global of a name, or a temporary of a name in a context. -/
structure Destination where
  name : String
  context : Context
  isGlobal : Bool
  deriving DecidableEq, Repr

namespace Scope

/-- What a name stands for: a global, an item of a list, or a temporary. Pointers are not
followed. -/
def raw? (scope : Scope) (name : String) (context : Context) : Option Value :=
  let shared :=
    (scope.globals.get? scope.patch name).or
      ((scope.lists.itemNamed? name).map .list)
  match context with
  | .global => shared
  | .unknown => shared.or (scope.stack.temporary? name .unknown)
  | .frame height => scope.stack.temporary? name (.frame height)

/-- The number of variables that may hold a pointer. A chain of pointers that does not run in a
circle is no longer. -/
def pointerLimit (scope : Scope) : Nat :=
  (scope.globals.current scope.patch).size + (scope.globals.defaults.map Table.size).getD 0 +
    scope.stack.current.frames.foldr (fun frame count => frame.temporaries.size + count) 1

/-- The variable at the end of a chain of pointers. -/
def chase (scope : Scope) : Nat → String → Context → String × Context
  | 0, name, context => (name, context)
  | limit + 1, name, context =>
    match scope.raw? name context with
    | some (.variablePointer target targetContext) => scope.chase limit target targetContext
    | _ => (name, context)

def resolve (scope : Scope) (name : String) (context : Context) : String × Context :=
  match scope.raw? name context with
  | some (.variablePointer target targetContext) =>
    scope.chase scope.pointerLimit target targetContext
  | _ => (name, context)

def value? (scope : Scope) (name : String) (context : Context) : Option Value :=
  let (name, context) := scope.resolve name context
  scope.raw? name context

/-- Where a variable lives, if nothing says so. -/
def contextOf (scope : Scope) (name : String) : Context :=
  if scope.globals.has name then .global else .frame scope.stack.height

/-- A pointer to a variable, fixed to where it lives; a pointer to a pointer is that pointer. -/
def pin (scope : Scope) (name : String) (context : Context) : Value :=
  let context :=
    match context with
    | .unknown => scope.contextOf name
    | context => context
  match scope.raw? name context with
  | some (.variablePointer target targetContext) => .variablePointer target targetContext
  | _ => .variablePointer name context

/-- Where an assignment writes. One that declares nothing follows pointers. -/
def destination (scope : Scope) (assignment : Assignment) : Destination :=
  if assignment.isDeclaration then ⟨assignment.name, .unknown, assignment.isGlobal⟩
  else
    match scope.raw? assignment.name .unknown with
    | some (.variablePointer _ _) =>
      let (name, context) := scope.resolve assignment.name .unknown
      ⟨name, context, context == .global⟩
    | _ => ⟨assignment.name, .unknown, scope.globals.has assignment.name⟩

/-- The value that an assignment writes. A declared pointer is fixed to its variable. -/
def assigned (scope : Scope) (assignment : Assignment) (value : Value) : Value :=
  match value, assignment.isDeclaration with
  | .variablePointer name context, true => scope.pin name context
  | value, _ => value

def assign (scope : Scope) (assignment : Assignment) (value : Value) : Except Error Scope :=
  let destination := scope.destination assignment
  let value := scope.assigned assignment value
  if destination.isGlobal then
    let (globals, patch) := scope.globals.set scope.patch destination.name value
    .ok { scope with globals := globals, patch := patch }
  else do
    let stack ← scope.stack.setTemporary destination.name value assignment.isDeclaration
      destination.context
    return { scope with stack := stack }

end Scope

end InkStory
