import InkStory.Error.Basic
import InkStory.State.Patch

/-! # Globals -/

namespace InkStory

/-- The globals, their declared values, and the changes that observers are still to be told. -/
structure Globals where
  values : Table String Value := {}
  /-- The globals as the declarations of the story left them. -/
  defaults : Option (Table String Value) := none
  /-- The globals changed since the line began, while one is evaluated. -/
  batch : Option (List String) := none
  /-- The globals changed outside of any line. -/
  unbatched : List String := []
  deriving DecidableEq, Repr, Inhabited

namespace Globals

/-- Add a name to a list that has each name once. -/
def addName (names : List String) (name : String) : List String :=
  if names.contains name then names else names ++ [name]

def default? (globals : Globals) (name : String) : Option Value :=
  globals.defaults.bind fun defaults => defaults.get? name

def has (globals : Globals) (name : String) : Bool :=
  globals.values.contains name || (globals.default? name).isSome

/-- The globals with the values that they were given, before and in the patch. -/
def current (globals : Globals) (patch : Option Patch) : Table String Value :=
  match patch with
  | some patch => globals.values.insertAll patch.globals.entries
  | none => globals.values

/-- The value that a global was given, before or in the patch. -/
def stored? (globals : Globals) (patch : Option Patch) (name : String) : Option Value :=
  (patch.bind fun patch => patch.globals.get? name).or (globals.values.get? name)

def get? (globals : Globals) (patch : Option Patch) (name : String) : Option Value :=
  (globals.stored? patch name).or (globals.default? name)

/-- Give a global a value. A change is reported with the line, or, outside of lines, by itself;
the first value of a global is no change. -/
def set (globals : Globals) (patch : Option Patch) (name : String) (value : Value) :
    Globals × Option Patch :=
  let old := globals.stored? patch name
  let value := value.replacing old
  let changed := old.isSome
  match patch, globals.batch with
  | some patch, some _ =>
    let written := patch.setGlobal name value
    (globals, some (if changed then written.addChanged name else written))
  | some patch, none =>
    ({ globals with
        unbatched := if changed then globals.unbatched ++ [name] else globals.unbatched },
      some (patch.setGlobal name value))
  | none, some batch =>
    ({ globals with
        values := globals.values.insert name value
        batch := some (if changed then addName batch name else batch) },
      none)
  | none, none =>
    ({ globals with
        values := globals.values.insert name value
        unbatched := if changed then globals.unbatched ++ [name] else globals.unbatched },
      none)

/-- Give a declared global a value on behalf of the host. -/
def setDeclared (globals : Globals) (patch : Option Patch) (name : String) (value : Value) :
    Except Error (Globals × Option Patch) :=
  if (globals.default? name).isSome then .ok (globals.set patch name value)
  else .error (.undeclaredVariable name)

/-- Take the globals as they are for their declared values. -/
def declare (globals : Globals) : Globals :=
  { globals with defaults := some globals.values }

/-- Take saved values for the globals. Of the declared ones those that are not saved have their
declared values, and others are dropped. -/
def load (globals : Globals) (saved : Table String Value) : Globals :=
  { globals with
    values :=
      match globals.defaults with
      | some defaults =>
        defaults.mapWithKey fun name value => (saved.get? name).getD value
      | none => saved }

/-- The globals to save: all, or those that differ from their declared values. -/
def toSave (globals : Globals) (saveDefaults : Bool) (patch : Option Patch) :
    List (String × Value) :=
  let current := globals.values.entries.map fun (name, value) =>
    (name, (patch.bind fun patch => patch.globals.get? name).getD value)
  current.filter fun (name, value) =>
    saveDefaults ||
      match globals.default? name with
      | some default => !default.same value
      | none => true

def applyPatch (globals : Globals) (patch : Patch) : Globals :=
  { globals with
    values := globals.values.insertAll patch.globals.entries
    batch := globals.batch.map fun batch => patch.changed.foldl addName batch }

def beginLine (globals : Globals) : Globals := { globals with batch := some [] }

/-- The changes of a line, each global once with its value. -/
def lineChanges (globals : Globals) (patch : Option Patch) : List (String × Value) :=
  let before := (globals.batch.getD []).filterMap fun name =>
    (globals.values.get? name).map fun value => (name, value)
  let after :=
    match patch with
    | some patch =>
      patch.changed.filterMap fun name =>
        (patch.globals.get? name).map fun value => (name, value)
    | none => []
  (Table.ofList (before ++ after)).entries

def endLine (globals : Globals) : Globals := { globals with batch := none }

/-- The changes made outside of lines, with the values that the globals have now. -/
def otherChanges (globals : Globals) (patch : Option Patch) : List (String × Value) :=
  globals.unbatched.filterMap fun name =>
    (globals.get? patch name).map fun value => (name, value)

def forgetOthers (globals : Globals) : Globals := { globals with unbatched := [] }

end Globals

end InkStory
