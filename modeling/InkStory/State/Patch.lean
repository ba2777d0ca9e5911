import InkStory.Program.Basic

/-! # Writes that are kept apart -/

namespace InkStory

/-- Writes made while the state before them must stay readable. -/
structure Patch where
  globals : Table String Value := {}
  /-- The globals among them whose change is to be reported. -/
  changed : List String := []
  visits : Table Address Nat := {}
  turns : Table Address Int32 := {}
  deriving DecidableEq, Repr, Inhabited

namespace Patch

def setGlobal (patch : Patch) (name : String) (value : Value) : Patch :=
  { patch with globals := patch.globals.insert name value }

def addChanged (patch : Patch) (name : String) : Patch :=
  { patch with
    changed := if patch.changed.contains name then patch.changed else patch.changed ++ [name] }

def setVisits (patch : Patch) (address : Address) (count : Nat) : Patch :=
  { patch with visits := patch.visits.insert address count }

def setTurn (patch : Patch) (address : Address) (turn : Int32) : Patch :=
  { patch with turns := patch.turns.insert address turn }

end Patch

end InkStory
