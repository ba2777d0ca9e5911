import InkStory.Error.Basic

/-! # Values for the host -/

namespace InkStory.Value

/-- What a value must be, or the name of its type and the kind received instead. -/
def expect (type : String) (value : Value) (found : Option α) : Except Error α :=
  match found with
  | some native => .ok native
  | none => .error (.invalidArgument (.expected type value.kind))

def toInt32 (value : Value) : Except Error Int32 := value.expect "i32" value.int?

def toSingle (value : Value) : Except Error Single := value.expect "f32" value.float?

def toBool (value : Value) : Except Error Bool := value.expect "bool" value.bool?

def toText (value : Value) : Except Error String := value.expect "String" value.string?

def toItemSet (value : Value) : Except Error ItemSet := value.expect "InkList" value.list?

end InkStory.Value
