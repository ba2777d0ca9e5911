import InkStory.Error.Fault
import InkStory.Flow.Kind
import InkStory.Json.Writer

/-! # Errors that operations on a story report -/

namespace InkStory

/-- Why a compiled story, or an object within it, cannot be read. -/
inductive FormatFault where
  /-- The text is no JSON of the expected shape. -/
  | unreadable
  | expectedString (subject : String) (found : Json)
  | expectedInteger (subject : String) (found : Json)
  | rootNotContainer
  | missingTerminator
  | namedNotContainer (name : String)
  | badTerminator (found : Json)
  | containerAsObject
  | nullAsObject
  | unknownToken (token : String)
  | listNotObject

def FormatFault.message : FormatFault → String
  | unreadable => "the text is no story"
  | expectedString subject found =>
    "expected a string for " ++ subject ++ ", found " ++ found.render
  | expectedInteger subject found =>
    "expected an integer for " ++ subject ++ ", found " ++ found.render
  | rootNotContainer => "root must be a container"
  | missingTerminator => "container array has no terminator"
  | namedNotContainer name => "named content '" ++ name ++ "' is not a container"
  | badTerminator found => "invalid container terminator: " ++ found.render
  | containerAsObject => "containers are not allowed here"
  | nullAsObject => "unexpected null"
  | unknownToken token => "Failed to convert token to runtime object: " ++ token
  | listNotObject => "list content must be an object"

/-- Why a save cannot be read. -/
inductive SaveFault where
  | unreadable
  | missingVersion
  | unknownFrameKind (number : Int)
  | expectedValue (found : String)
  | noThreads
  | missingThread (index : Nat)
  | badObject (fault : FormatFault)

def FormatFault.fullMessage (fault : FormatFault) : String :=
  "malformed story json: " ++ fault.message

def SaveFault.message : SaveFault → String
  | unreadable => "the text is no save"
  | missingVersion => "missing inkSaveVersion"
  | unknownFrameKind number => "unknown call stack element type " ++ number.repr
  | expectedValue found => "expected a value, found " ++ found
  | noThreads => "call stack has no threads"
  | missingThread index => "missing thread " ++ index.repr ++ " for choice"
  | badObject fault => fault.fullMessage

inductive ArgumentFault where
  | expected (type : String) (received : ValueKind)
  | blankFunction
  | unpassable (kind : ValueKind)
  | notBound (function : String)
  | noContent (path : String)
  deriving DecidableEq, Repr

def ArgumentFault.message : ArgumentFault → String
  | expected type received => "expected " ++ type ++ ", received " ++ received.name
  | blankFunction => "Function is empty or white space."
  | unpassable kind =>
    "ink arguments when calling evaluate_function / choose_path_string must be int, float, " ++
      "string, bool or InkList. Argument was " ++ kind.name
  | notBound function => "Function '" ++ function ++ "' has not been bound."
  | noContent path => "Content at path not found: " ++ path

inductive Error where
  | missingVersion
  | versionTooNew (found current : Nat)
  | versionTooOld (found minimum : Nat)
  | missingRoot
  | format (fault : FormatFault)
  | saveFormat (fault : SaveFault)
  | saveVersionTooOld (found minimum : Nat)
  | cannotContinue
  /-- A line is only partly evaluated, and the activity has to wait for its end. -/
  | lineUnfinished (activity : String)
  | choiceOutOfRange (index count : Nat)
  | functionNotFound (name : String)
  | alreadyBound (name : String)
  | undeclaredVariable (name : String)
  | invalidArgument (fault : ArgumentFault)
  | backgroundSaveActive
  | mismatchedReturn (expected : Option FrameKind) (found : FrameKind)
  | runtime (fault : Fault)
  /-- The story took more steps than any story should. -/
  | endless

def Error.message : Error → String
  | missingVersion =>
    "ink version number not found. Are you sure it's a valid .ink.json file?"
  | versionTooNew found current =>
    "version of ink used to build story (" ++ found.repr ++
      ") was newer than the current version of the engine (" ++ current.repr ++ ")"
  | versionTooOld found minimum =>
    "version of ink used to build story (" ++ found.repr ++
      ") is too old to be loaded by this version of the engine (minimum " ++ minimum.repr ++ ")"
  | missingRoot => "root node for ink not found. Are you sure it's a valid .ink.json file?"
  | format fault => fault.fullMessage
  | saveFormat fault => "ink save format incorrect, can't load: " ++ fault.message
  | saveVersionTooOld found minimum =>
    "ink save format isn't compatible with the current version (saw '" ++ found.repr ++
      "', but minimum is " ++ minimum.repr ++ "), so can't load"
  | cannotContinue =>
    "can't continue - should check can_continue before calling continue_story"
  | lineUnfinished activity =>
    "can't " ++ activity ++ ". Story is in the middle of a continue_async(). Make more " ++
      "continue_async() calls or a single continue_story() call beforehand"
  | choiceOutOfRange index count =>
    "choice index " ++ index.repr ++ " out of range (" ++ count.repr ++ " choices available)"
  | functionNotFound name => "function doesn't exist: '" ++ name ++ "'"
  | alreadyBound name => "function '" ++ name ++ "' has already been bound"
  | undeclaredVariable name =>
    "cannot use variable '" ++ name ++ "' because it wasn't declared in the ink story"
  | invalidArgument fault => "invalid argument: " ++ fault.message
  | backgroundSaveActive =>
    "story is already in background saving mode, can't copy the state for saving again"
  | mismatchedReturn expected found =>
    "Found " ++ found.leavingStatement ++ ", when expected " ++
      (expected.map FrameKind.leavingStatement).getD "end of flow (-> END or choice)"
  | runtime fault => fault.message
  | endless => "the story does not come to rest"

end InkStory
