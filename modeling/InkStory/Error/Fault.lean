import InkStory.Value.Basic

/-! # Faults that a story runs into -/

namespace InkStory

/-- What can go wrong while a story runs. An object at fault is given by its description. -/
inductive Fault where
  | voidCondition
  | divertTargetCondition (target : String)
  | variablePointerCondition (name : String)
  | badCast (text : String) (source target : ValueKind)
  | badListOperands (operator : String) (left right : ValueKind)
  | badOperand (operator : String) (kind : ValueKind)
  | divisionByZero
  | voidOperand
  | strangeOperand (operator found : String)
  | emptyStack
  | shortStack (wanted available : Nat)
  | strangeValue (found : String)
  | strangeAssignment (name found : String)
  | strangeOutput (found : String)
  | strangeTunnelTarget (found : String)
  | strangeArgument (function found : String)
  | strangeChoiceText (found : String)
  | strangeCountTarget (found : String) (isInteger : Bool)
  | unknownFrame (name : String)
  | unknownTemporary (name : String)
  | uncountedVisits (path : String)
  | uncountedTurns (path : String)
  | missingReadCount (path : String)
  | missingDivertVariable (name : String)
  | nullDivertVariable (name : String)
  | strangeDivertVariable (name found : String)
  | unresolvedDivert (divert : String)
  | alreadyEvaluating
  | notEvaluating
  | stringOutsideExpression
  | nothingToDuplicate
  | commandInTag
  | badRandomMinimum
  | badRandomMaximum
  | randomRangeTooLarge
  | randomRangeEmpty (low high : Int32)
  | badSeed
  | noVisitedContainer
  | badListNumber
  | unknownList (name : String)
  | badListRange
  | badListRandom
  | badShuffleSize
  | noShuffledContainer
  | badShuffleCount
  | emptyShuffle
  | shuffleOutOfRange
  | pathInsideFunction (function path trace : String)
  | unboundWithoutFallbacks (function : String)
  | unboundWithoutFallback (function : String)
  | missingBindings (functions : List String) (fallbacks : Bool)
  | hostFailure (reason : String)
  | unfinishedFunction (trace : String)
  | missingContent (path : String)
  | lostLocation (path : String)
  | strangeTag
  | threadLeft
  | tunnelLeft
  | functionLeft
  | outOfContent
  | frameLeft
  deriving DecidableEq, Repr

def Fault.message : Fault → String
  | voidCondition =>
    "Attempting to use a void value as a condition. Did you forget to 'return' a value from " ++
      "a function you called here?"
  | divertTargetCondition target =>
    "Shouldn't use a divert target (to " ++ target ++ ") as a conditional value. Did you " ++
      "intend a function call 'likeThis()' or a read count check 'likeThis'? (no arrows)"
  | variablePointerCondition name =>
    "Shouldn't use a variable pointer (to " ++ name ++ ") as a conditional value"
  | badCast text source target =>
    "Can't cast " ++ text ++ " from " ++ source.name ++ " to " ++ target.name
  | badListOperands operator left right =>
    "Can not call use '" ++ operator ++ "' operation on " ++ left.name ++ " and " ++ right.name
  | badOperand operator kind =>
    "Cannot perform operation '" ++ operator ++ "' on " ++ kind.name
  | divisionByZero => "Attempted to divide by zero"
  | voidOperand =>
    "Attempting to perform operation on a void value. Did you forget to 'return' a value " ++
      "from a function you called here?"
  | strangeOperand operator found => "Invalid parameter for " ++ operator ++ ": " ++ found
  | emptyStack => "Tried to pop from an empty evaluation stack"
  | shortStack wanted available =>
    "trying to pop too many objects (" ++ wanted.repr ++ " of " ++ available.repr ++ ")"
  | strangeValue found => "Expected a value on the evaluation stack, but found " ++ found
  | strangeAssignment name found =>
    "Expected a value to assign to " ++ name ++ ", but found " ++ found
  | strangeOutput found => "Can't output " ++ found
  | strangeTunnelTarget found =>
    "Expected void if ->-> doesn't override target, found " ++ found
  | strangeArgument function found =>
    "Expected a value as an argument to '" ++ function ++ "', found " ++ found
  | strangeChoiceText found => "Expected choice text to be a string, found " ++ found
  | strangeCountTarget found isInteger =>
    "TURNS_SINCE / READ_COUNT expected a divert target (knot, stitch, label name), but saw " ++
      found ++
      if isInteger then
        ". Did you accidentally pass a read count ('knot_name') instead of a target " ++
          "('-> knot_name')?"
      else ""
  | unknownFrame name => "Could not find temporary variable context for " ++ name
  | unknownTemporary name => "Could not find temporary variable to set: " ++ name
  | uncountedVisits path => "Read count for target (" ++ path ++ ") unknown."
  | uncountedTurns path => "TURNS_SINCE() for target (" ++ path ++ ") unknown."
  | missingReadCount path => "Failed to find container for read count of " ++ path
  | missingDivertVariable name =>
    "Tried to divert using a target from a variable that could not be found (" ++ name ++ ")"
  | nullDivertVariable name =>
    "Tried to divert to a target from a variable, but the variable (" ++ name ++
      ") didn't contain a divert target, it was empty/null (the value 0)."
  | strangeDivertVariable name found =>
    "Tried to divert to a target from a variable, but the variable (" ++ name ++
      ") didn't contain a divert target, it contained '" ++ found ++ "'."
  | unresolvedDivert divert => "Divert resolution failed: " ++ divert
  | alreadyEvaluating => "Already in expression evaluation?"
  | notEvaluating => "Not in expression evaluation mode"
  | stringOutsideExpression => "Expected to be in an expression when evaluating a string"
  | nothingToDuplicate => "Nothing on the evaluation stack to duplicate"
  | commandInTag => "Unexpected ControlCommand while extracting tag from choice"
  | badRandomMinimum => "Invalid value for minimum parameter of RANDOM(min, max)"
  | badRandomMaximum => "Invalid value for maximum parameter of RANDOM(min, max)"
  | randomRangeTooLarge =>
    "RANDOM was called with a range that exceeds the size that ink numbers can use."
  | randomRangeEmpty low high =>
    "RANDOM was called with minimum as " ++ low.toInt.repr ++ " and maximum as " ++
      high.toInt.repr ++ ". The maximum must be larger"
  | badSeed => "Invalid value passed to SEED_RANDOM"
  | noVisitedContainer => "No current container for visit index"
  | badListNumber =>
    "Passed non-integer when creating a list element from a numerical value."
  | unknownList name => "Failed to find LIST called " ++ name
  | badListRange => "Expected list, minimum and maximum for LIST_RANGE"
  | badListRandom => "Expected list for LIST_RANDOM"
  | badShuffleSize => "expected number of elements in sequence for shuffle index"
  | noShuffledContainer => "No current container for shuffle index"
  | badShuffleCount => "expected sequence count for shuffle index"
  | emptyShuffle => "shuffle sequence has no elements"
  | shuffleOutOfRange => "shuffle sequence index out of range"
  | pathInsideFunction function path trace =>
    "Story was running a function (" ++ function ++ ") when you called choose_path_string(" ++
      path ++ ") - this is almost certainly not not what you want! Full stack trace: \n" ++ trace
  | unboundWithoutFallbacks function =>
    "Trying to call EXTERNAL function '" ++ function ++
      "' which has not been bound (and ink fallbacks disabled)."
  | unboundWithoutFallback function =>
    "Trying to call EXTERNAL function '" ++ function ++
      "' which has not been bound, and fallback ink function could not be found."
  | missingBindings functions fallbacks =>
    "ERROR: Missing function binding for external" ++
      (if 1 < functions.length then "s" else "") ++
      ": '" ++ String.intercalate "', '" functions ++ "' " ++
      if fallbacks then ", and no fallback ink function found." else " (ink fallbacks disabled)"
  | hostFailure reason => reason
  | unfinishedFunction trace =>
    "Expected external function evaluation to be complete. Stack trace: " ++ trace
  | missingContent path =>
    "Failed to find content at path '" ++ path ++ "', and no approximation of it was possible."
  | lostLocation path =>
    "When loading state, internal story location couldn't be found: " ++ path ++
      ". Has the story changed since this save data was created?"
  | strangeTag =>
    "Tag contained non-text content. Only plain text is allowed when using global_tags or " ++
      "tags_for_content_at_path. If you want to evaluate dynamic content, you need to use " ++
      "continue_story()."
  | threadLeft =>
    "Thread available to pop, threads should always be flat by the end of evaluation?"
  | tunnelLeft =>
    "unexpectedly reached end of content. Do you need a '->->' to return from a tunnel?"
  | functionLeft => "unexpectedly reached end of content. Do you need a '~ return'?"
  | outOfContent => "ran out of content. Do you need a '-> DONE' or '-> END'?"
  | frameLeft =>
    "unexpectedly reached end of content for unknown reason. Please debug compiler!"

/-- What a story can go on after, but should tell its host. -/
inductive Warning where
  | unknownVariable (name : String)
  | missingCountTarget (command path : String)
  | approximatedPath (path reached : String)
  | approximatedLocation (path reached : String)
  deriving DecidableEq, Repr

def Warning.message : Warning → String
  | unknownVariable name =>
    "Variable not found: '" ++ name ++ "'. Using default value of 0 (false). This can happen " ++
      "with temporary variables if the declaration hasn't yet been hit. Globals are always " ++
      "given a default value on load if a value doesn't exist in the save state."
  | missingCountTarget command path =>
    "Failed to find container for " ++ command ++ " lookup at " ++ path
  | approximatedPath path reached =>
    "Failed to find content at path '" ++ path ++ "', and it was approximated to '" ++ reached ++
      "' instead."
  | approximatedLocation path reached =>
    "When loading state, exact internal story location couldn't be found: '" ++ path ++
      "', so it was approximated to '" ++ reached ++
      "' to recover. Has the story changed since this save data was created?"

end InkStory
