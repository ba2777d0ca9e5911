import InkStory.Command
import InkStory.Flow.Kind
import InkStory.Operator

/-! # Content objects -/

namespace InkStory

/-- Where a choice comes from, and what stands on the evaluation stack for it. -/
structure ChoicePoint where
  target : Path
  hasCondition : Bool := false
  hasStartContent : Bool := false
  hasChoiceOnlyContent : Bool := false
  isInvisibleDefault : Bool := false
  isOnceOnly : Bool := false
  deriving DecidableEq, Repr, Inhabited

namespace ChoicePoint

/-- The choice point with a target and the properties that the bits of a number stand for. -/
def ofFlags (target : Path) (flags : Nat) : ChoicePoint where
  target := target
  hasCondition := flags.testBit 0
  hasStartContent := flags.testBit 1
  hasChoiceOnlyContent := flags.testBit 2
  isInvisibleDefault := flags.testBit 3
  isOnceOnly := flags.testBit 4

/-- The number whose bits stand for the properties of a choice point. -/
def flags (choicePoint : ChoicePoint) : Nat :=
  choicePoint.hasCondition.toNat + 2 * choicePoint.hasStartContent.toNat +
    4 * choicePoint.hasChoiceOnlyContent.toNat + 8 * choicePoint.isInvisibleDefault.toNat +
    16 * choicePoint.isOnceOnly.toNat

end ChoicePoint

inductive DivertTarget where
  | path (path : Path)
  /-- To the target that a variable holds. -/
  | variable (name : String)
  /-- To a function of the host, with a number of arguments. -/
  | external (function : String) (arguments : Nat)
  deriving DecidableEq, Repr, Inhabited

/-- A jump, with the kind of frame that it pushes, if any. -/
structure Divert where
  target : DivertTarget
  pushes : Option FrameKind := none
  isConditional : Bool := false
  deriving DecidableEq, Repr, Inhabited

/-- A variable that takes the value on top of the evaluation stack. -/
structure Assignment where
  name : String
  isDeclaration : Bool
  isGlobal : Bool
  deriving DecidableEq, Repr, Inhabited

/-- Anything in a story but containers, and anything on its stacks. -/
inductive Content where
  | value (value : Value)
  | command (command : Command)
  | divert (divert : Divert)
  | choicePoint (choicePoint : ChoicePoint)
  | variable (name : String)
  | readCount (path : Path)
  | assignment (assignment : Assignment)
  | operator (operator : Operator)
  | glue
  | tag (text : String)
  | void
  deriving DecidableEq, Repr, Inhabited

namespace Content

def ofText (text : String) : Content := value (.string text)

def ofValue : Value → Content
  | .void => void
  | other => value other

def text? : Content → Option String
  | value (.string text) => some text
  | _ => none

def isText (content : Content) : Bool := content.text?.isSome

def value? : Content → Option Value
  | value found => some found
  | _ => none

def isCommand : Content → Bool
  | command _ => true
  | _ => false

def isGlue : Content → Bool
  | glue => true
  | _ => false

def isNewline (content : Content) : Bool := content.text? == some "\n"

def isInlineBlank (content : Content) : Bool :=
  match content.text? with
  | some text => text.toList.all Text.isInlineBlank
  | none => false

def isVisible (content : Content) : Bool :=
  content.isText && !content.isNewline && !content.isInlineBlank

end Content

end InkStory
