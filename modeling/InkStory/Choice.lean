import InkStory.Flow.CallStack

/-! # Choices -/

namespace InkStory

structure Choice where
  text : String
  /-- The path of the choice point that it comes from. -/
  source : String
  target : Path
  /-- It is never shown, and taken where no other choice is left. -/
  isInvisible : Bool := false
  tags : List String := []
  /-- Its position among the choices that are shown. -/
  index : Nat := 0
  /-- The thread in which the story goes on when it is taken. -/
  thread : Thread
  deriving DecidableEq, Repr, Inhabited

end InkStory
