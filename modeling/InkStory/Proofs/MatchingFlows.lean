import InkStory.Proofs.Agreement

/-! # Flows that cannot be told apart

A frame holds more than evaluation looks at: how high the evaluation stack was counts only where the
host waits for the frame, and where its output began only in a function. Of the pointer behind which
a thread evaluates only the object and the containers around it count, and of the output's text only
what it says, not whether it was worked out before. Flows that agree in the rest stay so, whatever is
done to them. -/

namespace InkStory

open List

variable {program : Program} {change : Frame → Frame}

section Lists

variable {α : Type u} {β : Type v} {related : α → α → Prop} {first second : List α}

section

variable (all : Forall₂ related first second)

include all

theorem map_eq_of_forall₂ {change : α → β}
    (respects : ∀ left right, related left right → change left = change right) :
    first.map change = second.map change := by
  induction all with
  | nil => rfl
  | cons head _ ih => rw [map_cons, map_cons, respects _ _ head, ih]

theorem filterMap_eq_of_forall₂ {change : α → Option β}
    (respects : ∀ left right, related left right → change left = change right) :
    first.filterMap change = second.filterMap change := by
  induction all with
  | nil => rfl
  | cons head _ ih => rw [filterMap_cons, filterMap_cons, respects _ _ head, ih]

theorem map_zipIdx_eq_of_forall₂ {change : α × Nat → β}
    (respects : ∀ left right position, related left right → change (left, position) = change (right, position))
    (start : Nat) : (first.zipIdx start).map change = (second.zipIdx start).map change := by
  induction all generalizing start with
  | nil => rfl
  | cons head _ ih =>
    rw [zipIdx_cons, zipIdx_cons, map_cons, map_cons, respects _ _ _ head, ih]

theorem forall₂_modify {change other : α → α}
    (respects : ∀ left right, related left right → related (change left) (other right))
    (position : Nat) :
    Forall₂ related (first.modify position change) (second.modify position other) := by
  induction all generalizing position with
  | nil => simp
  | cons head rest ih =>
    cases position with
    | zero => simpa using ⟨respects _ _ head, rest⟩
    | succ position => simpa using ⟨head, ih position⟩

theorem forall₂_filter {test : α → Bool}
    (respects : ∀ left right, related left right → test left = test right) :
    Forall₂ related (first.filter test) (second.filter test) := by
  induction all with
  | nil => exact .nil
  | @cons left right _ _ head _ ih =>
    rw [filter_cons, filter_cons, respects _ _ head]
    split
    · exact .cons head ih
    · exact ih

theorem rel_getElem?_of_forall₂ (position : Nat) :
    Option.Rel related first[position]? second[position]? := by
  induction all generalizing position with
  | nil => exact .none
  | cons head _ ih =>
    cases position with
    | zero => exact .some head
    | succ position => exact ih position

theorem all_eq_of_forall₂ {test : α → Bool}
    (respects : ∀ left right, related left right → test left = test right) :
    first.all test = second.all test := by
  induction all with
  | nil => rfl
  | cons head _ ih => rw [all_cons, all_cons, respects _ _ head, ih]

theorem isEmpty_eq_of_forall₂ : first.isEmpty = second.isEmpty := by
  cases all <;> rfl

end

end Lists

/-- Pointers at the same object that lie in the same containers. -/
structure Program.SamePlace (program : Program) (pointer other : Option Pointer) : Prop where
  place : pointer.bind program.resolve? = other.bind program.resolve?
  around : pointer.map program.around = other.map program.around

theorem Program.samePlace_refl (program : Program) (pointer : Option Pointer) :
    program.SamePlace pointer pointer := ⟨rfl, rfl⟩

/-- Jumps from the same place enter the same containers. -/
theorem Program.SamePlace.enteredByJump {previous other : Option Pointer}
    (same : program.SamePlace previous other) (pointer : Pointer) :
    program.enteredByJump previous pointer = program.enteredByJump other pointer := by
  unfold Program.enteredByJump
  rw [same.around]

/-! ### Frames and threads -/

/-- Frames that cannot be told apart. -/
structure Frame.Matches (frame other : Frame) : Prop where
  pointer : frame.pointer = other.pointer
  evaluating : frame.evaluating = other.evaluating
  temporaries : frame.temporaries = other.temporaries
  kind : frame.kind = other.kind
  stackHeight : frame.kind = .hostCall → frame.stackHeight = other.stackHeight
  outputStart : frame.kind = .function → frame.outputStart = other.outputStart

theorem Frame.matches_refl (frame : Frame) : frame.Matches frame :=
  ⟨rfl, rfl, rfl, rfl, fun _ => rfl, fun _ => rfl⟩

/-- Threads that cannot be told apart. -/
structure Thread.Matches (program : Program) (thread other : Thread) : Prop where
  top : thread.top.Matches other.top
  below : Forall₂ Frame.Matches thread.below other.below
  index : thread.index = other.index
  previous : program.SamePlace thread.previous other.previous

/-- Call stacks that cannot be told apart. -/
structure CallStack.Matches (program : Program) (stack other : CallStack) : Prop where
  current : Thread.Matches program stack.current other.current
  waiting : Forall₂ (Thread.Matches program) stack.waiting other.waiting
  counter : stack.counter = other.counter

/-- Choices that cannot be told apart. -/
structure Choice.Matches (program : Program) (choice other : Choice) : Prop where
  text : choice.text = other.text
  source : choice.source = other.source
  target : choice.target = other.target
  isInvisible : choice.isInvisible = other.isInvisible
  tags : choice.tags = other.tags
  index : choice.index = other.index
  thread : Thread.Matches program choice.thread other.thread

/-- Outputs that cannot be told apart. -/
structure Output.Matches (output other : Output) : Prop where
  stream : output.stream = other.stream
  text : output.text = other.text
  tags : output.tags = other.tags

namespace Thread

variable {thread other : Thread}

theorem matches_refl (program : Program) (thread : Thread) : Matches program thread thread where
  top := thread.top.matches_refl
  below := forall₂_same.mpr fun frame _ => frame.matches_refl
  index := rfl
  previous := program.samePlace_refl _

namespace Matches

section

variable (same : Matches program thread other)

include same

theorem frames : Forall₂ Frame.Matches thread.frames.reverse other.frames.reverse :=
  forall₂_reverse_iff.mpr (.cons same.top same.below)

theorem depth : thread.depth = other.depth :=
  congrArg (· + 1) same.below.length_eq

theorem frameAt? (height : Nat) :
    Option.Rel Frame.Matches (thread.frameAt? height) (other.frameAt? height) :=
  rel_getElem?_of_forall₂ same.frames height

theorem modifyAt
    (respects : ∀ frame other, Frame.Matches frame other → (change frame).Matches (change other))
    (height : Nat) :
    Matches program (thread.modifyAt height change) (other.modifyAt height change) := by
  have changed := forall₂_reverse_iff.mpr (forall₂_modify same.frames respects height)
  unfold Thread.modifyAt
  generalize (thread.frames.reverse.modify height change).reverse = frames at changed
  generalize (other.frames.reverse.modify height change).reverse = others at changed
  cases changed with
  | nil => exact same
  | cons top below => exact ⟨top, below, same.index, same.previous⟩

/-- As many temporaries are in scope. -/
theorem temporaries :
    thread.frames.foldr (fun frame count => frame.temporaries.size + count) 1 =
      other.frames.foldr (fun frame count => frame.temporaries.size + count) 1 := by
  have sizes : ∀ thread : Thread,
      thread.frames.foldr (fun frame count => frame.temporaries.size + count) 1 =
        (thread.frames.map fun frame => frame.temporaries.size).foldr (· + ·) 1 := by
    intro thread
    rw [foldr_map]
  have frames : Forall₂ Frame.Matches thread.frames other.frames := .cons same.top same.below
  rw [sizes, sizes, map_eq_of_forall₂ frames]
  intro frame other same
  rw [same.temporaries]

end

end Matches

end Thread

theorem Choice.matches_refl (program : Program) (choice : Choice) :
    choice.Matches program choice :=
  ⟨rfl, rfl, rfl, rfl, rfl, rfl, choice.thread.matches_refl program⟩

/-! ### Call stacks -/

namespace CallStack

variable {stack other : CallStack}

theorem matches_refl (program : Program) (stack : CallStack) : Matches program stack stack where
  current := stack.current.matches_refl program
  waiting := forall₂_same.mpr fun thread _ => thread.matches_refl program
  counter := rfl

namespace Matches

section

variable (same : Matches program stack other)

include same

theorem threads : Forall₂ (Thread.Matches program) stack.threads other.threads :=
  forall₂_reverse_iff.mpr (.cons same.current same.waiting)

theorem pointer : stack.pointer = other.pointer :=
  same.current.top.pointer

theorem evaluating : stack.frame.evaluating = other.frame.evaluating :=
  same.current.top.evaluating

theorem kind : stack.frame.kind = other.frame.kind :=
  same.current.top.kind

theorem canPop : stack.canPop = other.canPop := by
  unfold CallStack.canPop
  rw [isEmpty_eq_of_forall₂ same.current.below]

theorem canPopKind (kind : FrameKind) : stack.canPopKind kind = other.canPopKind kind := by
  unfold CallStack.canPopKind
  rw [same.canPop, same.kind]

theorem inHostCall : stack.inHostCall = other.inHostCall := by
  unfold CallStack.inHostCall
  rw [same.kind]

theorem canPopThread : stack.canPopThread = other.canPopThread := by
  unfold CallStack.canPopThread
  rw [isEmpty_eq_of_forall₂ same.waiting, same.inHostCall]

theorem height : stack.height = other.height :=
  same.current.below.length_eq

theorem frameCount : stack.frameCount = other.frameCount := by
  have depths : ∀ stack : CallStack,
      stack.frameCount = (stack.threads.map Thread.depth).foldr (· + ·) 0 := by
    intro stack
    rw [foldr_map]
    rfl
  rw [depths, depths, map_eq_of_forall₂ same.threads]
  intro thread other same
  exact same.depth

theorem modifyFrame {after : Frame → Frame}
    (changed : (change stack.frame).Matches (after other.frame)) :
    Matches program (stack.modifyFrame change) (other.modifyFrame after) :=
  { same with current := { same.current with top := changed } }

theorem setPointer (pointer : Option Pointer) :
    Matches program (stack.setPointer pointer) (other.setPointer pointer) :=
  same.modifyFrame { same.current.top with pointer := rfl }

theorem setEvaluating (evaluating : Bool) :
    Matches program (stack.modifyFrame fun frame => { frame with evaluating := evaluating })
      (other.modifyFrame fun frame => { frame with evaluating := evaluating }) :=
  same.modifyFrame { same.current.top with evaluating := rfl }

theorem setPrevious {pointer previous : Option Pointer}
    (samePlace : program.SamePlace pointer previous) :
    Matches program (stack.setPrevious pointer) (other.setPrevious previous) :=
  { same with current := { same.current with previous := samePlace } }

theorem reset : Matches program stack.reset other.reset where
  current := Thread.matches_refl program _
  waiting := .nil
  counter := same.counter

theorem push (kind : FrameKind) (stackHeight outputLength : Nat) :
    Matches program (stack.push kind stackHeight outputLength)
      (other.push kind stackHeight outputLength) where
  current :=
    { same.current with
      top := ⟨same.pointer, rfl, rfl, rfl, fun _ => rfl, fun _ => rfl⟩
      below := .cons same.current.top same.current.below }
  waiting := same.waiting
  counter := same.counter

theorem drop : Matches program stack.drop other.drop := by
  have below := same.current.below
  unfold CallStack.drop
  generalize stack.current.below = frames at below
  generalize other.current.below = others at below
  cases below with
  | nil => exact same
  | cons next rest => exact { same with current := { same.current with top := next, below := rest } }

theorem pop (kind : Option FrameKind) :
    Concurs (Matches program) (stack.pop kind) (other.pop kind) := by
  unfold CallStack.pop
  rw [same.canPop, same.kind]
  split
  · exact .ok same.drop
  · exact .error _

theorem fork :
    Thread.Matches program stack.fork.1 other.fork.1 ∧ Matches program stack.fork.2 other.fork.2 :=
  have counter : stack.counter + 1 = other.counter + 1 := congrArg (· + 1) same.counter
  ⟨{ same.current with index := counter }, { same with counter := counter }⟩

theorem renumber : Matches program stack.renumber other.renumber :=
  { same.fork.2 with current := same.fork.1 }

theorem pushThread : Matches program stack.pushThread other.pushThread :=
  { same.fork.2 with current := same.fork.1, waiting := .cons same.current same.waiting }

theorem popThread : Matches program stack.popThread other.popThread := by
  have waiting := same.waiting
  unfold CallStack.popThread
  generalize stack.waiting = threads at waiting
  generalize other.waiting = others at waiting
  cases waiting with
  | nil => exact same
  | cons next rest => exact { same with current := next, waiting := rest }

theorem runOnly {thread next : Thread} (sameThread : Thread.Matches program thread next) :
    Matches program (stack.runOnly thread) (other.runOnly next) :=
  { same with current := sameThread, waiting := .nil }

theorem isSome_thread? (index : Nat) :
    (stack.thread? index).isSome = (other.thread? index).isSome := by
  have threads := same.threads
  unfold thread?
  generalize stack.threads = first at threads
  generalize other.threads = second at threads
  induction threads with
  | nil => rfl
  | cons head _ ih =>
    rw [find?_cons, find?_cons, head.index]
    split
    · rfl
    · exact ih

theorem heightOf (context : Context) : stack.heightOf context = other.heightOf context := by
  unfold CallStack.heightOf
  rw [same.height]

theorem temporary? (name : String) (context : Context) :
    stack.temporary? name context = other.temporary? name context := by
  have frame := same.current.frameAt? (other.heightOf context)
  unfold CallStack.temporary?
  rw [same.heightOf]
  generalize stack.current.frameAt? _ = found at frame ⊢
  generalize other.current.frameAt? _ = matched at frame ⊢
  cases frame with
  | none => rfl
  | some sameFrame => simp only [Option.bind_some, sameFrame.temporaries]

theorem contextOf (name : String) : stack.contextOf name = other.contextOf name := by
  unfold CallStack.contextOf
  rw [show stack.frame.temporaries = other.frame.temporaries from same.current.top.temporaries,
    same.height]

theorem setTemporary (name : String) (value : Value) (declare : Bool) (context : Context) :
    Concurs (Matches program) (stack.setTemporary name value declare context)
      (other.setTemporary name value declare context) := by
  have frame := same.current.frameAt? (other.heightOf context)
  simp only [CallStack.setTemporary, same.heightOf]
  generalize stack.current.frameAt? (other.heightOf context) = found at frame ⊢
  generalize other.current.frameAt? (other.heightOf context) = matched at frame ⊢
  cases frame with
  | none => exact .error _
  | @some frame otherFrame sameFrame =>
    dsimp only
    rw [sameFrame.temporaries]
    split
    · exact .error _
    · refine .ok { same with current := same.current.modifyAt ?_ _ }
      intro frame other sameFrame
      have written := congrArg (fun temporaries : Table String Value =>
        temporaries.insert name (value.replacing (otherFrame.temporaries.get? name)))
        sameFrame.temporaries
      exact { sameFrame with temporaries := written }

theorem trace (source : Program) : stack.trace source = other.trace source := by
  unfold CallStack.trace
  dsimp only
  rw [same.threads.length_eq]
  congr 1
  apply map_zipIdx_eq_of_forall₂ same.threads
  intro thread other position same
  unfold traceThread
  rw [map_eq_of_forall₂ same.frames]
  intro frame other same
  unfold traceFrame
  rw [same.kind, same.pointer]

end

end Matches

end CallStack

/-! ### Outputs -/

namespace Output

variable {output other : Output} {stack next : CallStack}

theorem matches_refl (output : Output) : output.Matches output := ⟨rfl, rfl, rfl⟩

/-- Outputs and call stacks that cannot be told apart. -/
def SameFlow (program : Program) (flow other : Output × CallStack) : Prop :=
  flow.1.Matches other.1 ∧ flow.2.Matches program other.2

theorem functionStart?_eq (same : stack.Matches program next) :
    functionStart? stack = functionStart? next := by
  unfold functionStart?
  rw [same.kind]
  split
  · next isFunction => exact same.current.top.outputStart (same.kind.trans isFunction)
  · rfl

theorem stopTrimming_matches {frames others : List Frame}
    (same : Forall₂ Frame.Matches frames others) :
    Forall₂ Frame.Matches (stopTrimming frames) (stopTrimming others) := by
  induction same with
  | nil => exact .nil
  | @cons frame other below rest head tail ih =>
    unfold stopTrimming
    by_cases isFunction : other.kind = .function
    · rw [if_pos isFunction, if_pos (head.kind.trans isFunction)]
      exact .cons { head with outputStart := fun _ => rfl } ih
    · rw [if_neg isFunction, if_neg (head.kind ▸ isFunction)]
      exact .cons head tail

theorem stopFunctionTrimming_matches (same : stack.Matches program next) :
    (stopFunctionTrimming stack).Matches program (stopFunctionTrimming next) := by
  have stopped := stopTrimming_matches (.cons same.current.top same.current.below)
  unfold stopFunctionTrimming Thread.frames
  generalize stopTrimming (stack.current.top :: stack.current.below) = frames at stopped
  generalize stopTrimming (next.current.top :: next.current.below) = others at stopped
  cases stopped with
  | nil => exact same
  | cons top below => exact { same with current := { same.current with top := top, below := below } }

namespace Matches

section

variable (same : output.Matches other)

include same

theorem length : output.length = other.length :=
  congrArg List.length same.stream

theorem endsInNewline : output.endsInNewline = other.endsInNewline := by
  unfold Output.endsInNewline
  rw [same.stream]

theorem inString : output.inString = other.inString := by
  unfold Output.inString
  rw [same.stream]

theorem hasText : output.hasText = other.hasText := by
  unfold Output.hasText
  rw [same.stream]

theorem known : output.known.Matches other.known :=
  ⟨same.stream, same.text, same.tags⟩

end

theorem ofStream {stream others : List Content} (same : stream = others) :
    (ofStream stream).Matches (ofStream others) := by
  rw [same]
  exact matches_refl _

section

variable (same : output.Matches other)

include same

section

variable (sameStack : stack.Matches program next)

include sameStack

/-- Adding a text to flows that match leaves such. -/
theorem pushText (content : Content) :
    SameFlow program (output.pushText stack content) (other.pushText next content) := by
  have unchanged : SameFlow program (output, stack) (other, next) := ⟨same, sameStack⟩
  have added (stream : List Content) :
      SameFlow program (Output.ofStream stream, stack) (Output.ofStream stream, next) :=
    ⟨matches_refl _, sameStack⟩
  unfold Output.pushText
  rw [same.stream, functionStart?_eq sameStack, same.endsInNewline, same.hasText]
  refine related_ite (related_ite unchanged (related_ite ⟨matches_refl _, ?_⟩ (added _)))
    (related_ite unchanged (added _))
  exact related_ite (stopFunctionTrimming_matches sameStack) sameStack

theorem pushOne (content : Content) :
    SameFlow program (output.pushOne stack content) (other.pushOne next content) := by
  unfold Output.pushOne
  rw [same.stream]
  exact related_ite ⟨matches_refl _, sameStack⟩
    (related_ite (same.pushText sameStack content) ⟨matches_refl _, sameStack⟩)

theorem push (content : Content) :
    SameFlow program (output.push stack content) (other.push next content) := by
  unfold Output.push
  split
  · next parts split =>
    clear split
    induction parts generalizing output other stack next with
    | nil => exact ⟨same, sameStack⟩
    | cons part rest ih =>
      obtain ⟨sameOutput, sameStack⟩ :=
        same.pushOne sameStack (Content.ofText (String.ofList part))
      exact ih sameOutput sameStack
  · exact same.pushOne sameStack content

/-- Blanks are trimmed alike where a function ends. -/
theorem leaveFunction (isFunction : next.frame.kind = .function) :
    (output.leaveFunction stack).Matches (other.leaveFunction next) := by
  unfold Output.leaveFunction
  rw [same.stream, show stack.frame.outputStart = next.frame.outputStart from
    sameStack.current.top.outputStart (sameStack.kind.trans isFunction)]
  exact matches_refl _

end

theorem endString : output.endString = other.endString := by
  unfold Output.endString splitString
  rw [same.stream]

theorem endTag : output.endTag = other.endTag := by
  unfold Output.endTag
  rw [same.stream]

end

end Matches

end Output

end InkStory
