import InkStory.Proofs.Walks
import InkStory.Proofs.WithinStrings

/-! # What stands before a string

While a string is built, whatever the story evaluates, the objects before it are kept but for blanks
at their end, and all of them are kept if and only if no function that is left on the way takes such a
blank (`Story.before_string_kept_iff`). An object that neither begins nor ends a string nor leaves a
function writes within the string at most, and where functions are left, by a command or when they
reach their end, is listed for each step. -/

namespace InkStory

open Option Play Run

variable {content : Content} {program : Program} {state after : State} {before : List Content}
  {depth : Nat} {place : Place}

theorem Content.eq_of_quotes (quotes : content.quotes) :
    content = .command .beginString ∨ content = .command .endString ∨
      content = .command .returnFromFunction := by
  cases content with
  | command inner => cases inner <;> simp_all [Content.quotes, Command.quotes]
  | _ => contradiction

/-- Anything may be done but to begin and end strings and to leave functions. -/
abbrev Limits.unquoted : Limits := ⟨fun _ => True, fun _ => True, False⟩

namespace State

open Output

variable {spared : Prop}

/-! ### Objects within a string -/

theorem Alters.within (change : Alters program .unquoted state after)
    (within : Within before depth spared state.output.stream) :
    Within before depth spared after.output.stream := by
  cases change with
  | emit content plain inside => exact within.push (inside.resolve_left id)
  | endTag ended => exact within.endTag ended
  | trim allowed => exact allowed.elim
  | endString allowed => exact allowed.elim
  | visit visits =>
    rw [(counted_visitAll program state visits).eq]
    exact within
  | _ => exact within

end State

namespace Run

open State

/-- Only functions have their output trimmed. -/
theorem output_returnFrom {kind : FrameKind}
    (returned : returnFrom program kind none state = .ok () after) :
    after.output =
      if state.callStack.frame.kind = .function then state.output.leaveFunction state.callStack
      else state.output := by
  rcases returnFrom_eq_ok returned with ⟨waits, rfl⟩ | ⟨-, -, _, left, ended⟩
  · rw [if_neg (by simp [beq_iff_eq.mp waits])]
    rfl
  · cases ended
    rw [leaveFrame_eq_ok left]

end Run

namespace Play

open Output

variable {story after : Story} {spared : Prop}

theorem within_of_affects
    (affects : Story.Affects .unquoted (fun _ => True) story after)
    (within : Within before depth spared story.state.output.stream) :
    Within before depth spared after.state.output.stream := by
  cases affects with
  | change changed => exact changed.within within
  | call | defer => exact within

theorem Affecting.within {play : Play α} {value : α}
    (affecting : Affecting .unquoted (fun _ => True) play story)
    (within : Within before depth spared story.state.output.stream)
    (done : play story = .ok value after) :
    Within before depth spared after.state.output.stream := by
  have reached : (fun story : Story => Within before depth spared story.state.output.stream)
      (leaves (play story)) :=
    affecting.invariant (fun _ _ => within_of_affects) within
  rwa [done] at reached

/-- Most objects write within a string at most. -/
theorem affecting_carryOut (holds : story.program.Holds place content)
    (unquoted : ¬content.quotes) :
    Affecting .unquoted (fun _ => True) (carryOut place content) story := by
  have performing : Affecting .unquoted (fun _ => True)
      (onState (performContent story.program place content)) story :=
    evaluating_onState (changing_performContent holds.hasPlace (fun _ _ => trivial)
      (fun _ _ => trivial) fun quotes => absurd quotes unquoted)
  have delivers {after : Story} (same : after.program = story.program) :
      Affecting .unquoted (fun _ => True) (deliverHere story.program place content) after := by
    refine .get_bind ?_
    split
    · refine evaluating_onState ?_
      rw [same]
      exact (calm_deliver holds).changing
    · exact .pure _
  refine .get_bind (.bind performing fun request middle performed => ?_)
  have same := program_of_evaluating performing performed
  cases request with
  | none => exact delivers same
  | some request =>
    have calling : Affecting .unquoted (fun _ => True)
        (callHost request.function request.arguments) middle :=
      evaluating_callHost request.arguments (fun _ _ => trivial) trivial
    exact .bind calling fun _ _ called =>
      delivers ((program_of_evaluating calling called).trans same)

/-- A command is carried out by performing it. -/
theorem carryOut_command (place : Place) (command : Command) (story : Story) :
    carryOut place (.command command) story =
      onState (Run.perform story.program command) story := by
  simp only [carryOut, bind_apply, get_apply, onState_apply, performContent]
  cases Run.perform story.program command story.state with
  | error error state => rfl
  | ok value state =>
    dsimp only
    rw [pure_apply]
    dsimp only
    rw [bind_apply, get_apply]
    dsimp only
    split <;> rfl

/-- Within a string, a step is not followed by a look at the line. -/
theorem singleStep_eq_ok {answer : Bool} (taken : singleStep story = .ok answer after)
    (within : ∀ next, story.Takes next → Within before depth spared next.state.output.stream) :
    Within before depth spared after.state.output.stream := by
  obtain ⟨_, next, stepped, taken⟩ := bind_eq_ok_iff.mp taken
  obtain ⟨_, left, leaving, taken⟩ := bind_eq_ok_iff.mp taken
  have reached := Affecting.within evaluating_leaveDeadEnd (within next (takes_of_step stepped))
    leaving
  have same : checkLine left = .ok false left := by
    simp only [checkLine, bind_apply, get_apply, reached.inString]
    rfl
  cases same.symm.trans taken
  exact reached

end Play

namespace State

open Output

variable {spared : Prop}

/-! ### Functions that are left -/

/-- The running function takes a blank from the first objects of the output, if it is left here. -/
def Strips (state : State) (limit : Nat) : Prop :=
  Output.Strips (state.callStack.frame.outputStart.getD 0) limit state.output.stream

instance (state : State) (limit : Nat) : Decidable (state.Strips limit) :=
  inferInstanceAs (Decidable (Output.Strips _ _ _))

/-- Moving on leaves a function that reached its end. -/
def endsFunction (program : Program) (state : State) : Bool :=
  let moved := (state.setPrevious state.pointer).increment program
  state.diverted.isNone && moved.pointer.isNone && moved.callStack.canPopKind .function

/-- The states in which moving on leaves functions, fewer than `limit` of them. -/
def functionsEnded (program : Program) : Nat → State → List State
  | 0, _ => []
  | limit + 1, state =>
    (if state.endsFunction program then [state] else []) ++
      if state.leavesOne program then (state.moveOnWithin program 1).functionsEnded program limit else []

theorem output_visitEntered (program : Program) (state : State) :
    (state.visitEntered program).output = state.output := by
  rw [(counted_visitEntered program state).eq]

theorem kept_increment (program : Program) (state : State) :
    (state.increment program).output = state.output ∧
      (state.increment program).callStack.frame.outputStart = state.callStack.frame.outputStart := by
  unfold increment
  split <;> exact ⟨rfl, rfl⟩

theorem stream_returnFromFunction (state : State) :
    state.returnFromFunction.output.stream =
      trimFunctionEnd (state.callStack.frame.outputStart.getD 0) state.output.stream := by
  unfold returnFromFunction
  dsimp only
  split <;> rfl

/-- Moving on changes the output where a function is left only. -/
theorem stream_moveOnce (program : Program) (state : State) :
    (state.moveOnWithin program 1).output.stream =
      if state.endsFunction program then
        trimFunctionEnd (state.callStack.frame.outputStart.getD 0) state.output.stream
      else state.output.stream := by
  obtain ⟨same, start⟩ := kept_increment program (state.setPrevious state.pointer)
  change _ = state.output at same
  change _ = state.callStack.frame.outputStart at start
  have nowhere : (state.setPrevious state.pointer).diverted = state.diverted := rfl
  cases away : state.diverted with
  | some pointer =>
    simp only [moveOnWithin, endsFunction, nowhere, away, output_visitEntered]
    rfl
  | none =>
    simp only [moveOnWithin, endsFunction, nowhere, away, ite_self]
    rw [← same, ← start]
    generalize (state.setPrevious state.pointer).increment program = moved
    cases there : moved.pointer with
    | some pointer => simp
    | none =>
      simp only [unwind?, isSome_none, isNone_none, Bool.true_and,
        Bool.false_eq_true, if_false]
      by_cases ends : moved.callStack.canPopKind .function
      · rw [if_pos ends, if_pos ends]
        exact stream_returnFromFunction moved
      · rw [if_neg ends, if_neg ends]
        by_cases waits : moved.callStack.canPopThread
        · rw [if_pos waits]
        · rw [if_neg waits]
          dsimp only
          split <;> rfl

theorem within_moveOnWithin (program : Program) (limit : Nat)
    (within : Within before depth spared state.output.stream) :
    Within before depth (spared ∧ ∀ left ∈ state.functionsEnded program limit, ¬ left.Strips before.length)
      (state.moveOnWithin program limit).output.stream := by
  induction limit generalizing state spared with
  | zero => exact within.of_iff (by simp [functionsEnded])
  | succ limit ih =>
    have once : Within before depth (spared ∧ ∀ left ∈
        if state.endsFunction program then [state] else [], ¬ left.Strips before.length)
        (state.moveOnWithin program 1).output.stream := by
      rw [stream_moveOnce]
      split
      · exact (within.trimFunctionEnd _).of_iff (by simp [Strips])
      · exact within.of_iff (by simp)
    rw [moveOnWithin_succ, functionsEnded, List.forall_mem_append, ← and_assoc]
    by_cases goesOn : state.leavesOne program
    · rw [if_pos goesOn, if_pos goesOn]
      exact ih once
    · rw [if_neg goesOn, if_neg goesOn]
      exact once.of_iff (by simp)

end State

namespace Story

open Output

variable {start story next last : Story} {steps : List Story} {deeper : Nat} {spared : Prop}
  {command : Command}

/-- The next step performs a command. -/
def performs (story : Story) (command : Command) : Bool :=
  story.object?.any fun object => object.2 = .command command

/-- The state in which the next step returns from a function by a command, if it does. -/
def returned (story : Story) : List State :=
  if story.performs .returnFromFunction ∧
      story.descended.state.callStack.frame.kind = .function then [story.descended.state]
  else []

/-- The states in which the next step leaves functions, by a command or at their ends. -/
def functionsLeft (story : Story) : List State :=
  story.returned ++
    if story.carriedOut.state.pointer.isNone then []
    else
      story.carriedOut.state.functionsEnded story.program story.carriedOut.state.callStack.frameCount

theorem output_descended (story : Story) : story.descended.state.output = story.state.output := by
  unfold descended
  split
  · next start _ =>
    rw [modifyState, (State.counted_descend _ _ start).eq]
    rfl
  · rfl

theorem performs_of_object (object : story.object? = some (place, content)) :
    story.performs command = decide (content = .command command) := by
  rw [performs, object]
  rfl

theorem exists_place (does : story.performs command) :
    ∃ place, story.object? = some (place, .command command) := by
  cases object : story.object? with
  | none =>
    rw [performs, object] at does
    contradiction
  | some found =>
    obtain ⟨place, content⟩ := found
    rw [performs_of_object object, decide_eq_true_iff] at does
    exact ⟨place, by rw [does]⟩

/-- A command that is carried out is performed. -/
theorem onState_perform (does : story.performs command) :
    story.carriedOut =
      leaves (onState (perform story.program command) story.descended) := by
  obtain ⟨place, object⟩ := exists_place does
  rw [carriedOut, object]
  dsimp only
  rw [carryOut_command, program_descended]

theorem Takes.perform (taken : story.Takes next) (does : story.performs command) :
    Run.perform story.program command story.descended.state = .ok () story.carriedOut.state := by
  obtain ⟨place, object⟩ := exists_place does
  have carried := taken.carried object
  rw [carryOut_command, program_descended] at carried
  exact (onState_eq_ok carried).1

/-- The beginning of a string is added to the output. -/
theorem Takes.stream_beginString (taken : story.Takes next)
    (begins : story.performs .beginString) :
    story.carriedOut.state.output.stream = .command .beginString :: story.state.output.stream := by
  obtain ⟨-, performed⟩ := of_refused (taken.perform begins)
  rw [← (EStateM.Result.ok.inj performed).2, ← output_descended story]
  rfl

/-- The end of a string takes it out of the output. -/
theorem output_endString (ends : story.performs .endString) :
    story.carriedOut.state.output = story.state.output.endString.2 := by
  rw [onState_perform ends, ← output_descended story]
  rfl

/-- A return from a function trims its output. -/
theorem Takes.stream_return (taken : story.Takes next)
    (returns : story.performs .returnFromFunction) :
    story.carriedOut.state.output.stream =
      if story.descended.state.callStack.frame.kind = .function then
        trimFunctionEnd (story.descended.state.callStack.frame.outputStart.getD 0)
          story.state.output.stream
      else story.state.output.stream := by
  have performed : returnFrom story.program .function none story.descended.state =
      .ok () story.carriedOut.state := taken.perform returns
  rw [output_returnFrom performed, ← output_descended story]
  split <;> rfl

/-- Carrying out the next object keeps to the string, but for a function that returns. -/
theorem Takes.within_carriedOut (taken : story.Takes next)
    (level : deeper + (story.performs .endString).toNat =
      depth + (story.performs .beginString).toNat)
    (within : Within before depth spared story.state.output.stream) :
    Within before deeper (spared ∧ ∀ left ∈ story.returned, ¬ left.Strips before.length)
      story.carriedOut.state.output.stream := by
  by_cases returns : story.performs .returnFromFunction
  · obtain ⟨place, object⟩ := exists_place returns
    have same : deeper = depth := by simpa [performs_of_object object] using level
    subst same
    rw [taken.stream_return returns, Story.returned]
    simp only [returns, true_and]
    split
    · refine (within.trimFunctionEnd _).of_iff ?_
      simp [State.Strips, output_descended]
    · exact within.of_iff (by simp)
  · suffices kept : Within before deeper spared story.carriedOut.state.output.stream by
      exact kept.of_iff (by simp [Story.returned, returns])
    by_cases begins : story.performs .beginString
    · obtain ⟨place, object⟩ := exists_place begins
      have nests : deeper = depth + 1 := by simpa [performs_of_object object] using level
      subst nests
      rw [taken.stream_beginString begins]
      exact within.nest
    · by_cases ends : story.performs .endString
      · obtain ⟨place, object⟩ := exists_place ends
        have unnests : deeper + 1 = depth := by simpa [performs_of_object object] using level
        subst unnests
        rw [output_endString ends]
        exact within.endString
      · have same : deeper = depth := by simpa [begins, ends] using level
        subst same
        rw [← output_descended story] at within
        cases object : story.object? with
        | none =>
          rw [carriedOut, object]
          exact within
        | some found =>
          obtain ⟨place, content⟩ := found
          simp only [performs_of_object object, decide_eq_true_eq] at returns begins ends
          have unquoted : ¬content.quotes := fun quotes =>
            (Content.eq_of_quotes quotes).elim begins (·.elim ends returns)
          exact (affecting_carryOut (holds_of_object object) unquoted).within within
            (taken.carried object)

/-- A step keeps to the string, but for the functions that it leaves. -/
theorem Takes.within (taken : story.Takes next)
    (carried : Within before depth
      (spared ∧ ∀ left ∈ story.returned, ¬ left.Strips before.length)
      story.carriedOut.state.output.stream) :
    Within before depth (spared ∧ ∀ left ∈ story.functionsLeft, ¬ left.Strips before.length)
      next.state.output.stream := by
  rw [taken.state, movedOn, functionsLeft, List.forall_mem_append, ← and_assoc]
  split
  · exact carried.of_iff (by simp)
  · have moved := State.within_moveOnWithin story.program
      story.carriedOut.state.callStack.frameCount carried
    split
    · exact moved
    · exact moved

/-- The stories that take single steps to the end of the string that is built, within `depth` strings
more, fewer than `limit` of them, and the story at the end. -/
def build? : Nat → Nat → Story → Option (List Story × Story)
  | 0, _, _ => none
  | limit + 1, depth, story =>
    if story.performs .endString ∧ depth = 0 then some ([], story)
    else
      match singleStep story with
      | .ok _ next =>
        (next.build? limit (depth + (story.performs .beginString).toNat -
          (story.performs .endString).toNat)).map fun (steps, last) => (story :: steps, last)
      | .error _ _ => none

/-- The stories that take single steps from the beginning of a string to its end, and the story
there. -/
def string? (limit : Nat) (start : Story) : Option (List Story × Story) :=
  if start.performs .beginString then
    match singleStep start with
    | .ok _ next => (next.build? limit 0).map fun (steps, last) => (start :: steps, last)
    | .error _ _ => none
  else none

/-- The objects before the string are spared as long as no function takes a blank of them. -/
theorem within_of_build? {limit : Nat} (within : Within before depth spared story.state.output.stream)
    (found : story.build? limit depth = some (steps, last)) :
    last.performs .endString ∧
      Within before 0 (spared ∧ ∀ step ∈ steps, ∀ left ∈ step.functionsLeft,
        ¬ left.Strips before.length) last.state.output.stream := by
  induction limit generalizing depth spared story steps with
  | zero => contradiction
  | succ limit ih =>
    rw [build?] at found
    split at found
    · next complete =>
      cases found
      obtain ⟨ends, rfl⟩ := complete
      exact ⟨ends, within.of_iff (by simp)⟩
    · next incomplete =>
      split at found
      · next stepped =>
        obtain ⟨⟨others, _⟩, found, same⟩ := map_eq_some_iff.mp found
        cases same
        have level : (story.performs .endString).toNat ≤ depth := by
          cases ends : story.performs .endString with
          | false => exact Nat.zero_le _
          | true => exact Nat.pos_of_ne_zero fun none => incomplete ⟨ends, none⟩
        have taking {next : Story} (taken : story.Takes next) :=
          taken.within (taken.within_carriedOut (Nat.sub_add_cancel (by omega)) within)
        obtain ⟨ends, kept⟩ := ih (singleStep_eq_ok stepped fun next => taking) found
        exact ⟨ends, kept.of_iff (by rw [List.forall_mem_cons, and_assoc])⟩
      · contradiction

/-- The output when a string is complete is what stood before it, and tags; of that, only blanks at the
end may be gone, and they are if and only if a function that was left on the way takes one. -/
theorem before_string_kept_iff {limit : Nat} (built : start.string? limit = some (steps, last)) :
    last.performs .endString = true ∧
      ∃ tags kept, last.carriedOut.state.output.stream = tags ++ kept ∧
        (∀ content ∈ tags, isTag content = true) ∧
        Sheds start.state.output.stream kept ∧
        (kept = start.state.output.stream ↔
          ∀ step ∈ steps, ∀ left ∈ step.functionsLeft,
            ¬ left.Strips start.state.output.stream.length) := by
  rw [string?] at built
  split at built
  · next begins =>
    split at built
    · next stepped =>
      obtain ⟨⟨others, _⟩, found, same⟩ := map_eq_some_iff.mp built
      cases same
      have taking {next : Story} (taken : start.Takes next) :
          Within start.state.output.stream 0
            (True ∧ ∀ left ∈ start.functionsLeft,
              ¬ left.Strips start.state.output.stream.length)
            next.state.output.stream := by
        refine taken.within ?_
        rw [taken.stream_beginString begins]
        obtain ⟨place, object⟩ := exists_place begins
        exact (Within.begin _).of_iff (by simp [returned, performs_of_object object])
      obtain ⟨ends, kept⟩ :=
        within_of_build? (Play.singleStep_eq_ok stepped fun next => taking) found
      refine ⟨ends, ?_⟩
      rw [output_endString ends, List.forall_mem_cons]
      exact (kept.of_iff (by rw [true_and])).exists_endString
    · contradiction
  · contradiction

/-- A string of what a function writes. -/
def quoted (function : String) : List Content :=
  [.command .beginEvaluation, .command .beginString, .command .beginEvaluation,
    .divert { target := .path (Path.parse function), pushes := some .function },
    .command .outputValue, .command .endEvaluation, .command .endString, .command .dropValue,
    .command .endEvaluation]

/-- A story with a string of what a function writes. One function writes a word, and the other makes a
string of it. -/
def quotingProgram (function : String) : Program where
  root :=
    .mk none {}
      (([Content.ofText "Hello", .ofText " "] ++ quoted function ++
        [Content.ofText "world", .command .done]).map .content)
      [("f", .mk (some "f") {} [.content (.ofText "x")] []),
        ("g", .mk (some "g") {} ((quoted "f").map .content) [])]

/-- The story where the string begins. -/
def quoting (function : String) : Story where
  program := quotingProgram function
  config := {}
  state :=
    { callStack :=
        { current :=
            { top := { pointer := some ⟨[], some 3⟩, kind := .tunnel, evaluating := true } } }
      output := ofStream [.ofText " ", .ofText "Hello"] }

/-- The function is left within the string, and the blank before the string is kept. -/
theorem quoted_word_spares :
    ∃ steps last tags, (quoting "f").string? 10 = some (steps, last) ∧
      (∃ step ∈ steps, step.functionsLeft ≠ []) ∧
      last.carriedOut.state.output.stream = tags ++ [.ofText " ", .ofText "Hello"] ∧
      ∀ content ∈ tags, isTag content = true := by
  have passed : ((quoting "f").string? 10).any (fun run =>
      decide (∃ step ∈ run.1, step.functionsLeft ≠ []) &&
        decide (∀ step ∈ run.1, ∀ left ∈ step.functionsLeft, ¬ left.Strips 2)) = true := by
    decide +kernel
  obtain ⟨⟨steps, last⟩, built, passed⟩ := (any_eq_true _ _).mp passed
  simp only [Bool.and_eq_true, decide_eq_true_eq] at passed
  obtain ⟨leaves, spares⟩ := passed
  obtain ⟨-, tags, kept, split, allTags, -, same⟩ := before_string_kept_iff built
  exact ⟨steps, last, tags, built, leaves, by rw [split, same.mpr spares]; rfl, allTags⟩

/-- The blank before the string is gone, when the string within is complete and the function that
made it is left. -/
theorem quoted_string_strips :
    (quoting "g").state.output.stream = [.ofText " ", .ofText "Hello"] ∧
      ((quoting "g").string? 20).map (fun run => run.2.carriedOut.state.output.stream) =
        some [.ofText "Hello"] :=
  ⟨rfl, by decide +kernel⟩

end Story

end InkStory
