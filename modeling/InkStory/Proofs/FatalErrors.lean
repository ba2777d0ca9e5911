import InkStory.Proofs.LineEnds

/-! # Errors that end a line

A step that fails leaves all threads, frames and choices, and so does a line that stops where it may
not. The story notes one error then. Behind a newline the error stays while the story goes back:
the flow is as it was at the newline, and if it may not stop there the story notes a second error
(`Operation.errors_of_line`). -/

namespace InkStory

variable {state newline : State} {after : Story} {program : Program} {more : Nat}

namespace State

/-- Nothing is left to evaluate or to choose, and the one thread has its root frame only. -/
structure FlowEnded (state : State) : Prop where
  pointer : state.pointer = none
  choices : state.choices = []
  waiting : state.callStack.waiting = []
  below : state.callStack.current.below = []

/-- A story that cannot go on may stop here: no thread waits, and the player can choose or the
story says that it is over. -/
def mayStop (state : State) : Bool :=
  !state.callStack.canPopThread && (!state.choices.isEmpty || state.exitedSafely)

theorem flowEnded_fail (program : Program) (state : State) (error : Error) :
    (state.fail program error).FlowEnded := ⟨rfl, rfl, rfl, rfl⟩

theorem mayStop_fail (program : Program) (state : State) (error : Error) :
    (state.fail program error).mayStop := rfl

theorem errors_fail (program : Program) (state : State) (error : Error) :
    (state.fail program error).errors =
      state.errors ++ [state.report program "ERROR" error.message] := rfl

theorem not_canContinue_of_errors (failed : state.errors ≠ []) :
    state.canContinue = false := by
  unfold canContinue
  cases noted : state.errors with
  | nil => contradiction
  | cons report others => exact Bool.and_false _

/-- No object notes an error by itself. -/
theorem Alters.errors_eq {limits : Limits} {after : State}
    (change : Alters program limits state after) : after.errors = state.errors := by
  cases change with
  | visit visits => rw [(counted_visitAll program state visits).eq]
  | _ => rfl

end State

namespace Story

open State

/-- A story that may not stop where it does ends with one error. -/
theorem checkEnd_eq (program : Program) (state : State) :
    checkEnd program state =
      if state.canContinue || state.mayStop then state
      else
        state.fail program
          (.runtime (if state.callStack.canPopThread then .threadLeft else endFault state)) := by
  unfold checkEnd mayStop
  by_cases goesOn : state.canContinue
  · simp only [goesOn, if_true, Bool.true_or]
  · by_cases waits : state.callStack.canPopThread
    · -- the error ends the story where it may stop, so that no other follows it
      simp [waits, fail, forceEnd]
    · cases chooses : state.choices.isEmpty <;> cases exits : state.exitedSafely <;>
        simp [waits, chooses, exits]

section Flow

variable (story : Story)

theorem settle_flow :
    story.settle.state.callStack = story.state.callStack ∧
      story.settle.state.choices = story.state.choices ∧
      story.settle.state.exitedSafely = story.state.exitedSafely ∧
      story.settle.state.errors = story.state.errors := by
  unfold settle applyPatch
  split
  · exact ⟨rfl, rfl, rfl, rfl⟩
  · dsimp only
    split <;> exact ⟨rfl, rfl, rfl, rfl⟩

/-- Errors stay where a story goes back. -/
theorem errors_rewind : story.rewind.state.errors = story.state.errors := by
  unfold rewind
  split
  · rfl
  · exact (settle_flow _).2.2.2

theorem rewind_settled {story : Story} (settled : story.snapshot = none) :
    story.rewind = story := by
  simp only [rewind, settled]

theorem rewind_flow {story : Story} (pending : story.snapshot = some newline) :
    story.rewind.state.callStack = newline.callStack ∧
      story.rewind.state.choices = newline.choices ∧
      story.rewind.state.exitedSafely = newline.exitedSafely := by
  simp only [rewind, pending]
  obtain ⟨stack, choices, exits, -⟩ := settle_flow
    { story with
      snapshot := none
      state := { newline with errors := story.state.errors, warnings := story.state.warnings } }
  exact ⟨stack, choices, exits⟩

theorem Move.errors_eq {writable : String → Prop} {callable : HostCall → Prop}
    (move : Move writable callable story after) : after.state.errors = story.state.errors := by
  cases move with
  | effect effect =>
    cases effect with
    | change changed => exact changed.errors_eq
    | call | defer => rfl
  | rewind => exact errors_rewind story
  | keepLookahead => exact (settle_flow story).2.2.2
  | _ => rfl

end Flow

/-- The report on the failure of the next step, if that fails, and the state at the newline behind
which it does. -/
def failure? (story : Story) : Option (String × Option State) :=
  match Play.singleStep story with
  | .ok _ _ => none
  | .error error failed =>
    some (failed.state.report failed.program "ERROR" error.message, failed.snapshot)

/-- What errors a line notes whose last step failed as given, and what flow they leave. -/
inductive Fails (state : State) : Option (String × Option State) → Prop where
  | nowhere (clean : state.errors = []) : Fails state none
  /-- The story stopped where it may not. -/
  | atEnd {report : String} (noted : state.errors = [report]) (ended : state.FlowEnded) :
      Fails state none
  | once {report : String} (noted : state.errors = [report]) (ended : state.FlowEnded) :
      Fails state (some (report, none))
  /-- The story went back to a newline where it may stop. -/
  | behind {report : String} {newline : State} (stops : newline.mayStop = true)
      (noted : state.errors = [report]) (stack : state.callStack = newline.callStack)
      (choices : state.choices = newline.choices) : Fails state (some (report, some newline))
  /-- The story went back to a newline where it may not stop. -/
  | twice {report second : String} {newline : State} (stops : newline.mayStop = false)
      (noted : state.errors = [report, second]) (ended : state.FlowEnded) :
      Fails state (some (report, some newline))

section Checked

/-- Where no step failed, the check of the end notes the only error, if any. -/
theorem fails_checkEnd (clean : state.errors = []) : Fails (checkEnd program state) none := by
  rw [checkEnd_eq]
  split
  · exact .nowhere clean
  · apply Fails.atEnd
    · rw [errors_fail, clean]
      rfl
    · exact flowEnded_fail program state _

/-- Where a step failed, the check of the end still asks whether the story may stop. -/
theorem fails_checkEnd_newline {report : String} (noted : state.errors = [report])
    (stack : state.callStack = newline.callStack) (choices : state.choices = newline.choices)
    (exits : state.exitedSafely = newline.exitedSafely) :
    Fails (checkEnd program state) (some (report, some newline)) := by
  have stops : state.mayStop = newline.mayStop := by
    simp only [mayStop, stack, choices, exits]
  have stopped : state.canContinue = false := not_canContinue_of_errors (by simp [noted])
  rw [checkEnd_eq, stopped, stops, Bool.false_or]
  by_cases may : newline.mayStop
  · rw [if_pos may]
    exact .behind may noted stack choices
  · rw [if_neg may]
    apply Fails.twice
    · simpa using may
    · rw [errors_fail, noted]
      rfl
    · exact flowEnded_fail program state _

theorem Fails.endLine {story : Story} {failure : Option (String × Option State)}
    (fails : Fails (checkEnd story.program story.rewind.state) failure) :
    Fails story.endLine.state failure := by
  have same : story.rewind.program = story.program := Play.program_endLine story
  rw [← same] at fails
  have still (ended : (checkEnd story.rewind.program story.rewind.state).FlowEnded) :
      story.endLine.state.FlowEnded :=
    ⟨ended.pointer, ended.choices, ended.waiting, ended.below⟩
  cases fails with
  | nowhere clean => exact .nowhere clean
  | atEnd noted ended => exact .atEnd noted (still ended)
  | once noted ended => exact .once noted (still ended)
  | behind stops noted stack choices => exact .behind stops noted stack choices
  | twice stops noted ended => exact .twice stops noted (still ended)

end Checked

end Story

namespace Play

open State Story

variable {story : Story}

theorem errors_singleStep (story : Story) :
    (leaves (singleStep story)).state.errors = story.state.errors := by
  have moving : Moving (fun _ => True) (fun _ => True) singleStep story :=
    moving_singleStep (fun _ _ => trivial) fun _ _ => trivial
  exact moving.invariant (fun before next move same => move.errors_eq.trans same) rfl

/-- A line goes on with another step where the last one neither went back nor stopped it. -/
theorem runSteps_last {complete : Bool} (run : runSteps more story = .ok complete after) :
    ∃ last wentBack, (stepsFrom more story).getLast? = some last ∧
      reportFailure singleStep last = .ok wentBack after ∧
      complete = (wentBack || !after.canContinue) := by
  induction more generalizing story with
  | zero =>
    obtain ⟨wentBack, middle, step, done⟩ := bind_eq_ok_iff.mp run
    cases done
    exact ⟨story, wentBack, rfl, step, rfl⟩
  | succ more ih =>
    obtain ⟨wentBack, middle, step, rest⟩ := bind_eq_ok_iff.mp run
    obtain ⟨_, _, same, rest⟩ := bind_eq_ok_iff.mp rest
    cases same
    simp only [stepsFrom, step]
    by_cases stops : (wentBack || !middle.canContinue)
    · rw [if_pos stops] at rest ⊢
      cases rest
      exact ⟨story, wentBack, rfl, step, stops.symm⟩
    · rw [if_neg stops] at rest ⊢
      obtain ⟨last, wentBack, listed, rest⟩ := ih rest
      refine ⟨last, wentBack, ?_, rest⟩
      rw [List.getLast?_cons, listed]
      rfl

/-- Every step of a line begins without errors, if the line does. -/
theorem clean_stepsFrom (clean : story.state.errors = []) :
    ∀ step ∈ stepsFrom more story, step.state.errors = [] := by
  refine stepsFrom_invariant (fun before wentBack next _ _ goesOn => ?_) clean
  by_contra failed
  rw [Story.canContinue, not_canContinue_of_errors failed] at goesOn
  contradiction

/-- The errors of a line are decided by its last step and by where it stops. -/
theorem fails_endLine {wentBack : Bool} (clean : story.state.errors = [])
    (step : reportFailure singleStep story = .ok wentBack after) :
    Fails after.endLine.state story.failure? := by
  apply Fails.endLine
  have kept := errors_singleStep story
  unfold reportFailure at step
  unfold failure?
  cases outcome : singleStep story with
  | ok value next =>
    rw [outcome] at step kept
    cases step
    apply fails_checkEnd
    rw [errors_rewind]
    exact kept.trans clean
  | error error failed =>
    rw [outcome] at step kept
    cases step
    have clean : failed.state.errors = [] := kept.trans clean
    have noted : (failed.state.fail failed.program error).errors =
        [failed.state.report failed.program "ERROR" error.message] := by
      rw [errors_fail, clean]
      rfl
    dsimp only
    cases pending : failed.snapshot with
    | none =>
      have settled : (failed.modifyState fun state =>
          state.fail failed.program error).snapshot = none := pending
      rw [rewind_settled settled]
      exact .once noted (flowEnded_fail _ _ _)
    | some newline =>
      have behind : (failed.modifyState fun state =>
          state.fail failed.program error).snapshot = some newline := pending
      obtain ⟨stack, choices, exits⟩ := rewind_flow behind
      exact fails_checkEnd_newline ((errors_rewind _).trans noted) stack choices exits

end Play

namespace Operation

open Play Story

/-- A line that begins without errors notes one at most, which ends the flow, unless a step fails
behind a newline. Then the story goes back to the newline with the error, and notes a second one,
which ends the flow, if it may not stop there. -/
theorem errors_of_line {operation : Operation} {story after : Story}
    (continues : operation.continues = true) (clean : story.state.errors = [])
    (run : operation.perform story = .ok () after) (complete : after.inLine = false) :
    ∃ last, (operation.steps story).getLast? = some last ∧ Fails after.state last.failure? := by
  obtain ⟨partly, more, ready, start, ended, last, required, begun, steps, ran, same, stops⟩ :=
    line_of_perform continues run
  rw [complete] at stops
  subst stops
  subst same
  obtain rfl := eq_of_requireBindings required
  have begins : start.state.errors = [] := by
    obtain ⟨-, rfl⟩ | ⟨-, -, rfl⟩ := beginLine_eq_ok begun <;> exact clean
  obtain ⟨last, wentBack, listed, step, -⟩ := runSteps_last ran
  have still := clean_stepsFrom begins last (List.mem_of_getLast? listed)
  rw [steps]
  exact ⟨last, listed, fails_endLine still step⟩

/-- A line, and behind its newline a step that fails. -/
@[irreducible]
def brokenNextLine : Story where
  program :=
    { root := .mk none {}
        [.content (.ofText "Hello"), .content (.ofText "\n"), .content (.command .dropValue),
          .content (.command .done)] [] }
  config := {}
  state := {}

theorem errors_of_brokenNextLine :
    ∃ after, ∃ last : Story, Operation.nextLine.perform brokenNextLine = .ok () after ∧
      last.failure?.isSome = true ∧ Fails after.state last.failure? := by
  obtain ⟨after, run, complete, failed⟩ :
      ∃ after, Operation.nextLine.perform brokenNextLine = .ok () after ∧ after.inLine = false ∧
        ((Operation.nextLine.steps brokenNextLine).getLast?.bind failure?).isSome := by
    decide +kernel
  have clean : brokenNextLine.state.errors = [] := by decide +kernel
  obtain ⟨last, listed, fails⟩ := errors_of_line rfl clean run complete
  rw [listed] at failed
  exact ⟨after, last, run, failed, fails⟩

/-- One failure behind a newline is noted as two errors. -/
theorem two_errors_for_one_failure :
    ∃ text after, Play.nextLine brokenNextLine = .ok text after ∧
      brokenNextLine.state.errors = [] ∧
      after.state.errors =
        ["RUNTIME ERROR: (2): Tried to pop from an empty evaluation stack",
          "RUNTIME ERROR: (2): ran out of content. Do you need a '-> DONE' or '-> END'?"] := by
  decide +kernel

end Operation

end InkStory
