import InkStory.Proofs.Outcomes
import InkStory.Story.Saves

/-! # Loads that fail

A save is read as a whole before anything of it is taken over, except for the objects on its
evaluation stack and in its output: those are read when the story has already moved. A load that
fails on one of them leaves the story where the save says, with the saved choices and globals, and
all else as it was; a load that fails before changes nothing. -/

namespace InkStory

variable {text : String} {state : State} {error : Error}

/-- Nothing is taken over before the flow of the save is restored. -/
theorem Run.load_apply (program : Program) (text : String) (state : State) :
    Run.load program text state =
      match Save.open program text with
      | .ok (save, flow) => Run.takeOver program save flow state
      | .error error => .error error state := by
  simp only [Run.load]
  cases Save.open program text <;> rfl

/-- Taking over a save fails where an object on its evaluation stack or in its output cannot be
read. -/
theorem Run.takeOver_eq_error_iff (program : Program) (save : Save) (flow : SavedFlow)
    (state left : State) (error : Error) :
    Run.takeOver program save flow state = .error error left ↔
      save.evaluation.mapM Content.restore = .error error ∧ left = state.takeFlow flow ∨
      ∃ evaluation, save.evaluation.mapM Content.restore = .ok evaluation ∧
        save.output.mapM Content.restore = .error error ∧
        left = { state.takeFlow flow with evaluation := evaluation.reverse } := by
  simp only [Run.takeOver, bind_apply, modify_apply]
  cases save.evaluation.mapM Content.restore with
  | error found => simp [ofExcept_error, eq_comm]
  | ok evaluation =>
    simp only [ofExcept_ok]
    cases save.output.mapM Content.restore with
    | error found => simp [ofExcept_error, eq_comm]
    | ok output => simp [ofExcept_ok]

theorem Run.load_eq_error_iff (program : Program) (text : String) (state left : State)
    (error : Error) :
    Run.load program text state = .error error left ↔
      Save.open program text = .error error ∧ left = state ∨
      ∃ save flow, Save.open program text = .ok (save, flow) ∧
        Run.takeOver program save flow state = .error error left := by
  rw [Run.load_apply]
  cases Save.open program text with
  | error found => simp [eq_comm]
  | ok opened =>
    obtain ⟨save, flow⟩ := opened
    simp [and_assoc]

/-- A load that succeeds takes over all of a save whose objects can be read. -/
theorem Run.load_eq_ok_iff (program : Program) (text : String) (state after : State) :
    Run.load program text state = .ok () after ↔
      ∃ save flow evaluation output, Save.open program text = .ok (save, flow) ∧
        save.evaluation.mapM Content.restore = .ok evaluation ∧
        save.output.mapM Content.restore = .ok output ∧
        after = State.takeCounts program save flow
          { state.takeFlow flow with
            evaluation := evaluation.reverse, output := Output.ofList output } := by
  rw [Run.load_apply]
  cases Save.open program text with
  | error found => simp
  | ok opened =>
    obtain ⟨save, flow⟩ := opened
    simp only [Run.takeOver, bind_apply, modify_apply]
    cases evaluation : save.evaluation.mapM Content.restore with
    | error found => simp [ofExcept_error, evaluation]
    | ok evaluated =>
      simp only [ofExcept_ok]
      cases output : save.output.mapM Content.restore with
      | error found => simp [ofExcept_error, output]
      | ok written =>
        constructor
        · rintro ⟨⟩
          exact ⟨save, flow, evaluated, written, rfl, evaluation, output, rfl⟩
        · rintro ⟨_, _, _, _, ⟨⟩, onStack, inOutput, rfl⟩
          cases evaluation.symm.trans onStack
          cases output.symm.trans inOutput
          rfl

namespace State

theorem takeCounts_globals (program : Program) (save : Save) (flow : SavedFlow) (state : State) :
    (state.takeCounts program save flow).globals = state.globals ∧
      (state.takeCounts program save flow).patch = none := by
  have warned (warnings : List Warning) (state : State) :
      (warnings.foldl (fun state warning => state.warn program warning) state).globals =
          state.globals ∧
        (warnings.foldl (fun state warning => state.warn program warning) state).patch =
          state.patch := by
    induction warnings generalizing state with
    | nil => exact ⟨rfl, rfl⟩
    | cons warning rest ih => exact ih (state.warn program warning)
  exact warned flow.warnings _

end State

namespace Run

variable {program : Program} {after : State}

theorem load_ok (loaded : load program text state = .ok () after) :
    ∃ saved, after.globals = state.globals.load saved ∧ after.patch = none := by
  obtain ⟨save, flow, evaluation, output, -, -, -, rfl⟩ := (load_eq_ok_iff ..).mp loaded
  exact ⟨flow.globals, State.takeCounts_globals program save flow _⟩

theorem load_error (failed : load program text state = .error error after) :
    after.patch = state.patch ∧
      (after = state ∨ ∃ saved, after.globals = state.globals.load saved) := by
  rcases (load_eq_error_iff ..).mp failed with ⟨-, rfl⟩ | ⟨save, flow, -, taken⟩
  · exact ⟨rfl, .inl rfl⟩
  · rcases (takeOver_eq_error_iff ..).mp taken with ⟨-, rfl⟩ | ⟨evaluation, -, -, rfl⟩
    · exact ⟨rfl, .inr ⟨flow.globals, rfl⟩⟩
    · exact ⟨rfl, .inr ⟨flow.globals, rfl⟩⟩

/-- Changes are noted behind a load as they were before it. -/
theorem notes_load (program : Program) (text : String) (state : State) :
    (leaves (load program text state)).globals.batch = state.globals.batch ∧
      (leaves (load program text state)).globals.unbatched = state.globals.unbatched := by
  cases outcome : load program text state with
  | ok value after =>
    obtain ⟨saved, globals, -⟩ := load_ok outcome
    rw [leaves, globals]
    exact ⟨rfl, rfl⟩
  | error error after =>
    rw [leaves]
    obtain ⟨-, rfl | ⟨saved, globals⟩⟩ := load_error outcome
    · exact ⟨rfl, rfl⟩
    · rw [globals]
      exact ⟨rfl, rfl⟩

end Run

namespace Play

variable {story left : Story}

theorem onState_eq_error_iff {run : Run α} :
    onState run story = .error error left ↔
      ∃ state, run story.state = .error error state ∧
        left = story.modifyState fun _ => state := by
  rw [onState_apply]
  cases run story.state with
  | ok value state => simp
  | error found state =>
    simp [Story.modifyState, eq_comm]

theorem load_eq_error_iff (complete : story.inLine = false) :
    load text story = .error error left ↔
      onState (Run.load story.program text) story = .error error left := by
  have allowed : requireLineEnd "load a saved state" story = .ok () story := by
    simp [requireLineEnd_apply, complete]
  simp only [load, bind_apply, allowed, get_apply, modify_apply]
  cases onState (Run.load story.program text) story with
  | ok value after => simp
  | error found after => rfl

/-- Between lines, a story is loaded where its state is. -/
theorem load_of_run (complete : story.inLine = false)
    (run : Run.load story.program text story.state = .ok () state) :
    load text story = .ok () { story with state := state, snapshot := none } := by
  have allowed : requireLineEnd "load a saved state" story = .ok () story := by
    simp [requireLineEnd_apply, complete]
  simp only [load, bind_apply, allowed, get_apply, onState_apply, run, modify_apply]

theorem load_unfinished (unfinished : story.inLine) :
    load text story = .error (.lineUnfinished "load a saved state") story := by
  simp only [load, bind_apply, requireLineEnd_apply, unfinished, if_true]

end Play

end InkStory
