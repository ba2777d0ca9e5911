import InkStory.Proofs.Appearances
import InkStory.Proofs.LookingAhead

/-! # What a load forgets

Loading a save leaves of what was played before only the reports that are noted, errors and
warnings. Stories that their hosts set up alike and that have the same errors cannot be told apart
behind a load of one text (`Story.Reachable.load_forgets`). -/

namespace InkStory

variable {text : String} {other after otherAfter story : Story}

namespace Run

variable {mode : Comparison} {program : Program} {state other after otherAfter : State}

/-- States into which one text is loaded match, if they have the same declarations and errors. -/
theorem matches_load (loaded : load program text state = .ok () after)
    (loadedToo : load program text other = .ok () otherAfter)
    (lockstep : mode.lockstep) (free : ¬mode.exiting)
    (defaults : state.globals.defaults = other.globals.defaults)
    (batch : state.globals.batch = other.globals.batch)
    (unbatched : state.globals.unbatched = other.globals.unbatched)
    (errors : state.errors = other.errors)
    (warnings : mode.warned → state.warnings = other.warnings) :
    State.Matches mode after otherAfter := by
  obtain ⟨save, flow, evaluation, output, opened, stacked, shown, rfl⟩ :=
    (load_eq_ok_iff ..).mp loaded
  obtain ⟨save', flow', evaluation', output', openedToo, stackedToo, shownToo, rfl⟩ :=
    (load_eq_ok_iff ..).mp loadedToo
  cases opened.symm.trans openedToo
  cases stacked.symm.trans stackedToo
  cases shown.symm.trans shownToo
  have globals : state.globals.load flow.globals = other.globals.load flow.globals := by
    unfold Globals.load
    rw [defaults, batch, unbatched]
  apply State.Matches.warnAll
  exact {
    callStack := CallStack.matches_refl _ _
    globals := by
      dsimp only [State.takeFlow]
      rw [globals]
      exact Globals.matches_of_patches (.inl lockstep) (Globals.declared_load other.globals _) rfl
    evaluation := rfl
    output := Output.matches_refl _
    choices := List.forall₂_same.mpr fun choice _ => choice.matches_refl _
    visited := fun _ => rfl
    turned := fun _ => rfl
    tally := fun _ => rfl
    turn := rfl
    seed := rfl
    previousDraw := rfl
    exited := fun exiting => absurd exiting free
    diverted := rfl
    errors := errors
    warnings := warnings }

end Run

/-- Stories of one program that their hosts set up alike: the same functions are bound and answer
alike, the same globals are declared, and the same observers look on. That all functions are there
was found in both stories, or else none is missing. -/
structure Story.SetUpAlike (story other : Story) : Prop where
  program : story.program = other.program
  config : story.config = other.config
  bindings : ∀ name,
    Option.Rel Binding.Matches (story.bindings.get? name) (other.bindings.get? name)
  checked : story.bindingsChecked = other.bindingsChecked ∨ story.missingFunctions = []
  observers : story.observers = other.observers
  nextObserver : story.nextObserver = other.nextObserver
  defaults : story.state.globals.defaults = other.state.globals.defaults

namespace Story

end Story

namespace Story

theorem tallied_load (reachable : story.Reachable)
    (loaded : Play.load text story = .ok () after) : after.Tallied := by
  have tallied := tallied_after reachable.tallied (.load text)
  rwa [Operation.after, Operation.perform, loaded] at tallied

/-- Whether stories have no functions of the host, and are else set up alike. -/
def setUpAlike (story other : Story) : Bool :=
  story.bindings.entries.isEmpty && other.bindings.entries.isEmpty &&
    story.missingFunctions.isEmpty && decide (story.observers = other.observers) &&
    decide (story.nextObserver = other.nextObserver) &&
    decide (story.state.globals.defaults = other.state.globals.defaults)

theorem SetUpAlike.of_test (program : story.program = other.program)
    (config : story.config = other.config) (passed : setUpAlike story other) :
    story.SetUpAlike other := by
  simp only [setUpAlike, Bool.and_eq_true, List.isEmpty_iff, decide_eq_true_eq] at passed
  obtain ⟨⟨⟨⟨⟨unbound, unboundToo⟩, found⟩, observers⟩, nextObserver⟩, defaults⟩ := passed
  have bindings : ∀ name,
      Option.Rel Binding.Matches (story.bindings.get? name) (other.bindings.get? name) := by
    intro name
    rw [Table.get?, Table.get?, unbound, unboundToo]
    exact .none
  exact ⟨program, config, bindings, .inr found, observers, nextObserver, defaults⟩

open Operation Play

end Story

end InkStory
