import InkStory.Proofs.Appearances
import InkStory.Proofs.LookingAhead

/-! # Saving in the background

While the host is saving a state that was handed over, a story writes globals and counts apart. As
long as it assigns only globals that are declared, nobody can tell: whatever the host does, with or
without saves in the background, has the same answers and leaves stories that look alike
(`Story.Reachable.background_saves_unseen`). -/

namespace InkStory

/-- Plays of which one may keep its writes apart while the other does not. -/
def Comparison.apart (program : Program) : Comparison where
  program := program
  lockstep := False
  exiting := True
  warned := True
  verbatim := False
  together := id
  bound := False
  journal := []
  otherJournal := []

namespace Operation

/-- An operation that begins or ends a save in the background. -/
def isBackground : Operation → Bool
  | .startBackgroundSave | .endBackgroundSave => true
  | _ => false

/-- An operation that neither replaces the state nor deals with observers. -/
def plays : Operation → Bool
  | .observe _ | .removeObserver _ | .reset | .load _ => false
  | _ => true

theorem comparable_of_plays {operation : Operation} (program : Program)
    (plays : operation.plays) (foreground : operation.isBackground = false) :
    operation.Comparable (.apart program) := by
  cases operation with
  | observe | removeObserver | reset | load => contradiction
  | startBackgroundSave | endBackgroundSave => contradiction
  | unbind => exact id
  | _ => trivial

theorem startBackgroundSave_cases (story : Story) :
    startBackgroundSave.after story = story ∨
      startBackgroundSave.after story =
        { story with state := story.state.startPatch, isSaving := true } := by
  simp only [after, perform, Play.startBackgroundSave, bind_apply, Play.requireLineEnd_apply]
  by_cases unfinished : story.inLine
  · rw [if_pos unfinished]
    exact .inl rfl
  · rw [if_neg unfinished]
    by_cases saving : story.isSaving
    · simp only [get_apply, if_pos saving]
      exact .inl rfl
    · simp only [get_apply, if_neg saving]
      exact .inr rfl

/-- A save in the background, begun or ended, leaves a story that cannot be told apart from one of
which no state was handed over. -/
theorem abreast_background {program : Program} {story other : Story} {operation : Operation}
    (background : operation.isBackground) (same : Story.Abreast (.apart program) story other) :
    Story.Abreast (.apart program) story (operation.after other) := by
  cases operation with
  | startBackgroundSave =>
    have began := startBackgroundSave_cases other
    rcases began with refused | began
    · rw [refused]
      exact same
    · rw [began]
      exact { same with state := same.state.startPatch_right id, saving := False.elim }
  | endBackgroundSave =>
    refine { same with state := ?_, saving := False.elim }
    change State.Matches _ story.state
      (if other.snapshot.isNone then other.state.applyPatch else other.state)
    split
    · exact same.state.applyPatch_right id
    · exact same.state
  | _ => contradiction

end Operation

namespace Story

/-- A story between lines, of which no state is handed over, cannot be told apart from itself. -/
theorem Reachable.abreast_refl {story : Story} (reachable : story.Reachable)
    (complete : story.inLine = false) (free : story.isSaving = false) :
    Abreast (.apart story.program) story story where
  program := rfl
  otherProgram := rfl
  config := rfl
  state := by
    have unpatched := reachable.kept.unpatched free (reachable.idle complete).settled
    exact .refl (.inr unpatched) reachable.kept.state.declared
  snapshot := by
    rw [(reachable.idle complete).settled]
    exact .none
  bindings name := by
    cases story.bindings.get? name with
    | none => exact .none
    | some binding => exact .some ⟨rfl, fun _ _ => rfl⟩
  checked := .inl rfl
  inLine := rfl
  callDeferred := rfl
  saving := False.elim
  observers := False.elim
  journal := False.elim

/-- Saves in the background change nothing that a host sees, observers apart: the other operations
have the same results, with the same texts, tags, choices, errors, warnings, globals and counts
behind them, and the same saves up to their order. -/
theorem Reachable.background_saves_unseen {story : Story} (reachable : story.Reachable)
    (complete : story.inLine = false) (free : story.isSaving = false) (operations : List Operation)
    (plays : ∀ operation ∈ operations, operation.plays = true)
    (declared : ∀ step ∈ story.allSteps
        (operations.filter fun operation => !operation.isBackground), step.AssignsDeclared) :
    List.Forall₂
      (fun plain saving => plain.LooksLike saving ∧
        plain.story.state.warnings = saving.story.state.warnings)
      (story.history (operations.filter fun operation => !operation.isBackground))
      ((story.history operations).filter fun turn => !turn.operation.isBackground) := by
  have same := reachable.abreast_refl complete free
  have turns := same.history_skipping Operation.isBackground reachable.tallied reachable.tallied
    (fun operation _ _ background same => Operation.abreast_background background same)
    (fun operation listed foreground =>
      Operation.comparable_of_plays _ (plays operation listed) foreground)
    (.inr declared)
  exact turns.imp fun plain saving same => ⟨same.looksLike, same.story.state.warnings trivial⟩

/-- Whether a step assigns only globals that are declared. -/
def assignsDeclared (story : Story) : Bool :=
  story.assigned?.all fun name => (story.state.globals.default? name).isSome

theorem AssignsDeclared.of_all {steps : List Story} (passed : steps.all assignsDeclared) :
    ∀ step ∈ steps, step.AssignsDeclared := by
  intro step taken name assigned
  have declared := List.all_eq_true.mp passed step taken
  rw [assignsDeclared, assigned] at declared
  exact declared

open Operation

/-- What a host does with two lines while it is saving. -/
def savingMeanwhile : List Operation :=
  [.startBackgroundSave, .nextLine, .setGlobal "mood" (.int 7), .endBackgroundSave, .nextLine]

theorem background_saves_unseen_in_assignedLine :
    ∃ story : Story, story.Reachable ∧
      (∃ step ∈ story.allSteps [.nextLine, .setGlobal "mood" (.int 7), .nextLine],
        step.assigned? = some "mood") ∧
      List.Forall₂
        (fun plain saving => plain.LooksLike saving ∧
          plain.story.state.warnings = saving.story.state.warnings)
        (story.history [.nextLine, .setGlobal "mood" (.int 7), .nextLine])
        ((story.history savingMeanwhile).filter fun turn => !turn.operation.isBackground) := by
  obtain ⟨story, started, complete, free, declared, assigns⟩ :
      ∃ story, start assignedLine {} = .ok story ∧ story.inLine = false ∧
        story.isSaving = false ∧
        (story.allSteps [.nextLine, .setGlobal "mood" (.int 7), .nextLine]).all assignsDeclared ∧
        ∃ step ∈ story.allSteps [.nextLine, .setGlobal "mood" (.int 7), .nextLine],
          step.assigned? = some "mood" := by
    decide +kernel
  have reachable := Story.Reachable.start started
  have plays : ∀ operation ∈ savingMeanwhile, operation.plays = true := by
    simp [savingMeanwhile, Operation.plays]
  exact ⟨story, reachable, assigns, reachable.background_saves_unseen complete free savingMeanwhile
    plays (.of_all declared)⟩

/-- Two containers with one path, whose visits are counted. -/
@[irreducible]
def onePathTwice : Program where
  root :=
    .mk none {}
      [.content (.command .done),
        .container (.mk (some "a") { visits := true }
          [.content (.ofText "A"), .content (.ofText "\n"), .content (.command .done)] []),
        .container (.mk (some "a") { visits := true }
          [.content (.ofText "B"), .content (.ofText "\n"), .content (.command .done)] []),
        .content (.command .done)] []

/-- Visit the second of two containers, the first, and the second again. -/
def visitBoth : List Operation :=
  [.goTo "2" true [], .nextLine, .goTo "1" true [], .nextLine, .goTo "2" true [], .nextLine]

/-- Of two containers with one path, a save keeps the count of the one that was visited later, or,
while the host is saving, of the one that stands later. -/
theorem onePathTwice_saved_differently :
    ∃ story : Story, story.Reachable ∧ story.inLine = false ∧ story.isSaving = false ∧
      (∀ step ∈ story.allSteps visitBoth, step.AssignsDeclared) ∧
      (story.history visitBoth).getLast?.map (fun turn => turn.story.save.visits) =
        some [("a", 1)] ∧
      (story.history (.startBackgroundSave :: visitBoth)).getLast?.map
        (fun turn => turn.story.save.visits) = some [("a", 2)] := by
  obtain ⟨story, started, complete, free, declared, saved⟩ :
      ∃ story, start onePathTwice {} = .ok story ∧ story.inLine = false ∧
        story.isSaving = false ∧ (story.allSteps visitBoth).all assignsDeclared ∧
        (story.history visitBoth).getLast?.map (fun turn => turn.story.save.visits) =
          some [("a", 1)] ∧
        (story.history (.startBackgroundSave :: visitBoth)).getLast?.map
          (fun turn => turn.story.save.visits) = some [("a", 2)] := by
    decide +kernel
  exact ⟨story, .start started, complete, free, .of_all declared, saved⟩

end Story

end InkStory
