import InkStory.Proofs.Appearances
import InkStory.Proofs.DeferredCalls

/-! # Visits are not forgotten

No change of a state makes a count smaller (`State.Alters.visitsOf_le`). A story that goes back to a
newline goes back to the counts there, and so a container that was visited when a line began is a
visited one throughout the line, and stays so until the story is reset or loads another state
(`Story.Throughout.visited_allSteps`). -/

namespace InkStory

variable {holds : Story → Prop} {story : Story} {program : Program} {address : Address}
  {partly : Bool} {more : Nat}

variable {operations : List Operation}

namespace State

variable {state after : State}

theorem visitsOf_countVisit (state : State) (address query : Address) :
    (state.countVisit address).visitsOf query =
      if query = address then state.visitsOf address + 1 else state.visitsOf query := by
  have counted := congrArg (fun count => count.getD 0) (visited?_countVisit state address query)
  refine Eq.trans counted ?_
  split <;> rfl

theorem visitsOf_recordTurn (state : State) (address query : Address) :
    (state.recordTurn address).visitsOf query = state.visitsOf query :=
  congrArg (fun count => count.getD 0) (visited?_recordTurn state address query)

theorem visitsOf_write (state : State) (name : String) (value : Value) (query : Address) :
    (state.write name value).visitsOf query = state.visitsOf query :=
  congrArg (fun count => count.getD 0) (visited?_write state name value query)

theorem visitsOf_le_countVisit (state : State) (address query : Address) :
    state.visitsOf query ≤ (state.countVisit address).visitsOf query := by
  rw [visitsOf_countVisit]
  split
  · next same =>
    rw [same]
    exact Nat.le_succ _
  · exact le_rfl

theorem visitsOf_le_visit (state : State) (address : Address) (atStart : Bool) (query : Address) :
    state.visitsOf query ≤ (state.visit program address atStart).visitsOf query := by
  have counted : state.visitsOf query ≤
      (if (program.container address).counting.visits then state.countVisit address
      else state).visitsOf query := by
    split
    · exact visitsOf_le_countVisit state address query
    · exact le_rfl
  unfold visit
  dsimp only
  split
  · exact le_rfl
  · split
    · rwa [visitsOf_recordTurn]
    · exact counted

theorem visitsOf_le_visitAll (state : State) (visits : List (Address × Bool)) (query : Address) :
    state.visitsOf query ≤ (state.visitAll program visits).visitsOf query := by
  induction visits generalizing state with
  | nil => exact le_rfl
  | cons visit rest ih => exact (visitsOf_le_visit state visit.1 visit.2 query).trans (ih _)

/-- No change makes a count smaller. -/
theorem Alters.visitsOf_le {limits : Limits} (change : Alters program limits state after)
    (query : Address) : state.visitsOf query ≤ after.visitsOf query := by
  cases change with
  | visit visits => exact visitsOf_le_visitAll state visits query
  | write name value => exact (visitsOf_write state name value query).ge
  | _ => exact le_rfl

/-- A container was visited. -/
def Visited (address : Address) (state : State) : Prop := 0 < state.visitsOf address

theorem Visited.change {writable : String → Prop} (visited : Visited address state)
    (change : Change program writable state after) : Visited address after :=
  visited.trans_le (change.visitsOf_le address)

theorem Visited.congr (visited : Visited address state)
    (same : after.visitsOf address = state.visitsOf address) : Visited address after := by
  rwa [Visited, same]

end State

/-! ### The steps of an operation -/

namespace Play

open Story

variable
  (acts : ∀ before after, Action (fun _ => True) (fun _ => True) before after →
    holds before → holds after)

include acts

theorem begunSteps_invariant (held : holds story) :
    ∀ step ∈ begunSteps partly more story, holds step := by
  have kept (before : Story) (wentBack : Bool) (next : Story) (held : holds before)
      (taken : reportFailure singleStep before = .ok wentBack next)
      (_ : next.canContinue) : holds next :=
    Keeps.still_ok (.of_leads (acting_reportFailure
      (moving_singleStep (fun _ _ => trivial) fun _ _ => trivial)) acts) held taken
  intro step member
  unfold begunSteps at member
  split at member
  · next start begun =>
    have held := ((KeptInLines.of_actions acts).beginLine partly).still_ok held begun
    exact stepsFrom_invariant kept held step member
  · contradiction

theorem lineSteps_invariant (held : holds story) :
    ∀ step ∈ lineSteps partly more story, holds step := by
  intro step member
  unfold lineSteps at member
  split at member
  · next ready required =>
    have held := Keeps.still_ok (.of_leads (leads_requireBindings fun _ => .check) acts) held required
    exact begunSteps_invariant acts held step member
  · contradiction

theorem linesSteps_invariant {limit : Nat} (held : holds story) :
    ∀ step ∈ linesSteps limit story, holds step := by
  induction limit generalizing story with
  | zero => exact fun _ member => absurd member List.not_mem_nil
  | succ limit ih =>
    intro step member
    rw [linesSteps] at member
    split at member
    · contradiction
    · rcases List.mem_append.mp member with now | later
      · exact lineSteps_invariant acts held step now
      · split at later
        · next next taken =>
          have line : Keeps (fun _ => False) holds nextLine story :=
            .bind (.of_leads (leads_requireBindings fun _ => .check) acts) fun _ _ _ =>
              .bind ((KeptInLines.of_actions acts).wholeLine fun _ _ =>
                ⟨fun _ _ => trivial, fun _ _ => trivial⟩) fun _ _ _ => .get_bind (.pure _)
          exact ih (line.still_ok held taken) step later
        · contradiction

end Play

open Play in
/-- What every action keeps, and a story that is reset as well, holds where an operation takes a
step. -/
theorem Operation.steps_invariant {operation : Operation}
    (acts : ∀ before after, Story.Action (fun _ => True) (fun _ => True) before after →
      holds before → holds after)
    (restarts : operation = .reset → holds story.restarted) (held : holds story) :
    ∀ step ∈ operation.steps story, holds step := by
  intro step member
  cases operation with
  | nextLine => exact lineSteps_invariant acts held step member
  | nextSteps more => exact lineSteps_invariant acts held step member
  | allLines =>
    rw [steps] at member
    split at member
    · contradiction
    · exact linesSteps_invariant acts held step member
  | callFunction name arguments =>
    rw [steps] at member
    split at member
    · next entered =>
      have entering : Keeps (fun _ => False) holds (enterCall name arguments) story :=
        keeps_enterCall arguments (fun changing => .of_leads (acting_onState (changing _)) acts)
          fun _ => acts _ _ .clearOutput
      exact linesSteps_invariant acts (entering.still_ok held entered) step member
    · contradiction
  | reset =>
    rw [steps] at member
    split at member
    · contradiction
    · unfold declarationSteps at member
      split at member
      · split at member
        · next ready placed =>
          have held := Keeps.still_ok
            (.of_leads (acting_onState (Run.changing_choosePath _ _)) acts) (restarts rfl) placed
          exact begunSteps_invariant acts held step member
        · contradiction
      · contradiction
  | _ => exact absurd member List.not_mem_nil

end InkStory
