import InkStory.Proofs.TextOrder
import InkStory.Proofs.VisitCounts

/-! # What a jump counts

A jump counts visits twice: the containers around the place where it lands, from the innermost
outward, when it lands; and those below, from the outermost inward, when the next step goes down to
an object. Both lists lie on the one way from the root to that object (`Program.around_descend`,
`Program.entered_prefix_enclosing`), which passes no container twice; so none is counted twice, and
the walk outward misses none that was left (`Program.mem_enteredFrom`). -/

namespace InkStory

open List Address Program

variable {program : Program} {address query : Address} {pointer : Pointer} {place : Place}
  {position : Nat}

/-! ### Counts behind visits -/

namespace Program

/-- Whether a visit to a container, at its start or not, is counted. -/
def counts (program : Program) (visit : Address × Bool) : Bool :=
  (program.container visit.1).counting.visits &&
    (visit.2 || !(program.container visit.1).counting.startOnly)

/-- Whether the turn of a visit to a container, at its start or not, is noted. -/
def dates (program : Program) (visit : Address × Bool) : Bool :=
  (program.container visit.1).counting.turns &&
    (visit.2 || !(program.container visit.1).counting.startOnly)

/-- How many of some visits are counted for a container. -/
def countsFor (program : Program) (address : Address) (visits : List (Address × Bool)) : Nat :=
  visits.countP fun visit => visit.1 = address && program.counts visit

/-- Whether one of some visits to a container has its turn noted. -/
def datesFor (program : Program) (address : Address) (visits : List (Address × Bool)) : Bool :=
  visits.any fun visit => visit.1 = address && program.dates visit

variable {visits : List (Address × Bool)}

theorem countsFor_pos_iff :
    0 < program.countsFor address visits ↔
      ∃ visit ∈ visits, visit.1 = address ∧ program.counts visit := by
  simp [countsFor]

/-- Of visits to different containers, one is counted at most. -/
theorem countsFor_le_one (apart : (visits.map Prod.fst).Nodup) :
    program.countsFor address visits ≤ 1 := by
  calc program.countsFor address visits
      ≤ visits.countP (fun visit => visit.1 == address) :=
        countP_mono_left fun visit _ both => by simpa using (Bool.and_eq_true_iff.mp both).1
    _ = (visits.map Prod.fst).count address := by
        rw [count_eq_countP, countP_map]
        rfl
    _ ≤ 1 := nodup_iff_count_le_one.mp apart address

end Program

namespace State

theorem turn_visitAll (state : State) (visits : List (Address × Bool)) :
    (state.visitAll program visits).turn = state.turn := by
  rw [(counted_visitAll program state visits).eq]

theorem visitAll_append (state : State) (visits others : List (Address × Bool)) :
    state.visitAll program (visits ++ others) =
      (state.visitAll program visits).visitAll program others :=
  foldl_append

theorem visit_eq (state : State) (visit : Address × Bool) :
    state.visit program visit.1 visit.2 =
      let counted := if program.counts visit then state.countVisit visit.1 else state
      if program.dates visit then counted.recordTurn visit.1 else counted := by
  unfold State.visit counts dates
  by_cases passedBy :
      ((program.container visit.1).counting.startOnly && !visit.2)
  · rw [if_pos passedBy]
    simp only [Bool.and_eq_true, Bool.not_eq_true'] at passedBy
    simp [passedBy]
  · rw [if_neg passedBy]
    have taken : (visit.2 || !(program.container visit.1).counting.startOnly) := by
      simpa [or_iff_not_imp_right] using passedBy
    rw [taken, Bool.and_true, Bool.and_true]

theorem visitsOf_visit (state : State) (visit : Address × Bool) (query : Address) :
    (state.visit program visit.1 visit.2).visitsOf query =
      state.visitsOf query + if visit.1 = query ∧ program.counts visit then 1 else 0 := by
  have counted : (if program.counts visit then state.countVisit visit.1 else state).visitsOf query =
      state.visitsOf query + if visit.1 = query ∧ program.counts visit then 1 else 0 := by
    by_cases counts : program.counts visit
    · rw [if_pos counts, visitsOf_countVisit]
      obtain here | elsewhere := eq_or_ne visit.1 query
      · simp [here, counts]
      · simp [elsewhere, elsewhere.symm]
    · simp [counts]
  rw [visit_eq]
  dsimp only
  split
  · rw [visitsOf_recordTurn, counted]
  · exact counted

theorem turnOf?_visit (state : State) (visit : Address × Bool) (query : Address) :
    (state.visit program visit.1 visit.2).turnOf? query =
      if visit.1 = query ∧ program.dates visit then some state.turn
      else state.turnOf? query := by
  have counted :
      (if program.counts visit then state.countVisit visit.1 else state).turnOf? query =
        state.turnOf? query := by
    split
    · exact turnOf?_countVisit state visit.1 query
    · rfl
  have turn : (if program.counts visit then state.countVisit visit.1 else state).turn =
      state.turn := by
    split
    · unfold countVisit
      split <;> rfl
    · rfl
  rw [visit_eq]
  by_cases dates : program.dates visit
  · rw [if_pos dates, turnOf?_recordTurn, counted, turn]
    obtain here | elsewhere := eq_or_ne visit.1 query
    · simp [here, dates]
    · simp [elsewhere, elsewhere.symm]
  · simp [dates, counted]

/-- Each visit that counts adds one. -/
theorem visitsOf_visitAll (state : State) (visits : List (Address × Bool)) (query : Address) :
    (state.visitAll program visits).visitsOf query =
      state.visitsOf query + program.countsFor query visits := by
  induction visits generalizing state with
  | nil => rfl
  | cons visit rest ih =>
    refine (ih _).trans ?_
    rw [visitsOf_visit, countsFor, countsFor, countP_cons]
    simp only [Bool.and_eq_true, decide_eq_true_eq]
    omega

/-- A visit whose turn is noted is one of this turn. -/
theorem turnOf?_visitAll (state : State) (visits : List (Address × Bool)) (query : Address) :
    (state.visitAll program visits).turnOf? query =
      if program.datesFor query visits then some state.turn else state.turnOf? query := by
  induction visits generalizing state with
  | nil => rfl
  | cons visit rest ih =>
    have turn : (state.visit program visit.1 visit.2).turn = state.turn :=
      turn_visitAll state [visit]
    refine (ih _).trans ?_
    rw [turn, turnOf?_visit, datesFor, datesFor, any_cons]
    by_cases here : visit.1 = query ∧ program.dates visit
    · simp [here]
    · have unseen : (decide (visit.1 = query) && program.dates visit) = false := by
        simpa using here
      rw [if_neg here, unseen, Bool.false_or]

end State

/-! ### The way to a place -/

namespace Address

theorem mem_enclosing {other : Address} :
    other ∈ enclosing address ↔ other <:+ address := by
  induction address with
  | nil => simp [enclosing]
  | cons step outer ih => rw [enclosing, mem_cons, ih, suffix_cons_iff]

theorem nodup_enclosing (address : Address) : (enclosing address).Nodup := by
  induction address with
  | nil => exact nodup_singleton []
  | cons step outer ih =>
    refine nodup_cons.mpr ⟨fun member => ?_, ih⟩
    exact Nat.not_succ_le_self _ (mem_enclosing.mp member).length_le

theorem enclosing_eq_cons (address : Address) :
    enclosing address = address :: (enclosing address).tail := by
  cases address <;> rfl

end Address

/-- The containers that a place lies in, innermost first. -/
def Place.outer (place : Place) : List Address := (place.parent?.map enclosing).getD []

namespace Program

/-- A pointer at an object or at an empty container. -/
def IsEnd (program : Program) (pointer : Pointer) : Prop :=
  (∃ address position, program.resolve? pointer = some (.content address position)) ∨
    ∃ address, program.resolve? pointer = some (.container address) ∧
      (program.container address).isEmpty = true

theorem around_of_container (resolves : program.resolve? pointer = some (.container address)) :
    program.around pointer = enclosing address := by
  simp [around, resolves, Place.container?]

/-- An object is only pointed at by its position. -/
theorem eq_of_resolve_content
    (resolves : program.resolve? pointer = some (.content address position)) :
    pointer = ⟨address, some position⟩ := by
  obtain ⟨container, _ | index⟩ := pointer
  · cases resolves
  · simp only [resolve?] at resolves
    split at resolves
    · cases resolves
    · unfold childPlace? at resolves
      split at resolves <;> cases resolves
      rfl

theorem around_of_content (resolves : program.resolve? pointer = some (.content address position)) :
    program.around pointer = enclosing address := by
  cases eq_of_resolve_content resolves
  simp [around, resolves, Place.container?]

theorem resolve_of_childPlace (there : program.childPlace? address position = some place) :
    program.resolve? ⟨address, some position⟩ = some place := by
  have filled : (program.container address).isEmpty = false := by
    cases nodes : (program.container address).nodes with
    | nil => simp [childPlace?, nodes] at there
    | cons node rest => simp [Container.isEmpty, nodes]
  simp [resolve?, filled, there]

end Program

mutual

/-- The containers entered on the way down are those around its end, but for those around its
beginning. -/
theorem Container.way_descend {program : Program} {pointer : Pointer} {address : Address} :
    (container : Container) → program.container address = container →
      program.resolve? pointer = some (.container address) →
      program.IsEnd (container.descend pointer address).2 ∧
        program.around (container.descend pointer address).2 =
          (container.descend pointer address).1.reverse ++ (enclosing address).tail
  | .mk name counting nodes named, here, resolves => by
    match nodes, here with
    | [], here =>
      refine ⟨.inr ⟨address, resolves, by rw [here]; rfl⟩, ?_⟩
      rw [Container.descend, around_of_container resolves, enclosing_eq_cons]
      rfl
    | node :: rest, here =>
      have first : (program.container address).nodes[0]? = some node := by rw [here]; rfl
      obtain ⟨ends, way⟩ := Container.way_descendNode node first
      refine ⟨ends, ?_⟩
      rw [Container.descend, reverse_cons, append_assoc, singleton_append,
        ← enclosing_eq_cons]
      exact way

theorem Container.way_descendNode {program : Program} {address : Address} :
    (node : Node Container) → (program.container address).nodes[0]? = some node →
      program.IsEnd (Container.descendNode address node).2 ∧
        program.around (Container.descendNode address node).2 =
          (Container.descendNode address node).1.reverse ++ enclosing address
  | .content content, first => by
    have resolves : program.resolve? (.startOf address) = some (.content address 0) :=
      resolve_of_childPlace (by rw [childPlace?, first])
    exact ⟨.inl ⟨address, 0, resolves⟩, around_of_content resolves⟩
  | .container inner, first => by
    have resolves : program.resolve? (.startOf address) =
        some (.container (.item 0 :: address)) :=
      resolve_of_childPlace (by rw [childPlace?, first])
    exact Container.way_descend inner (container_item first) resolves

end

namespace Program

/-- Going down ends at an object or an empty container. The containers around it are those entered
on the way down and those around where it began. -/
theorem around_descend (resolves : program.resolve? pointer = some place) :
    program.IsEnd (program.descend pointer).2 ∧
      program.around (program.descend pointer).2 =
        (program.descend pointer).1.reverse ++ place.outer := by
  cases place with
  | container address =>
    have outer : (Place.container address).outer = (enclosing address).tail := by
      cases address <;> rfl
    rw [descend, resolves, outer]
    exact Container.way_descend _ rfl resolves
  | content address position =>
    rw [descend, resolves]
    exact ⟨.inl ⟨address, position, resolves⟩, around_of_content resolves⟩

/-- The walk outward goes from container to container. -/
theorem entered_prefix_enclosing (kept : List Address) (child : Place) (atStart : Bool)
    (address : Address) :
    (program.enteredFrom kept child atStart address).map Prod.fst <+:
      enclosing address := by
  induction address generalizing child atStart with
  | nil =>
    rw [enteredFrom]
    split
    · exact nil_prefix
    · exact prefix_rfl
  | cons step outer ih =>
    rw [enteredFrom]
    split
    · exact nil_prefix
    · exact prefix_cons_inj _ |>.mpr (ih _ _)

/-- All that a jump enters: containers around where it lands, then those on the way down from there,
each with whether it is entered at its start. -/
def entries (program : Program) (previous : Option Pointer) (pointer : Pointer) :
    List (Address × Bool) :=
  program.enteredByJump previous pointer ++
    (program.descend pointer).1.map fun address => (address, true)

theorem enteredByJump_of_position (previous : Option Pointer)
    (positioned : pointer.index = some position) (resolves : program.resolve? pointer = some place) :
    program.enteredByJump previous pointer =
      place.parent?.elim []
        (program.enteredFrom ((previous.map program.around).getD []) place true) := by
  rw [enteredByJump, positioned, resolves]
  dsimp only
  cases place.parent? <;> rfl

/-- Containers around where a way down begins, and those that it enters, are all on the way to where
it ends. -/
theorem subperm_around {outer : List Address} (resolves : program.resolve? pointer = some place)
    (part : outer.Sublist place.outer) :
    (outer ++ (program.descend pointer).1).Subperm
      (program.around (program.descend pointer).2) := by
  rw [(around_descend resolves).2]
  refine ⟨(program.descend pointer).1.reverse ++ outer, ?_, (Sublist.refl _).append part⟩
  exact (Perm.append_right _ (reverse_perm _)).trans perm_append_comm

theorem nodup_of_subperm_around {visited : List Address}
    (onWay : visited.Subperm (program.around pointer)) : visited.Nodup := by
  obtain ⟨way, same, part⟩ := onWay
  exact same.nodup_iff.mp ((nodup_enclosing _).sublist part)

theorem map_fst_atStart (addresses : List Address) :
    (addresses.map fun address => (address, true)).map Prod.fst = addresses := by
  rw [map_map]
  exact map_id _

end Program

namespace State

/-- Land at a pointer by a jump, and go down to what is evaluated next. -/
def arrive (program : Program) (pointer : Pointer) (state : State) : State :=
  ((state.setPointer (some pointer)).visitEntered program).descend program pointer

theorem pointer_arrive (state : State) :
    (state.arrive program pointer).pointer = some (program.descend pointer).2 := rfl

theorem counts_arrive (state : State) (query : Address) :
    (state.arrive program pointer).visitsOf query =
        (state.visitAll program
          (program.entries state.callStack.current.previous pointer)).visitsOf query ∧
      (state.arrive program pointer).turnOf? query =
        (state.visitAll program
          (program.entries state.callStack.current.previous pointer)).turnOf? query := by
  have all : (((state.setPointer (some pointer)).visitEntered program).visitAll program
      ((program.descend pointer).1.map fun address => (address, true))) =
      (state.setPointer (some pointer)).visitAll program
        (program.entries state.callStack.current.previous pointer) := by
    rw [entries, visitAll_append]
    rfl
  constructor
  · rw [visitsOf_visitAll]
    refine (congrArg (visitsOf · query) all).trans ?_
    exact visitsOf_visitAll _ _ query
  · rw [turnOf?_visitAll]
    refine (congrArg (turnOf? · query) all).trans ?_
    exact turnOf?_visitAll _ _ query

/-- A state that stands before the house. -/
def outside : State where
  callStack :=
    { current :=
        { top := { pointer := some ⟨[], some 0⟩, kind := .tunnel }
          previous := some ⟨[], some 0⟩ } }

end State

end InkStory
