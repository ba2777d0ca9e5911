import InkStory.Proofs.Entries
import InkStory.Proofs.OnceOnlyChoices
import InkStory.Proofs.RespelledPaths

/-! # How a divert is spelled

A container is the target of a divert by its position or by its name, and the path is that of the
divert or that of a variable. So there are three pointers that a divert may take to one container:
at its position in its parent, at its start, and at the container as a whole. All lead down to the
same object, and which of the containers around it are entered on the way depends on the pointer
(`Program.Enters`). Of the containers that only one pointer enters, those that count show it. -/

namespace InkStory

open List

variable {program : Program} {state ready : State} {visit : Address × Bool} {address : Address}
  {pointer : Pointer} {last : Component} {path : Path} {origin : Place} {index : Nat}
  {divert : Divert} {holder : String} {target : DivertTarget}

/-! ### Visits that leave the same counts -/

namespace State

variable {visits others all below : List (Address × Bool)} {one other : State} {query : Address}

/-- Two states agree on all visits and on the turns of all visits. -/
structure SameCounts (state other : State) : Prop where
  visits : ∀ address, other.visitsOf address = state.visitsOf address
  turns : ∀ address, other.turnOf? address = state.turnOf? address

/-- A visit leaves no trace in a state: it is not counted, and its turn is not noted or was noted
already. -/
def Ignores (program : Program) (state : State) (visit : Address × Bool) : Prop :=
  program.counts visit = false ∧
    (program.dates visit = true → state.turnOf? visit.1 = some state.turn)

theorem SameCounts.symm (same : one.SameCounts other) : other.SameCounts one :=
  ⟨fun address => (same.visits address).symm, fun address => (same.turns address).symm⟩

theorem SameCounts.trans {third : State} (same : one.SameCounts other)
    (sameToo : other.SameCounts third) : one.SameCounts third :=
  ⟨fun address => (sameToo.visits address).trans (same.visits address),
    fun address => (sameToo.turns address).trans (same.turns address)⟩

/-- The order of visits leaves no trace. -/
theorem sameCounts_of_perm (same : visits.Perm others) :
    (state.visitAll program visits).SameCounts (state.visitAll program others) where
  visits address := by
    rw [visitsOf_visitAll, visitsOf_visitAll, Program.countsFor, Program.countsFor,
      same.countP_eq]
  turns address := by
    rw [turnOf?_visitAll, turnOf?_visitAll, Program.datesFor, Program.datesFor, same.any_eq]

section Apart

variable (apart : ((all ++ below).map Prod.fst).Nodup) (part : visits.Sublist all)

include apart part

/-- Only the visit to a container says what becomes of it. -/
theorem exists_visit_iff (member : visit ∈ all) (holds : Address × Bool → Prop) :
    (∃ other ∈ visits ++ below, other.1 = visit.1 ∧ holds other) ↔
      visit ∈ visits ∧ holds visit := by
  constructor
  · rintro ⟨other, among, here, held⟩
    have there : other ∈ all ++ below := (part.append (Sublist.refl below)).subset among
    obtain rfl := inj_on_of_nodup_map apart there (mem_append_left _ member) here
    have outside := disjoint_of_nodup_append apart.of_map member
    exact ⟨(mem_append.mp among).resolve_right outside, held⟩
  · rintro ⟨made, held⟩
    exact ⟨visit, mem_append_left _ made, rfl, held⟩

theorem countsFor_visit (member : visit ∈ all) :
    program.countsFor visit.1 (visits ++ below) =
      if visit ∈ visits ∧ program.counts visit then 1 else 0 := by
  have once : program.countsFor visit.1 (visits ++ below) ≤ 1 :=
    Program.countsFor_le_one (apart.sublist ((part.append (Sublist.refl _)).map _))
  have counted := exists_visit_iff apart part member fun other => program.counts other = true
  rw [← Program.countsFor_pos_iff] at counted
  split
  · next made => exact Nat.le_antisymm once (counted.mpr made)
  · next unmade => exact Nat.eq_zero_of_not_pos fun positive => unmade (counted.mp positive)

theorem datesFor_visit (member : visit ∈ all) :
    program.datesFor visit.1 (visits ++ below) = true ↔
      visit ∈ visits ∧ program.dates visit = true := by
  rw [← exists_visit_iff apart part member fun other => program.dates other = true]
  simp only [Program.datesFor, any_eq_true, Bool.and_eq_true, decide_eq_true_eq]

end Apart

/-- Two lists of visits to containers that are all different leave the same counts exactly if every
visit that only one of them makes leaves no trace. -/
theorem sameCounts_visitAll_iff (apart : ((all ++ below).map Prod.fst).Nodup)
    (part : visits.Sublist all) (otherPart : others.Sublist all) :
    (state.visitAll program (visits ++ below)).SameCounts
        (state.visitAll program (others ++ below)) ↔
      ∀ visit, (visit ∈ visits ↔ visit ∈ others) ∨ state.Ignores program visit := by
  constructor
  · intro same visit
    by_cases member : visit ∈ all
    · have counts := same.visits visit.1
      have turns := same.turns visit.1
      simp only [visitsOf_visitAll, turnOf?_visitAll, countsFor_visit apart part member,
        countsFor_visit apart otherPart member, datesFor_visit apart part member,
        datesFor_visit apart otherPart member] at counts turns
      by_cases here : visit ∈ visits <;> by_cases there : visit ∈ others <;>
        simp_all [Ignores]
    · exact .inl (iff_of_false (fun here => member (part.subset here))
        fun there => member (otherPart.subset there))
  · intro agrees
    have alike (query : Address) :
        (state.visitAll program (others ++ below)).visitsOf query =
            (state.visitAll program (visits ++ below)).visitsOf query ∧
          (state.visitAll program (others ++ below)).turnOf? query =
            (state.visitAll program (visits ++ below)).turnOf? query := by
      simp only [visitsOf_visitAll, turnOf?_visitAll]
      by_cases known : ∃ visit ∈ all, visit.1 = query
      · obtain ⟨visit, member, rfl⟩ := known
        simp only [countsFor_visit apart part member, countsFor_visit apart otherPart member,
          datesFor_visit apart part member, datesFor_visit apart otherPart member]
        rcases agrees visit with same | ⟨uncounted, dated⟩
        · simp [same]
        · by_cases dates : program.dates visit <;> simp_all
      · have unmade {visits : List (Address × Bool)} (part : visits.Sublist all)
            (marks : Address × Bool → Bool) (visit : Address × Bool) (made : visit ∈ visits) :
            ¬(decide (visit.1 = query) && marks visit) := fun here =>
          known ⟨visit, part.subset made, by simpa using (Bool.and_eq_true_iff.mp here).1⟩
        simp only [Program.countsFor, Program.datesFor, countP_append, any_append,
          countP_eq_zero.mpr (unmade part _), countP_eq_zero.mpr (unmade otherPart _),
          any_eq_false.mpr (unmade part _), any_eq_false.mpr (unmade otherPart _), and_self]
    exact ⟨fun query => (alike query).1, fun query => (alike query).2⟩

end State

/-! ### Ways to point at a container -/

/-- How a divert points at a container: at its position in its parent, at its start, or at the
container as a whole. -/
inductive Approach where
  | position
  | start
  | whole

namespace Approach

/-- The pointer at a container. Only a container with a position has one of each kind. -/
inductive Points : Approach → Address → Pointer → Prop where
  | position (index : Nat) (outer : Address) :
      Points .position (.item index :: outer) ⟨outer, some index⟩
  | start (address : Address) : Points .start address (.startOf address)
  | whole (address : Address) : Points .whole address ⟨address, none⟩

end Approach

namespace Program

variable {previous : Option Pointer}

/-- A container, entered at its start, and the containers around it that are entered with it. -/
def enteredWith (program : Program) (previous : Option Pointer) (address : Address) :
    List (Address × Bool) :=
  (address, true) :: program.enteredAround previous address

/-- What is entered below a container when its start is entered. -/
def enteredBelow (program : Program) (address : Address) : List (Address × Bool) :=
  (program.descend (.startOf address)).1.map fun inner => (inner, true)

/-- Which of a container and those around it a divert enters: all of them if it points at the
position; none if it points at the start, but the story stood in the container already; and the
container only if it points at the whole. -/
def Enters (program : Program) (previous : Option Pointer) (address : Address)
    (visit : Address × Bool) : Approach → Prop
  | .position => visit ∈ program.enteredWith previous address
  | .start => program.CountsEntry previous address ∧ visit ∈ program.enteredWith previous address
  | .whole => visit = (address, true)

section Filled

variable (filled : (program.container address).isEmpty = false)

include filled

theorem exists_first : ∃ node, (program.container address).nodes[0]? = some node := by
  cases nodes : (program.container address).nodes with
  | nil => simp [Container.isEmpty, nodes] at filled
  | cons node rest => exact ⟨node, rfl⟩

theorem has_of_filled : program.Has address := by
  obtain ⟨node, first⟩ := exists_first filled
  exact has_of_node first

theorem resolve_start :
    ∃ place, program.resolve? (.startOf address) = some place ∧ place.parent? = some address := by
  obtain ⟨node, first⟩ := exists_first filled
  cases node <;> exact ⟨_, resolve_of_childPlace (by rw [childPlace?, first]), rfl⟩

/-- Going down from a container goes down from its start. -/
theorem descend_of_container (resolves : program.resolve? pointer = some (.container address)) :
    program.descend pointer =
      (address :: (program.descend (.startOf address)).1,
        (program.descend (.startOf address)).2) := by
  obtain ⟨node, first⟩ := exists_first filled
  have start : program.descend (.startOf address) = Container.descendNode address node := by
    cases node with
    | content content =>
      rw [descend, Pointer.startOf, resolve_of_childPlace (by rw [childPlace?, first])]
      rfl
    | container inner =>
      rw [descend, Pointer.startOf, resolve_of_childPlace (by rw [childPlace?, first])]
      dsimp only
      rw [container_item first]
      rfl
  rw [descend, resolves, start]
  dsimp only
  generalize program.container address = container at first
  obtain ⟨name, counting, nodes, named⟩ := container
  cases nodes with
  | nil => contradiction
  | cons head rest =>
    cases first
    rfl

theorem nodup_entered :
    ((program.enteredWith previous address ++ program.enteredBelow address).map
      Prod.fst).Nodup := by
  obtain ⟨place, resolves, parent⟩ := resolve_start filled
  have around : ((program.enteredWith previous address).map Prod.fst).Sublist place.outer := by
    have encloses : place.outer = Address.enclosing address := by rw [Place.outer, parent]; rfl
    rw [encloses]
    cases address with
    | nil => exact Sublist.refl _
    | cons step outer => exact (entered_prefix_enclosing _ _ _ outer).sublist.cons_cons _
  rw [map_append, enteredBelow, map_fst_atStart]
  exact nodup_of_subperm_around (subperm_around resolves around)

/-- What a divert enters depends on how it points at the container, and where it ends does not. -/
theorem entries_of_points (previous : Option Pointer) {approach : Approach}
    (points : approach.Points address pointer) :
    ∃ visits : List (Address × Bool), visits.Sublist (program.enteredWith previous address) ∧
      (∀ visit, visit ∈ visits ↔ program.Enters previous address visit approach) ∧
      (program.entries previous pointer).Perm (visits ++ program.enteredBelow address) ∧
      (program.descend pointer).2 = (program.descend (.startOf address)).2 := by
  cases points with
  | position index outer =>
    have resolves : program.resolve? ⟨outer, some index⟩ =
        some (.container (.item index :: outer)) := by
      obtain ⟨inner, found⟩ := child_of_has (has_of_filled filled)
      exact resolve_of_childPlace (childPlace_of_child found)
    refine ⟨program.enteredWith previous _, Sublist.refl _, fun _ => Iff.rfl, ?_, ?_⟩
    · rw [entries, enteredByJump_of_position previous rfl resolves,
        descend_of_container filled resolves]
      exact perm_middle
    · rw [descend_of_container filled resolves]
  | start =>
    obtain ⟨counts, entered⟩ | ⟨stays, entered⟩ := enteredByJump_startOf previous filled
    · refine ⟨program.enteredWith previous address, Sublist.refl _, ?_, ?_, rfl⟩
      · exact fun _ => (and_iff_right counts).symm
      · rw [entries, entered]
        exact Perm.refl _
    · refine ⟨[], nil_sublist _, ?_, ?_, rfl⟩
      · exact fun _ => iff_of_false not_mem_nil fun enters => stays enters.1
      · rw [entries, entered]
        exact Perm.refl _
  | whole =>
    have resolves : program.resolve? ⟨address, none⟩ = some (.container address) := rfl
    refine ⟨[(address, true)], (nil_sublist _).cons_cons _, fun _ => mem_singleton, ?_,
      ?_⟩
    · rw [entries, descend_of_container filled resolves]
      exact Perm.refl _
    · rw [descend_of_container filled resolves]

end Filled

/-! ### Paths to a container -/

/-- An absolute path that leads to a container exactly, and ends in a component. -/
structure ReachesBy (program : Program) (path : Path) (last : Component) (address : Address) :
    Prop where
  absolute : path.relative = false
  reaches : program.followAll (.container []) path.components = ⟨.container address, false⟩
  ends : path.last? = some last

/-- A path that leads somewhere exactly leads to a container before its last component. -/
theorem followAll_concat {components : List Component} {place found : Place}
    (leads : program.followAll place (components ++ [last]) = ⟨found, false⟩) :
    ∃ outer, program.followAll place components = ⟨.container outer, false⟩ ∧
      program.follow? outer last = some found := by
  induction components generalizing place with
  | nil =>
    simp only [nil_append, followAll] at leads
    split at leads
    · cases leads
    · next next step =>
      obtain ⟨outer, container, leadsOn⟩ := Option.bind_eq_some_iff.mp step
      cases leads
      exact ⟨outer, by rw [followAll, eq_container container], leadsOn⟩
  | cons component rest ih =>
    rw [cons_append, followAll] at leads
    split at leads
    · cases leads
    · next next step =>
      split at leads
      · cases leads
      · next goesOn =>
        obtain ⟨outer, before, leadsOn⟩ := ih leads
        refine ⟨outer, ?_, leadsOn⟩
        have container : next.container?.isNone = false :=
          Bool.eq_false_iff.mpr fun object => goesOn (by simp [object])
        rw [followAll, step]
        simp only [container, Bool.and_false, Bool.false_eq_true, if_false, before]

namespace ReachesBy

variable {name : String}

theorem resolves (reaches : program.ReachesBy path last address) :
    program.resolvePath origin path = ⟨.container address, false⟩ := by
  have absolute : ¬path.relative := by simp [reaches.absolute]
  unfold resolvePath
  rw [if_neg absolute]
  exact reaches.reaches

theorem before_index (reaches : program.ReachesBy path (.index index) address) :
    ∃ outer, address = .item index :: outer ∧ path.position? = some index ∧
      program.followAll (.container []) path.beforePosition = ⟨.container outer, false⟩ := by
  have position : path.position? = some index := by rw [Path.position?, reaches.ends]
  have split : path.components = path.components.dropLast ++ [.index index] :=
    (dropLast_append_getLast? _ reaches.ends).symm
  have before : path.beforePosition = path.components.dropLast := by
    rw [Path.beforePosition, position]
    rfl
  have leads := reaches.reaches
  rw [split] at leads
  obtain ⟨outer, there, last⟩ := followAll_concat leads
  refine ⟨outer, ?_, position, before ▸ there⟩
  simp only [follow?, childPlace?] at last
  split at last <;> cases last
  rfl

theorem pointerAt_index {outer : Address}
    (reaches : program.ReachesBy path (.index index) (.item index :: outer)) :
    program.pointerAt path =
      if outer = [] ∧ path.beforePosition ≠ [] then .error (.missingContent path.text)
      else .ok ⟨some ⟨outer, some index⟩, none⟩ := by
  obtain ⟨_, same, position, before⟩ := reaches.before_index
  cases same
  have present : path.isEmpty = false := by
    have ends := reaches.ends
    rw [Path.isEmpty, isEmpty_eq_false_iff]
    intro empty
    rw [Path.last?, empty] at ends
    contradiction
  simp only [pointerAt, present, before, position, Place.container.injEq]
  rfl

theorem position?_name (reaches : program.ReachesBy path (.name name) address) :
    path.position? = none := by
  rw [Path.position?, reaches.ends]

theorem pointerAt_name (reaches : program.ReachesBy path (.name name) address) :
    program.pointerAt path = .ok ⟨some ⟨address, none⟩, none⟩ := by
  refine pointerAt_of_followAll reaches.reaches ?_ reaches.position?_name
  have leads := reaches.reaches
  rw [← dropLast_append_getLast? _ reaches.ends] at leads
  obtain ⟨outer, -, last⟩ := followAll_concat leads
  obtain ⟨found, named, same⟩ := Option.map_eq_some_iff.mp last
  obtain ⟨step, -, rfl⟩ := Option.map_eq_some_iff.mp named
  cases same
  exact cons_ne_nil _ _

end ReachesBy

/-- A divert target that leads to a container, by its name or by its position, in a path of its own
or in one that a variable holds, and how the divert then points at the container. A path in a
variable that leads to a position of the root says so at once. -/
inductive Spells (program : Program) (state : State) (address : Address) :
    DivertTarget → Approach → Prop where
  | name {path : Path} {name : String} (reaches : program.ReachesBy path (.name name) address) :
      Spells program state address (.path path) .start
  | index {path : Path} {index : Nat} (reaches : program.ReachesBy path (.index index) address) :
      Spells program state address (.path path) .position
  | heldName {holder : String} {path : Path} {name : String}
      (reaches : program.ReachesBy path (.name name) address)
      (holds : state.lookup? program holder = some (.divertTarget path)) :
      Spells program state address (.variable holder) .whole
  | heldIndex {holder : String} {path : Path} {index : Nat}
      (reaches : program.ReachesBy path (.index index) address)
      (holds : state.lookup? program holder = some (.divertTarget path))
      (direct : path.beforePosition = [] ∨ address.tail ≠ []) :
      Spells program state address (.variable holder) .position

end Program

/-! ### Following a divert -/

namespace State

/-- A state that a divert is about to leave: it has a pointer to go to and the frame of the divert. -/
def headed (pushes : Option FrameKind) (pointer : Pointer) (state : State) : State :=
  match pushes with
  | some kind =>
    { state with
      diverted := some pointer
      callStack := state.callStack.push kind 0 state.output.length }
  | none => { state with diverted := some pointer }

/-- A state that a divert has left, before it lands. -/
def departing (pushes : Option FrameKind) (state : State) : State :=
  match pushes with
  | some kind =>
    { state with
      diverted := none
      callStack :=
        (state.callStack.push kind 0 state.output.length).setPrevious state.pointer }
  | none => { state with diverted := none, callStack := state.callStack.setPrevious state.pointer }

theorem moveOn_headed (pushes : Option FrameKind) :
    (state.headed pushes pointer).moveOn program =
      ((state.departing pushes).setPointer (some pointer)).visitEntered program := by
  obtain ⟨count, frames⟩ := (state.headed pushes pointer).callStack.exists_frameCount
  rw [moveOn, frames]
  cases pushes <;> rfl

section Arriving

variable (filled : (program.container address).isEmpty = false)

include filled

theorem arrive_of_points (state : State) {approach : Approach}
    (points : approach.Points address pointer) :
    ∃ visits : List (Address × Bool),
      visits.Sublist (program.enteredWith state.callStack.current.previous address) ∧
      (∀ visit, visit ∈ visits ↔
        program.Enters state.callStack.current.previous address visit approach) ∧
      (state.visitAll program (visits ++ program.enteredBelow address)).SameCounts
        (state.arrive program pointer) ∧
      (state.arrive program pointer).pointer =
        some (program.descend (.startOf address)).2 := by
  obtain ⟨visits, part, enters, same, ends⟩ :=
    Program.entries_of_points filled state.callStack.current.previous points
  refine ⟨visits, part, enters, (sameCounts_of_perm same.symm).trans ?_, ?_⟩
  · exact ⟨fun query => (counts_arrive state query).1, fun query => (counts_arrive state query).2⟩
  · rw [pointer_arrive, ends]

/-- From one state, two pointers at one container lead to one object, and to the same counts exactly
if every container that only one of them enters keeps its counts anyway. -/
theorem arrive_agrees_iff (state : State) {one other : Approach} {pointerToo : Pointer}
    (points : one.Points address pointer) (pointsToo : other.Points address pointerToo) :
    (state.arrive program pointerToo).pointer = (state.arrive program pointer).pointer ∧
    ((state.arrive program pointer).SameCounts (state.arrive program pointerToo) ↔
      ∀ visit, (program.Enters state.callStack.current.previous address visit one ↔
          program.Enters state.callStack.current.previous address visit other) ∨
        state.Ignores program visit) := by
  obtain ⟨visits, part, enters, same, ends⟩ := arrive_of_points filled state points
  obtain ⟨others, partToo, entersToo, sameToo, endsToo⟩ :=
    arrive_of_points filled state pointsToo
  refine ⟨endsToo.trans ends.symm, ?_⟩
  simp only [← enters, ← entersToo,
    ← sameCounts_visitAll_iff (Program.nodup_entered filled) part partToo]
  exact ⟨fun agree => same.trans (agree.trans sameToo.symm),
    fun agree => same.symm.trans (agree.trans sameToo)⟩

end Arriving

end State

namespace Run

theorem performDivert_of_taken
    (taken : popConditionIf divert.isConditional state = .ok true ready)
    (target : DivertTarget) :
    performDivert program origin { divert with target := target } state =
      jump program origin { divert with target := target } ready := by
  unfold performDivert
  cases conditional : divert.isConditional with
  | true =>
    rw [conditional] at taken
    have popped : popCondition state = .ok true ready := taken
    simp only [if_true, bind_apply, popped]
    rfl
  | false =>
    rw [conditional] at taken
    cases taken
    rfl

theorem finishJump_headed (state : State) :
    finishJump divert { state with diverted := some pointer } =
      .ok none (state.headed divert.pushes pointer) := by
  unfold finishJump State.headed
  cases divert.pushes <;> rfl

theorem jump_of_pointer (points : program.divertPointer? origin path = some pointer) (state : State) :
    jump program origin { divert with target := .path path } state =
      .ok none (state.headed divert.pushes pointer) := by
  simp only [jump, points]
  exact finishJump_headed state

theorem jump_of_held (holds : state.lookup? program holder = some (.divertTarget path))
    (leads : program.pointerAt path = .ok ⟨some pointer, none⟩) :
    jump program origin { divert with target := .variable holder } state =
      .ok none (state.headed divert.pushes pointer) := by
  simp only [jump, divertToVariable, divertTo, bind_apply, get_apply, holds, pointerAt_apply, leads]
  exact finishJump_headed state

theorem finishContent_headed (origin : Place) (divert : Divert) (pushes : Option FrameKind)
    (stands : state.pointer.isSome) :
    finishContent program origin (.divert divert) (state.headed pushes pointer) =
      .ok () (((state.departing pushes).setPointer (some pointer)).visitEntered program) := by
  have standing : (state.headed pushes pointer).pointer.isNone = false := by
    have same : (state.headed pushes pointer).pointer = state.pointer := by cases pushes <;> rfl
    rw [same, ← Option.not_isSome, stands]
    rfl
  rw [← State.moveOn_headed]
  simp only [finishContent, bind_apply, get_apply, standing]
  rfl

/-- A condition is taken off the evaluation stack, and nothing else changes. -/
theorem eq_of_popConditionIf {present holds : Bool}
    (popped : popConditionIf present state = .ok holds ready) :
    ∃ evaluation, ready = { state with evaluation := evaluation } := by
  have kept (before after : State) (pops : State.Popped before after)
      (same : ∃ evaluation, before = { state with evaluation := evaluation }) :
      ∃ evaluation, after = { state with evaluation := evaluation } := by
    obtain ⟨evaluation, -, rfl⟩ := pops
    obtain ⟨_, rfl⟩ := same
    exact ⟨evaluation, rfl⟩
  have left := (popping_popConditionIf present).invariant kept ⟨state.evaluation, rfl⟩
  rwa [popped] at left

/-- A divert whose target spells a container points at it. -/
theorem jump_of_spells (origin : Place) (divert : Divert) {approach : Approach}
    (spells : program.Spells state address target approach)
    (same : ∀ holder, ready.lookup? program holder = state.lookup? program holder) :
    ∃ pointer, approach.Points address pointer ∧
      jump program origin { divert with target := target } ready =
        .ok none (ready.headed divert.pushes pointer) := by
  cases spells with
  | name reaches =>
    refine ⟨_, .start address, jump_of_pointer ?_ ready⟩
    rw [Program.divertPointer?_of_unnumbered reaches.resolves reaches.position?_name]
    rfl
  | index reaches =>
    obtain ⟨outer, rfl, -⟩ := reaches.before_index
    refine ⟨_, .position _ outer, jump_of_pointer ?_ ready⟩
    rw [Program.divertPointer?_of_position reaches.resolves reaches.ends]
    rfl
  | heldName reaches holds =>
    exact ⟨_, .whole address, jump_of_held ((same _).trans holds) reaches.pointerAt_name⟩
  | heldIndex reaches holds direct =>
    obtain ⟨outer, rfl, -⟩ := reaches.before_index
    refine ⟨_, .position _ outer, jump_of_held ((same _).trans holds) ?_⟩
    rw [reaches.pointerAt_index]
    exact if_neg fun back => direct.elim back.2 fun inner => inner back.1

section Taken

variable (taken : popConditionIf divert.isConditional state = .ok true ready)

include taken

theorem lookup?_of_taken (program : Program) (holder : String) :
    ready.lookup? program holder = state.lookup? program holder := by
  obtain ⟨evaluation, rfl⟩ := eq_of_popConditionIf taken
  rfl

theorem pointer_of_taken : ready.pointer = state.pointer := by
  obtain ⟨evaluation, rfl⟩ := eq_of_popConditionIf taken
  rfl

theorem previous_departing (pushes : Option FrameKind) :
    (ready.departing pushes).callStack.current.previous = state.pointer := by
  rw [← pointer_of_taken taken]
  cases pushes <;> rfl

theorem ignores_departing (pushes : Option FrameKind) (visit : Address × Bool) :
    (ready.departing pushes).Ignores program visit ↔ state.Ignores program visit := by
  obtain ⟨evaluation, rfl⟩ := eq_of_popConditionIf taken
  cases pushes <;> exact Iff.rfl

end Taken

end Run

namespace Play

open Run (popConditionIf jump)

variable {story : Story}

section Taken

variable (taken : popConditionIf divert.isConditional story.state = .ok true ready)

include taken

/-- A divert that jumps to a pointer arrives there with the way down of the next step. -/
theorem evaluate_of_jump (stands : ready.pointer.isSome) {pushes : Option FrameKind}
    (jumps : jump story.program origin { divert with target := target } ready =
      .ok none (ready.headed pushes pointer)) :
    ∃ next, evaluate origin (.divert { divert with target := target }) story = .ok () next ∧
      next.descended.state = (ready.departing pushes).arrive story.program pointer := by
  have performs : Run.performContent story.program origin
      (.divert { divert with target := target }) story.state =
      .ok none (ready.headed pushes pointer) := by
    rw [Run.performContent, Run.performDivert_of_taken taken, jumps]
  have lands : (((ready.departing pushes).setPointer (some pointer)).visitEntered
      story.program).pointer = some pointer := by
    rw [State.pointer, State.callStack_visitEntered]
    rfl
  refine ⟨{ story with
    state := ((ready.departing pushes).setPointer (some pointer)).visitEntered story.program },
    ?_, ?_⟩
  · simp only [evaluate, bind_apply, get_apply, onState_apply, performs,
      Run.finishContent_headed origin _ pushes stands]
  · rw [Story.descended]
    rw [lands]
    rfl

theorem evaluate_of_spells (origin : Place) (stands : story.state.pointer.isSome)
    {approach : Approach} (spells : story.program.Spells story.state address target approach) :
    ∃ pointer, approach.Points address pointer ∧
      ∃ next, evaluate origin (.divert { divert with target := target }) story = .ok () next ∧
        next.descended.state =
          (ready.departing divert.pushes).arrive story.program pointer := by
  rw [← Run.pointer_of_taken taken] at stands
  obtain ⟨pointer, points, jumps⟩ :=
    Run.jump_of_spells origin divert spells (Run.lookup?_of_taken taken story.program)
  exact ⟨pointer, points, evaluate_of_jump taken stands jumps⟩

/-- A path in a variable that comes back to the root does not lead to a position there. -/
theorem evaluate_of_returning (origin : Place)
    (reaches : story.program.ReachesBy path (.index index) address) (top : address.tail = [])
    (before : path.beforePosition ≠ [])
    (holds : story.state.lookup? story.program holder = some (.divertTarget path)) :
    evaluate origin (.divert { divert with target := .variable holder }) story =
      .error (.runtime (.missingContent path.text)) { story with state := ready } := by
  obtain ⟨outer, rfl, -⟩ := reaches.before_index
  have lost : story.program.pointerAt path = .error (.missingContent path.text) := by
    rw [reaches.pointerAt_index]
    exact if_pos ⟨top, before⟩
  rw [← Run.lookup?_of_taken taken] at holds
  have performs : Run.performContent story.program origin
      (.divert { divert with target := .variable holder }) story.state =
      .error (.runtime (.missingContent path.text)) ready := by
    rw [Run.performContent, Run.performDivert_of_taken taken]
    simp only [jump, Run.divertToVariable, Run.divertTo, bind_apply, get_apply, holds,
      Run.pointerAt_apply, lost]
  simp only [evaluate, bind_apply, get_apply, onState_apply, performs]

end Taken

/-- **What the spelling of a divert changes.** Every spelling of a container leads to the same
object. Two spellings leave the same counts exactly if every container that only one of them enters
keeps its counts anyway. A variable does not lead to a position of the root by a path that comes
back to the root. -/
theorem spelled_diverts_agree_iff (origin : Place) {here : Pointer}
    (filled : (story.program.container address).isEmpty = false)
    (stands : story.state.pointer = some here)
    (taken : popConditionIf divert.isConditional story.state = .ok true ready) :
    (∀ target other one another, story.program.Spells story.state address target one →
      story.program.Spells story.state address other another →
      ∃ next nextToo,
        evaluate origin (.divert { divert with target := target }) story = .ok () next ∧
        evaluate origin (.divert { divert with target := other }) story = .ok () nextToo ∧
        nextToo.descended.state.pointer = next.descended.state.pointer ∧
        (next.descended.state.SameCounts nextToo.descended.state ↔
          ∀ visit, (story.program.Enters (some here) address visit one ↔
              story.program.Enters (some here) address visit another) ∨
            story.state.Ignores story.program visit)) ∧
    (∀ holder path index, story.program.ReachesBy path (.index index) address →
      story.state.lookup? story.program holder = some (.divertTarget path) →
      path.beforePosition ≠ [] → address.tail = [] →
      evaluate origin (.divert { divert with target := .variable holder }) story =
        .error (.runtime (.missingContent path.text)) { story with state := ready }) := by
  have standing : story.state.pointer.isSome = true := Option.isSome_of_eq_some stands
  refine ⟨fun target other one another spells spellsToo => ?_,
    fun holder path index reaches holds before top =>
      evaluate_of_returning taken origin reaches top before holds⟩
  obtain ⟨pointer, points, next, follows, arrives⟩ :=
    evaluate_of_spells taken origin standing spells
  obtain ⟨pointerToo, pointsToo, nextToo, followsToo, arrivesToo⟩ :=
    evaluate_of_spells taken origin standing spellsToo
  obtain ⟨ends, agrees⟩ := State.arrive_agrees_iff filled (ready.departing divert.pushes) points
    pointsToo
  simp only [Run.previous_departing taken, Run.ignores_departing taken, stands] at agrees
  rw [← arrives, ← arrivesToo] at ends agrees
  exact ⟨next, nextToo, follows, followsToo, ends, agrees⟩

/-- A square, and a house with a hall, both of which are counted. -/
def village : Program where
  root :=
    .mk none {} [.container (.mk none {} [.content (.ofText "The square.")] [])]
      [("house", .mk (some "house") { visits := true }
        [.container (.mk (some "hall") { visits := true } [.content (.ofText "Inside.")] [])] [])]

/-- A story that stands on the square, with a path in a variable. -/
def onSquare (path : String) : Story where
  program := village
  config := {}
  state :=
    { callStack :=
        { current := { top := { pointer := some (.startOf [.item 0]), kind := .tunnel } } }
      globals := { values := .ofList [("door", .divertTarget (Path.parse path))] } }

theorem reachesBy_hall : village.ReachesBy (Path.parse "house.hall") (.name "hall")
    [.item 0, .named "house"] :=
  ⟨by decide +kernel, by decide +kernel, by decide +kernel⟩

theorem reachesBy_first : village.ReachesBy (Path.parse "house.0") (.index 0)
    [.item 0, .named "house"] :=
  ⟨by decide +kernel, by decide +kernel, by decide +kernel⟩

/-- The hall by its name and, in a variable, by its position: both ways lead through the house. -/
theorem hall_by_position_agrees :
    ∃ next nextToo,
      evaluate (.content [.item 0] 0) (.divert { target := .path (Path.parse "house.hall") })
        (onSquare "house.0") = .ok () next ∧
      evaluate (.content [.item 0] 0) (.divert { target := .variable "door" })
        (onSquare "house.0") = .ok () nextToo ∧
      nextToo.descended.state.pointer = next.descended.state.pointer ∧
      next.descended.state.SameCounts nextToo.descended.state := by
  have taken : popConditionIf ({ target := .variable "door" } : Divert).isConditional
      (onSquare "house.0").state = .ok true (onSquare "house.0").state := rfl
  have filled : (village.container [.item 0, .named "house"]).isEmpty = false := by
    decide +kernel
  have enters : village.CountsEntry (some (.startOf [.item 0])) [.item 0, .named "house"] := by
    refine .inr fun pointer stood => ?_
    cases stood
    decide +kernel
  have holds : (onSquare "house.0").state.lookup? village "door" =
      some (.divertTarget (Path.parse "house.0")) := by decide +kernel
  obtain ⟨next, nextToo, follows, followsToo, ends, agrees⟩ :=
    (spelled_diverts_agree_iff (.content [.item 0] 0) filled rfl taken).1 _ _ _ _
      (.name reachesBy_hall) (.heldIndex reachesBy_first holds (.inr (cons_ne_nil _ _)))
  exact ⟨next, nextToo, follows, followsToo, ends,
    agrees.mpr fun visit => .inl (and_iff_right enters)⟩

/-- The hall by its name, in the divert and in a variable: the variable leads past the house. -/
theorem hall_by_held_name_skips_house :
    village.Spells (onSquare "house.hall").state [.item 0, .named "house"]
        (.path (Path.parse "house.hall")) .start ∧
      village.Spells (onSquare "house.hall").state [.item 0, .named "house"]
        (.variable "door") .whole ∧
      (leaves (evaluate (.content [.item 0] 0)
        (.divert { target := .path (Path.parse "house.hall") })
        (onSquare "house.hall"))).descended.state.visitsOf [.named "house"] = 1 ∧
      (leaves (evaluate (.content [.item 0] 0) (.divert { target := .variable "door" })
        (onSquare "house.hall"))).descended.state.visitsOf [.named "house"] = 0 :=
  ⟨.name reachesBy_hall, .heldName reachesBy_hall (by decide +kernel), by decide +kernel,
    by decide +kernel⟩

-- A path that comes back to the root is lost in a variable only.
example :
    village.pointerAt (Path.parse "house.^.0") = .error (.missingContent "house.^.0") ∧
      village.divertPointer? (.content [.item 0] 0) (Path.parse "house.^.0") =
        some ⟨[], some 0⟩ := by
  decide +kernel

end Play

end InkStory
