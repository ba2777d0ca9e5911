import InkStory.Proofs.Tree

/-! # The order of the text

Objects stand in containers within containers. Read in the order of the text, a container is a list of
stops: its objects, and the empty containers between them. A story that goes on without a divert makes
these stops one after another: from an item it goes down to the first stop that lies ahead
(`Program.stop_descend`), and behind a stop it finds the items that lie behind it
(`Program.stopsFrom_following`). -/

namespace InkStory

open List

variable {container : Container} {program : Program} {address : Address} {position : Nat}
  {node : Node Container} {content : Content} {pointer : Pointer}

namespace Container

mutual

/-- Pointers to the objects and the empty containers of a container, which `pointer` points at, in the
order of the text. -/
def stops (pointer : Pointer) (address : Address) : Container → List Pointer
  | mk _ _ nodes _ =>
    match nodes with
    | [] => [pointer]
    | _ => nodeStops address 0 nodes

/-- Pointers to the objects and the empty containers of a list of items. -/
def nodeStops (address : Address) (position : Nat) : List (Node Container) → List Pointer
  | [] => []
  | .content _ :: rest => ⟨address, some position⟩ :: nodeStops address (position + 1) rest
  | .container inner :: rest =>
    stops ⟨address, some position⟩ (.item position :: address) inner ++
      nodeStops address (position + 1) rest

end

theorem nodeStops_append (address : Address) (position : Nat) (nodes rest : List (Node Container)) :
    nodeStops address position (nodes ++ rest) =
      nodeStops address position nodes ++ nodeStops address (position + nodes.length) rest := by
  induction nodes generalizing position with
  | nil => rfl
  | cons node nodes ih =>
    have shifted : position + 1 + nodes.length = position + (nodes.length + 1) := by omega
    cases node with
    | content content =>
      simp only [cons_append, nodeStops, ih, length_cons, shifted]
    | container inner =>
      simp only [cons_append, nodeStops, ih, length_cons, shifted, append_assoc]

theorem stops_of_empty (empty : container.nodes = []) (pointer : Pointer) (address : Address) :
    container.stops pointer address = [pointer] := by
  cases container
  cases empty
  rfl

theorem stops_of_items (items : container.nodes ≠ []) (pointer : Pointer) (address : Address) :
    container.stops pointer address = nodeStops address 0 container.nodes := by
  obtain ⟨name, counting, nodes, named⟩ := container
  cases nodes with
  | nil => exact absurd rfl items
  | cons node rest => rfl

end Container

/-- The flow that a container is part of: the container around it that only a name leads to, or the
root. -/
def Address.flow : Address → Address
  | .item _ :: outer => flow outer
  | address => address

/-- The flow that a place is part of. -/
def Place.flow : Place → Address
  | .container address => address.flow
  | .content address _ => address.flow

theorem Address.length_flow_le (address : Address) : address.flow.length ≤ address.length := by
  induction address with
  | nil => exact Nat.le_refl _
  | cons step outer ih =>
    cases step with
    | item position => exact Nat.le_succ_of_le ih
    | named key => exact Nat.le_refl _

namespace Program

open Container

/-- The stops from a position of a container on, up to the end of the flow. -/
def stopsFrom (program : Program) (address : Address) (position : Nat) : List Pointer :=
  nodeStops address position ((program.container address).nodes.drop position) ++
    match address with
    | .item outerPosition :: outer => program.stopsFrom outer (outerPosition + 1)
    | _ => []

/-- The objects from a position of a container on, up to the end of the flow, in the order of the
text. -/
def objectsFrom (program : Program) (address : Address) (position : Nat) : List (Place × Content) :=
  (program.stopsFrom address position).filterMap program.objectAt?

/-- The objects of the flow that a place is part of, in the order of the text. -/
def textAround (program : Program) (place : Place) : List (Place × Content) :=
  program.objectsFrom place.flow 0

variable {inner : Container}

/-- An item and what lies behind it. -/
theorem stopsFrom_node (there : (program.container address).nodes[position]? = some node) :
    program.stopsFrom address position =
      nodeStops address position [node] ++ program.stopsFrom address (position + 1) := by
  obtain ⟨within, at_⟩ := List.getElem?_eq_some_iff.mp there
  have split : (program.container address).nodes.drop position =
      [node] ++ (program.container address).nodes.drop (position + 1) := by
    rw [List.drop_eq_getElem_cons within, at_]
    rfl
  rw [stopsFrom.eq_def, stopsFrom.eq_def program address (position + 1), split, nodeStops_append,
    List.append_assoc]
  rfl

theorem stopsFrom_content
    (there : (program.container address).nodes[position]? = some (.content content)) :
    program.stopsFrom address position =
      ⟨address, some position⟩ :: program.stopsFrom address (position + 1) :=
  stopsFrom_node there

section

variable (there : (program.container address).nodes[position]? = some (.container inner))

include there

theorem stopsFrom_empty (empty : inner.nodes = []) :
    program.stopsFrom address position =
      ⟨address, some position⟩ :: program.stopsFrom address (position + 1) := by
  rw [stopsFrom_node there, nodeStops, stops_of_empty empty]
  rfl

theorem container_item : program.container (.item position :: address) = inner := by
  apply container_of_find
  rw [find_cons (find_container (has_of_node there))]
  simp [child?, there]

/-- A container that has items is read from its first one on. -/
theorem stopsFrom_inner (items : inner.nodes ≠ []) :
    program.stopsFrom address position = program.stopsFrom (.item position :: address) 0 := by
  rw [stopsFrom_node there, nodeStops, stops_of_items items, stopsFrom, container_item there]
  simp [nodeStops]

end

/-- Behind its last item a container is left for what follows it. -/
theorem stopsFrom_end {outer : Address} {outerPosition : Nat}
    (behind : (program.container (.item outerPosition :: outer)).size ≤ position) :
    program.stopsFrom (.item outerPosition :: outer) position =
      program.stopsFrom outer (outerPosition + 1) := by
  rw [stopsFrom, drop_eq_nil_of_le behind]
  rfl

/-- Behind the last item of a flow there is nothing. -/
theorem stopsFrom_flow_end (flow : address.flow = address)
    (behind : (program.container address).size ≤ position) :
    program.stopsFrom address position = [] := by
  rw [stopsFrom.eq_def, drop_eq_nil_of_le behind]
  match address, flow with
  | [], _ => rfl
  | .named key :: outer, _ => rfl
  | .item outerPosition :: outer, flow =>
    have shorter : (Address.flow outer).length ≤ outer.length :=
      Address.length_flow_le outer
    have same : Address.flow outer = .item outerPosition :: outer := flow
    rw [same, length_cons] at shorter
    omega

/-- The pointer that follows a position points at an item, and the stops ahead are the same. -/
theorem stopsFrom_following (follows : program.following? address position = some pointer) :
    ∃ index, pointer.index = some index ∧ index < (program.container pointer.container).size ∧
      program.stopsFrom pointer.container index = program.stopsFrom address position := by
  induction address generalizing position with
  | nil =>
    unfold following? at follows
    split at follows
    · next within =>
      cases follows
      exact ⟨position, rfl, within, rfl⟩
    · contradiction
  | cons step outer ih =>
    unfold following? at follows
    split at follows
    · next within =>
      cases follows
      exact ⟨position, rfl, within, rfl⟩
    · next behind =>
      cases step with
      | named key => contradiction
      | item outerPosition =>
        rw [stopsFrom_end (Nat.le_of_not_lt behind)]
        exact ih follows

/-- Where nothing follows, no stop lies ahead. -/
theorem stopsFrom_of_following_none (ends : program.following? address position = none) :
    program.stopsFrom address position = [] := by
  induction address generalizing position with
  | nil =>
    unfold following? at ends
    split at ends
    · contradiction
    · next behind => exact stopsFrom_flow_end rfl (Nat.le_of_not_lt behind)
  | cons step outer ih =>
    unfold following? at ends
    split at ends
    · contradiction
    · next behind =>
      cases step with
      | named key => exact stopsFrom_flow_end rfl (Nat.le_of_not_lt behind)
      | item outerPosition =>
        rw [stopsFrom_end (Nat.le_of_not_lt behind)]
        exact ih ends

/-- A pointer is the first of the stops, and the others lie behind it. -/
def Stop (program : Program) (pointer : Pointer) (stops : List Pointer) : Prop :=
  ∃ index, pointer.index = some index ∧
    stops = pointer :: program.stopsFrom pointer.container (index + 1)

end Program

mutual

/-- Going down from a container leads to the first stop that lies ahead. -/
theorem Container.stop_descend {program : Program} {address : Address} {position : Nat} :
    (inner : Container) →
      (program.container address).nodes[position]? = some (.container inner) →
      program.Stop (inner.descend ⟨address, some position⟩ (.item position :: address)).2
        (program.stopsFrom address position)
  | .mk name counting nodes named, there => by
    match nodes, there with
    | [], there => exact ⟨position, rfl, Program.stopsFrom_empty there rfl⟩
    | node :: rest, there =>
      rw [Program.stopsFrom_inner there (cons_ne_nil node rest)]
      apply Container.stop_descendNode node
      rw [Program.container_item there]
      rfl

theorem Container.stop_descendNode {program : Program} {address : Address} :
    (node : Node Container) → (program.container address).nodes[0]? = some node →
      program.Stop (Container.descendNode address node).2 (program.stopsFrom address 0)
  | .content _, there => ⟨0, rfl, Program.stopsFrom_content there⟩
  | .container inner, there => Container.stop_descend inner there

end

namespace Program

open Container

theorem resolve_node (there : (program.container address).nodes[position]? = some node) :
    program.resolve? ⟨address, some position⟩ = program.childPlace? address position := by
  have items : (program.container address).isEmpty = false :=
    isEmpty_eq_false_iff.mpr (ne_nil_of_mem (mem_of_getElem? there))
  simp [resolve?, items]

/-- Going down from an item leads to the first stop that lies ahead. -/
theorem stop_descend (within : position < (program.container address).size) :
    program.Stop (program.descend ⟨address, some position⟩).2
      (program.stopsFrom address position) := by
  have there := getElem?_eq_getElem within
  generalize (program.container address).nodes[position] = node at there
  unfold descend
  rw [resolve_node there, childPlace?, there]
  cases node with
  | content content => exact ⟨position, rfl, stopsFrom_content there⟩
  | container inner =>
    dsimp only
    rw [container_item there]
    exact Container.stop_descend inner there

theorem node_of_has (has : program.Has (.item position :: address)) :
    ∃ inner, (program.container address).nodes[position]? = some (.container inner) := by
  obtain ⟨inner, found⟩ := has_iff.mp has
  rw [find_cons (find_container (has_tail has))] at found
  simp only [child?] at found
  split at found
  · next inner node => exact ⟨inner, node⟩
  · contradiction

/-- The stops of a flow are those before a position and those from there on. -/
theorem stopsFrom_flow (has : program.Has address)
    (within : position ≤ (program.container address).size) :
    ∃ before, program.stopsFrom address.flow 0 = before ++ program.stopsFrom address position := by
  -- what stands before the position in its own container
  have inside (address : Address) (position : Nat)
      (within : position ≤ (program.container address).size) :
      ∃ before, program.stopsFrom address 0 = before ++ program.stopsFrom address position := by
    refine ⟨nodeStops address 0 ((program.container address).nodes.take position), ?_⟩
    rw [stopsFrom.eq_def, stopsFrom.eq_def program address position, ← List.append_assoc]
    congr 1
    have length : ((program.container address).nodes.take position).length = position :=
      List.length_take_of_le within
    have split := nodeStops_append address 0 ((program.container address).nodes.take position)
      ((program.container address).nodes.drop position)
    rwa [List.take_append_drop, length, Nat.zero_add] at split
  induction address generalizing position with
  | nil => exact inside [] position within
  | cons step outer ih =>
    cases step with
    | named key => exact inside _ position within
    | item outerPosition =>
      obtain ⟨inner, there⟩ := node_of_has has
      have before := (List.getElem?_eq_some_iff.mp there).1
      obtain ⟨earlier, flow⟩ := ih (has_tail has) (Nat.le_of_lt before)
      rw [Address.flow, flow]
      by_cases items : inner.nodes = []
      · -- an empty container is one stop, and none of its own lies ahead
        have end_ : (program.container (.item outerPosition :: outer)).size ≤ position := by
          rw [container_item there, size, items]
          exact Nat.zero_le _
        rw [stopsFrom_empty there items, stopsFrom_end end_]
        exact ⟨earlier ++ [⟨outer, some outerPosition⟩], by simp⟩
      · rw [stopsFrom_inner there items]
        obtain ⟨first, own⟩ := inside (.item outerPosition :: outer) position within
        exact ⟨earlier ++ first, by rw [own, List.append_assoc]⟩

/-- An object stands in the text of its flow before those that lie behind it. -/
theorem textAround_of_objectAt
    (object : program.objectAt? pointer = some (.content address position, content)) :
    pointer = ⟨address, some position⟩ ∧
      ∃ before, program.textAround (.content address position) =
        before ++ (.content address position, content) ::
          program.objectsFrom address (position + 1) := by
  obtain ⟨index, here, place, node⟩ := node_of_objectAt object
  cases place
  have within := (List.getElem?_eq_some_iff.mp node).1
  obtain ⟨before, flow⟩ := stopsFrom_flow (has_of_node node) (Nat.le_of_lt within)
  refine ⟨here, before.filterMap program.objectAt?, ?_⟩
  rw [textAround, Place.flow, objectsFrom, flow, List.filterMap_append, stopsFrom_content node, ← here,
    List.filterMap_cons, object]
  rfl

end Program

end InkStory
