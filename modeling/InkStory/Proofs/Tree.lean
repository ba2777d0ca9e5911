import InkStory.Program.Paths
import InkStory.Program.Walk
import InkStory.Proofs.Tables

/-! # Places of the tree

Whatever paths, names and walks lead to is in the tree, if they begin there. -/

namespace InkStory

open Option

variable {program : Program} {address : Address} {place origin : Place} {pointer : Pointer}
  {step : Step} {container : Container} {position : Nat} {name : String} {path : Path}
  {content : Content}

namespace Program

/-- There is a container at an address. -/
def Has (program : Program) (address : Address) : Prop := (program.root.find? address).isSome

/-- A place in the tree. -/
def HasPlace (program : Program) : Place → Prop
  | .container address => program.Has address
  | .content address position =>
    program.Has address ∧ position < (program.container address).size

/-- A pointer into the tree, and not at the root itself. -/
structure Points (program : Program) (pointer : Pointer) : Prop where
  has : program.Has pointer.container
  below : pointer ≠ ⟨[], none⟩

theorem has_root : program.Has [] := rfl

theorem has_iff : program.Has address ↔ ∃ container, program.root.find? address = some container :=
  isSome_iff_exists

/-- Nothing is counted where there is no container. -/
theorem has_of_counting (counting : (program.container address).counting.visits ∨
    (program.container address).counting.turns) : program.Has address := by
  unfold container at counting
  cases found : program.root.find? address with
  | none => simp [found, Container.counting] at counting
  | some container => exact has_iff.mpr ⟨container, found⟩

theorem has_tail (has : program.Has (step :: address)) : program.Has address := by
  obtain ⟨container, found⟩ := has_iff.mp has
  obtain ⟨parent, there, -⟩ := bind_eq_some_iff.mp found
  exact has_iff.mpr ⟨parent, there⟩

theorem container_of_find (found : program.root.find? address = some container) :
    program.container address = container := by
  rw [Program.container, found]
  rfl

/-- Where there is no container, there is nothing in it. -/
theorem has_of_node {node : Node Container}
    (there : (program.container address).nodes[position]? = some node) : program.Has address := by
  cases found : program.root.find? address with
  | some container => exact has_iff.mpr ⟨container, found⟩
  | none =>
    rw [container, found] at there
    contradiction

theorem find_cons (found : program.root.find? address = some container) :
    program.root.find? (step :: address) = container.child? step := by
  simp [Container.find?, found]

theorem find_container (has : program.Has address) :
    program.root.find? address = some (program.container address) := by
  obtain ⟨container, found⟩ := has_iff.mp has
  rw [container_of_find found, found]

theorem has_item {inner : Container}
    (there : (program.container address).nodes[position]? = some (.container inner)) :
    program.Has (.item position :: address) := by
  rw [Has, find_cons (find_container (has_of_node there))]
  simp [Container.child?, there]

theorem hasPlace_childPlace (found : program.childPlace? address position = some place) :
    program.HasPlace place := by
  unfold childPlace? at found
  split at found
  · cases found
    exact has_item (by assumption)
  · next content node =>
    cases found
    exact ⟨has_of_node node, (List.getElem?_eq_some_iff.mp node).1⟩
  · contradiction

end Program

/-- Among the items with names, each stands at its position. -/
theorem Container.mem_itemNames {start : Nat} {nodes : List (Node Container)}
    (listed : (name, step) ∈ itemNames start nodes) :
    ∃ position inner, step = .item (start + position) ∧
      nodes[position]? = some (.container inner) ∧ inner.name = some name := by
  induction nodes generalizing start with
  | nil => simp [itemNames] at listed
  | cons node rest ih =>
    have later (listed : (name, step) ∈ itemNames (start + 1) rest) :
        ∃ position inner, step = .item (start + position) ∧
          (node :: rest)[position]? = some (.container inner) ∧ inner.name = some name := by
      obtain ⟨position, inner, at_, there, named⟩ := ih listed
      exact ⟨position + 1, inner, by rw [at_]; congr 1; omega, by simpa using there, named⟩
    cases node with
    | content content => exact later (by simpa [itemNames] using listed)
    | container inner =>
      cases named : inner.name with
      | none => exact later (by simpa [itemNames, named] using listed)
      | some own =>
        simp only [itemNames, named, List.mem_cons] at listed
        rcases listed with ⟨rfl, rfl⟩ | listed
        · exact ⟨0, inner, rfl, rfl, named⟩
        · exact later listed

/-- A name that leads anywhere leads to a container. -/
theorem Container.child_stepTo (leads : container.stepTo? name = some step) :
    (container.child? step).isSome := by
  unfold stepTo? at leads
  split at leads
  · cases leads
    assumption
  · have listed := List.mem_reverse.mp (Table.mem_of_lookup leads)
    obtain ⟨position, inner, rfl, there, -⟩ := mem_itemNames listed
    simp [child?, there]

namespace Program

theorem has_named {found : Address} (has : program.Has address)
    (leads : program.named? address name = some found) : program.Has found := by
  obtain ⟨step, there, rfl⟩ := map_eq_some_iff.mp leads
  rw [Has, find_cons (find_container has)]
  exact Container.child_stepTo there

theorem hasPlace_follow {component : Component} (has : program.Has address)
    (leads : program.follow? address component = some place) : program.HasPlace place := by
  cases component with
  | index position => exact hasPlace_childPlace leads
  | name name =>
    obtain ⟨found, there, rfl⟩ := map_eq_some_iff.mp leads
    exact has_named has there
  | parent =>
    obtain ⟨found, there, rfl⟩ := map_eq_some_iff.mp leads
    cases address with
    | nil => contradiction
    | cons step outer =>
      cases there
      exact has_tail has

theorem hasPlace_followAll {components : List Component} (has : program.HasPlace place) :
    program.HasPlace (program.followAll place components).place := by
  induction components generalizing place with
  | nil => exact has
  | cons component rest ih =>
    rw [followAll]
    split
    · exact has
    · next next leads =>
      split
      · exact has
      · obtain ⟨address, here, there⟩ := bind_eq_some_iff.mp leads
        cases place with
        | content address position => contradiction
        | container here' =>
          cases here
          exact ih (hasPlace_follow has there)

theorem eq_container (container : place.container? = some address) :
    place = .container address := by
  cases place with
  | container own =>
    cases container
    rfl
  | content own position => contradiction

theorem has_container (has : program.HasPlace place)
    (container : place.container? = some address) : program.Has address := by
  rw [eq_container container] at has
  exact has

theorem has_parent (has : program.HasPlace place) (parent : place.parent? = some address) :
    program.Has address := by
  rcases place with (_ | ⟨step, outer⟩) | ⟨own, position⟩
  · contradiction
  · cases parent
    exact has_tail has
  · cases parent
    exact has.1

theorem hasPlace_resolvePath (has : program.HasPlace origin) :
    program.HasPlace (program.resolvePath origin path).place := by
  unfold resolvePath
  split
  · split
    · exact hasPlace_followAll has
    · next address _ =>
      have container : program.HasPlace (.container address) := has.1
      exact hasPlace_followAll container
  · have root : program.HasPlace (.container []) := has_root
    exact hasPlace_followAll root

theorem points_startOf (has : program.Has address) : program.Points (.startOf address) :=
  ⟨has, by simp [Pointer.startOf]⟩

theorem points_divertPointer {target : Path} (has : program.HasPlace origin)
    (leads : program.divertPointer? origin target = some pointer) : program.Points pointer := by
  have found : program.HasPlace (program.resolvePath origin target).place :=
    hasPlace_resolvePath has
  simp only [divertPointer?] at leads
  split at leads
  · obtain ⟨address, parent, rfl⟩ := map_eq_some_iff.mp leads
    exact ⟨has_parent found parent, by simp⟩
  · obtain ⟨address, container, rfl⟩ := map_eq_some_iff.mp leads
    exact points_startOf (has_container found container)

theorem points_pointerAt {landing : Landing} (lands : program.pointerAt path = .ok landing)
    (pointed : landing.pointer = some pointer) :
    program.Points pointer := by
  have found : program.HasPlace (program.followAll (.container []) path.beforePosition).place :=
    hasPlace_followAll has_root
  simp only [pointerAt] at lands
  split at lands
  · cases lands
    contradiction
  · next nonempty =>
    split at lands
    · contradiction
    · next elsewhere =>
      cases lands
      obtain ⟨address, container, rfl⟩ := map_eq_some_iff.mp pointed
      refine ⟨has_container found container, fun root => elsewhere ?_⟩
      obtain ⟨rfl, unpositioned⟩ := Pointer.mk.inj root
      rw [Path.beforePosition, unpositioned] at container ⊢
      exact ⟨eq_container container, by simpa [Path.isEmpty] using nonempty⟩

theorem points_following (has : program.Has address)
    (next : program.following? address position = some pointer) : program.Points pointer := by
  induction address generalizing position with
  | nil =>
    unfold following? at next
    split at next
    · cases next
      exact ⟨has, by simp⟩
    · contradiction
  | cons step outer ih =>
    unfold following? at next
    split at next
    · cases next
      exact ⟨has, by simp⟩
    · cases step with
      | item outerPosition => exact ih (has_tail has) next
      | named key => contradiction

theorem points_next {from_ : Pointer} (has : program.Has from_.container)
    (next : program.next? from_ = some pointer) : program.Points pointer :=
  points_following has next

end Program

mutual

/-- Going down from a container of the tree stays in the tree. -/
theorem Container.points_descend {program : Program} {pointer : Pointer} {address : Address}
    (points : program.Points pointer) :
    (container : Container) → program.root.find? address = some container →
      program.Points (container.descend pointer address).2
  | .mk _ _ nodes _, found => by
    match nodes, found with
    | [], found => exact points
    | node :: rest, found => exact Container.points_descendNode node found rfl

theorem Container.points_descendNode {program : Program} {address : Address}
    {parent : Container} :
    (node : Node Container) → program.root.find? address = some parent →
      parent.nodes[0]? = some node → program.Points (Container.descendNode address node).2
  | .content content, found, first => Program.points_startOf (Program.has_iff.mpr ⟨_, found⟩)
  | .container inner, found, first => by
    have there : program.root.find? (.item 0 :: address) = some inner := by
      simp [Program.find_cons found, Container.child?, first]
    exact Container.points_descend (Program.points_startOf (Program.has_iff.mpr ⟨_, found⟩)) inner
      there

end

namespace Program

theorem hasPlace_resolve (has : program.Has pointer.container)
    (resolves : program.resolve? pointer = some place) : program.HasPlace place := by
  unfold resolve? at resolves
  split at resolves
  · cases resolves
    exact has
  · split at resolves
    · cases resolves
      exact has
    · exact hasPlace_childPlace resolves

theorem points_descend (points : program.Points pointer) :
    program.Points (program.descend pointer).2 := by
  unfold descend
  split
  · next address resolves =>
    have has : program.Has address := hasPlace_resolve points.has resolves
    exact Container.points_descend points _ (find_container has)
  · exact points

theorem node_of_content (leaf : program.content? address position = some content) :
    (program.container address).nodes[position]? = some (.content content) := by
  unfold content? at leaf
  split at leaf
  · next there =>
    cases leaf
    exact there
  · contradiction

/-- An object stands at the position that its pointer names. -/
theorem node_of_objectAt (object : program.objectAt? pointer = some (place, content)) :
    ∃ index, pointer = ⟨pointer.container, some index⟩ ∧
      place = .content pointer.container index ∧
      (program.container pointer.container).nodes[index]? = some (.content content) := by
  unfold objectAt? at object
  split at object
  · next address position resolves =>
    obtain ⟨found, there, same⟩ := map_eq_some_iff.mp object
    cases same
    obtain ⟨container, index⟩ := pointer
    cases index with
    | none => cases resolves
    | some index =>
      simp only [resolve?] at resolves
      split at resolves
      · cases resolves
      · unfold childPlace? at resolves
        split at resolves
        · cases resolves
        · next other node =>
          cases resolves
          rw [content?, node] at there
          cases there
          exact ⟨position, rfl, rfl, node⟩
        · contradiction
  · contradiction

theorem hasPlace_objectAt (object : program.objectAt? pointer = some (place, content)) :
    program.HasPlace place := by
  obtain ⟨index, -, rfl, node⟩ := node_of_objectAt object
  exact ⟨has_of_node node, (List.getElem?_eq_some_iff.mp node).1⟩

end Program

end InkStory
