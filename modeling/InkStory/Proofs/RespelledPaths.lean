import InkStory.Proofs.ProgramText

/-! # Respelled paths

Where an absolute path is used, it may be written as a relative one, which goes up from the object to
the last container that its own path shares with the target, and down from there. It leads where the
absolute one does. A divert, though, lands by the end of its path too: one to a position may become
one that only goes up, which lands at the start of a container. -/

namespace InkStory

open List Option Container

variable {program : Program} {address : Address} {position count up : Nat} {place found : Place}
  {path : Path} {content : Content}

namespace Path

theorem components_tail (path : Path) : path.tail.components = path.components.tail := by
  unfold tail
  split
  · next components => rw [components]; rfl
  · next short =>
    cases components : path.components with
    | nil => rfl
    | cons first rest =>
      cases rest with
      | nil => rfl
      | cons second others => exact absurd components (short first second others)

end Path

namespace Program

section Shared

variable {α : Type} [DecidableEq α]

theorem sharedLength_le_left (lefts rights : List α) :
    sharedLength lefts rights ≤ lefts.length := by
  fun_induction sharedLength lefts rights with
  | case1 left lefts rights ih => exact Nat.succ_le_succ ih
  | case2 => exact Nat.zero_le _
  | case3 => exact Nat.zero_le _

theorem take_sharedLength (lefts rights : List α) :
    rights.take (sharedLength lefts rights) = lefts.take (sharedLength lefts rights) := by
  fun_induction sharedLength lefts rights with
  | case1 left lefts rights ih => rw [take_succ_cons, take_succ_cons, ih]
  | case2 => rfl
  | case3 => rw [take_zero, take_zero]

theorem sharedLength_of_prefix {lefts rights : List α} (begins : rights <+: lefts) :
    sharedLength lefts rights = rights.length := by
  obtain ⟨rest, rfl⟩ := begins
  induction rights with
  | nil => cases rest <;> rfl
  | cons right rights ih => rw [cons_append, sharedLength, if_pos rfl, ih, length_cons]

end Shared

/-! ### Ways up and down -/

theorem length_componentsOf (address : Address) :
    (program.componentsOf address).length = address.length := by
  induction address with
  | nil => rfl
  | cons step outer ih => rw [componentsOf, length_append, ih]; rfl

theorem length_pathOf_content (address : Address) (position : Nat) :
    (program.pathOf (.content address position)).components.length = address.length + 1 :=
  (length_append ..).trans (congrArg (· + 1) (length_componentsOf address))

/-- The path of a container begins with those of the containers around it. -/
theorem take_componentsOf (within : count ≤ address.length) :
    (program.componentsOf address).take (address.length - count) =
      program.componentsOf (address.drop count) := by
  induction address generalizing count with
  | nil => simp [componentsOf]
  | cons step outer ih =>
    cases count with
    | zero =>
      have whole : (program.componentsOf (step :: outer)).length = (step :: outer).length :=
        length_componentsOf _
      rw [Nat.sub_zero, ← whole, take_length]
      rfl
    | succ count =>
      have within : count ≤ outer.length := Nat.le_of_succ_le_succ within
      rw [componentsOf, length_cons, Nat.add_sub_add_right, drop_succ_cons,
        take_append_of_le_length, ih within]
      rw [length_componentsOf]
      exact Nat.sub_le _ _

/-- From a container, upward steps lead to those around it. -/
theorem followAll_upward (within : count ≤ address.length) (rest : List Component) :
    program.followAll (.container address) (replicate count .parent ++ rest) =
      program.followAll (.container (address.drop count)) rest := by
  induction count generalizing address with
  | zero => rfl
  | succ count ih =>
    cases address with
    | nil => exact absurd within (Nat.not_succ_le_zero _)
    | cons step outer =>
      rw [replicate_succ, cons_append, followAll]
      simp only [Place.container?, bind_some, follow?, Place.parent?, map_some,
        isNone_some, Bool.and_false, Bool.false_eq_true]
      exact ih (Nat.le_of_succ_le_succ within)

/-! ### Paths that lead somewhere -/

theorem has_drop (has : program.Has address) (count : Nat) : program.Has (address.drop count) := by
  induction count generalizing address with
  | zero => exact has
  | succ count ih =>
    cases address with
    | nil => exact has
    | cons step outer => exact ih (has_tail has)

end Program

/-- A name that leads anywhere is the name of a container within. -/
theorem Container.mem_childNames {container : Container} {name : String} {step : Step}
    (leads : container.stepTo? name = some step) : name ∈ container.childNames := by
  unfold stepTo? at leads
  split at leads
  · next listed =>
    obtain ⟨inner, found⟩ := isSome_iff_exists.mp listed
    exact mem_append_right _ (mem_map.mpr ⟨_, Table.mem_of_lookup found, rfl⟩)
  · have listed := mem_reverse.mp (Table.mem_of_lookup leads)
    exact mem_append_left _ (mem_map.mpr ⟨_, listed, rfl⟩)

namespace Program

/-- A component that leads anywhere is read back. -/
theorem plain_of_follow {component : Component} {next : Place} (wellNamed : program.WellNamed)
    (has : program.Has address) (leads : program.follow? address component = some next) :
    component.Plain := by
  cases component with
  | parent => exact Component.plain_parent
  | name name =>
    obtain ⟨found, there, -⟩ := map_eq_some_iff.mp leads
    obtain ⟨step, there, -⟩ := map_eq_some_iff.mp there
    exact ((wellNamed.container has).names name (mem_childNames there)).plain
  | index position =>
    have inside : position < (program.container address).size := by
      have leads : program.childPlace? address position = some next := leads
      unfold childPlace? at leads
      split at leads
      · next there => exact (List.getElem?_eq_some_iff.mp there).1
      · next there => exact (List.getElem?_eq_some_iff.mp there).1
      · contradiction
    exact Component.plain_index (inside.trans_le (wellNamed.container has).small)

theorem plain_of_followAll {components : List Component} (wellNamed : program.WellNamed)
    (has : program.HasPlace place) (leads : program.followAll place components = ⟨found, false⟩) :
    ∀ component ∈ components, component.Plain := by
  induction components generalizing place with
  | nil => exact forall_mem_nil _
  | cons component rest ih =>
    rw [followAll] at leads
    split at leads
    · cases leads
    · next next goes =>
      split at leads
      · cases leads
      · obtain ⟨address, container, goes⟩ := bind_eq_some_iff.mp goes
        have within := has_container has container
        exact forall_mem_cons.mpr ⟨plain_of_follow wellNamed within goes,
          ih (hasPlace_follow within goes) leads⟩

/-! ### Paths of objects -/

/-- Nothing lies below an object: a path that begins with its path is its path. -/
theorem eq_of_followAll_own {rest : List Component} (wellNamed : program.WellNamed)
    (leaf : program.content? address position = some content)
    (leads : program.followAll (.container [])
      ((program.pathOf (.content address position)).components ++ rest) = ⟨place, false⟩) :
    rest = [] ∧ place = .content address position := by
  have there := node_of_content leaf
  have child : program.childPlace? address position = some (.content address position) := by
    rw [childPlace?, there]
  have own : (program.pathOf (.content address position)).components =
      program.componentsOf address ++ [.index position] := rfl
  rw [own, append_assoc,
    followAll_append (followAll_componentsOf wellNamed (has_of_node there)),
    singleton_append, followAll] at leads
  simp only [Place.container?, bind_some, follow?, child] at leads
  cases rest with
  | nil =>
    cases leads
    exact ⟨rfl, rfl⟩
  | cons _ _ => simp at leads

/-- What the relative form of a path that leads somewhere is: the path itself, where nothing is
shared; no way at all to the object itself; and else a way up to a container, and down from there. -/
theorem relativePath_cases (wellNamed : program.WellNamed)
    (leaf : program.content? address position = some content)
    (leads : program.followAll (.container []) path.components = ⟨place, false⟩) :
    program.relativePath (.content address position) path = path ∨
      (path.components = (program.pathOf (.content address position)).components ∧
        place = .content address position ∧
        program.relativePath (.content address position) path = Path.toSelf) ∨
      ∃ up rest, up < address.length ∧
        path.components = program.componentsOf (address.drop up) ++ rest ∧
        (path.components <+: (program.pathOf (.content address position)).components →
          rest = []) ∧
        program.relativePath (.content address position) path =
          ⟨replicate (up + 1) .parent ++ rest, true⟩ := by
  obtain ⟨own, same⟩ : ∃ own, own = (program.pathOf (.content address position)).components :=
    ⟨_, rfl⟩
  obtain ⟨shared, counts⟩ : ∃ shared, shared = sharedLength own path.components := ⟨_, rfl⟩
  have length : own.length = address.length + 1 := same ▸ length_pathOf_content address position
  have within : shared ≤ own.length := counts ▸ sharedLength_le_left own path.components
  have begins : path.components.take shared = own.take shared :=
    counts ▸ take_sharedLength own path.components
  have split : path.components = own.take shared ++ path.components.drop shared := by
    rw [← begins, take_append_drop]
  have form : program.relativePath (.content address position) path =
      if shared = 0 then path
      else ⟨replicate (own.length - shared) .parent ++ path.components.drop shared, true⟩ := by
    rw [counts, same]
    rfl
  rw [← same]
  by_cases apart : shared = 0
  · exact .inl (form.trans (if_pos apart))
  rw [if_neg apart] at form
  refine .inr ?_
  by_cases whole : shared = own.length
  · rw [whole, take_length] at split
    rw [split, same] at leads
    obtain ⟨nothing, here⟩ := eq_of_followAll_own wellNamed leaf leads
    rw [← same] at nothing
    refine .inl ⟨by rw [split, nothing, append_nil], here, ?_⟩
    rw [form, whole, nothing, Nat.sub_self]
    rfl
  · have shorter : shared ≤ address.length := by omega
    have around : own.take shared =
        program.componentsOf (address.drop (address.length - shared)) := by
      have taken : own.take shared = (program.componentsOf address).take shared := by
        rw [same]
        refine take_append_of_le_length ?_
        exact shorter.trans_eq (length_componentsOf address).symm
      rw [taken, ← take_componentsOf (Nat.sub_le _ _), Nat.sub_sub_self shorter]
    refine .inr ⟨address.length - shared, path.components.drop shared, by omega, ?_, ?_, ?_⟩
    · rw [← around, ← split]
    · intro around
      rw [counts, sharedLength_of_prefix around, drop_length]
    · rw [form, length, Nat.succ_sub shorter]

/-- From an object, a way up to a container around it and on from there leads where the path of that
container and the rest of the way lead. -/
theorem resolvePath_upward (rest : List Component) (wellNamed : program.WellNamed)
    (leaf : program.content? address position = some content) (within : up ≤ address.length) :
    program.resolvePath (.content address position)
        ⟨replicate (up + 1) .parent ++ rest, true⟩ =
      program.followAll (.container []) (program.componentsOf (address.drop up) ++ rest) := by
  have has := has_of_node (node_of_content leaf)
  have upward : program.resolvePath (.content address position)
      ⟨replicate (up + 1) .parent ++ rest, true⟩ =
        program.followAll (.container address) (replicate up .parent ++ rest) := by
    rw [resolvePath, followPath, Path.components_tail]
    rfl
  rw [upward, followAll_upward within,
    followAll_append (followAll_componentsOf wellNamed (has_drop has up))]

theorem resolvePath_of_absolute (absolute : path.relative = false)
    (leads : program.followPath [] path = ⟨place, false⟩) (address : Address) (position : Nat) :
    program.resolvePath (.content address position) path = ⟨place, false⟩ := by
  rw [resolvePath, absolute]
  exact leads

section Spelling

variable (wellNamed : program.WellNamed)
  (leaf : program.content? address position = some content) (absolute : path.relative = false)
  (leads : program.followPath [] path = ⟨place, false⟩)

include wellNamed leaf absolute leads

/-- The relative form of a path leads where the path does, except to the object itself. -/
theorem resolvePath_relativePath (elsewhere : place ≠ .content address position) :
    program.resolvePath (.content address position)
      (program.relativePath (.content address position) path) = ⟨place, false⟩ := by
  obtain same | ⟨-, here, -⟩ | ⟨up, rest, within, components, -, form⟩ :=
    relativePath_cases wellNamed leaf leads
  · rw [same]
    exact resolvePath_of_absolute absolute leads address position
  · exact absurd here elsewhere
  · rw [form, resolvePath_upward rest wellNamed leaf within.le, ← components]
    exact leads

/-! ### Paths as they are written -/

/-- Where a path is used, it is read back as its relative form, if that has the shorter text. -/
theorem respelled_eq :
    program.respelled (.content address position) path =
      if (program.relativePath (.content address position) path).text.utf8ByteSize <
          path.text.utf8ByteSize then
        program.relativePath (.content address position) path
      else path := by
  have root : program.HasPlace (.container []) := has_root
  have plain : path.Canonical := plain_of_followAll wellNamed root leads
  have canonical : (program.relativePath (.content address position) path).Canonical := by
    obtain same | ⟨-, -, same⟩ | ⟨up, rest, -, components, -, form⟩ :=
      relativePath_cases wellNamed leaf leads
    · rwa [same]
    · rw [same]
      exact forall_mem_nil _
    · rw [form]
      intro component member
      rcases mem_append.mp member with upward | down
      · rw [eq_of_mem_replicate upward]
        exact Component.plain_parent
      · exact plain component (components ▸ mem_append_right _ down)
  have form : program.compactText (.content address position) path =
      if (program.relativePath (.content address position) path).text.utf8ByteSize <
          path.text.utf8ByteSize then
        (program.relativePath (.content address position) path).text
      else path.text := by
    rw [compactText, absolute]
    rfl
  rw [respelled, form]
  split
  · exact Path.parse_text canonical
  · exact Path.parse_text plain

theorem respelled_leads (elsewhere : place ≠ .content address position) :
    program.resolvePath (.content address position)
      (program.respelled (.content address position) path) = ⟨place, false⟩ := by
  rw [respelled_eq wellNamed leaf absolute leads]
  split
  · exact resolvePath_relativePath wellNamed leaf absolute leads elsewhere
  · exact resolvePath_of_absolute absolute leads address position

end Spelling

/-! ### The tree that is read back -/

theorem container_rewritten (program : Program) (address : Address) :
    program.rewritten.container address =
      (program.container address).rewritten program address := by
  have leads : (program.root.rewritten program []).find? address = _ :=
    find_rewritten program.root address
  rw [append_nil] at leads
  unfold container
  rw [show program.rewritten.root.find? address = _ from leads]
  cases program.root.find? address with
  | some container => rfl
  | none => rfl

theorem content?_rewritten (program : Program) (address : Address) (position : Nat) :
    program.rewritten.content? address position =
      (program.content? address position).map
        (Content.rewritten program (.content address position)) := by
  unfold content?
  rw [container_rewritten, nodes_rewritten, getElem?_rewrittenNodes,
    Nat.zero_add]
  rcases (program.container address).nodes[position]? with _ | _ | _ <;> rfl

theorem childPlace?_rewritten (program : Program) (address : Address) (position : Nat) :
    program.rewritten.childPlace? address position = program.childPlace? address position := by
  unfold childPlace?
  rw [container_rewritten, nodes_rewritten, getElem?_rewrittenNodes]
  rcases (program.container address).nodes[position]? with _ | _ | _ <;> rfl

theorem stepTo?_rewritten (container : Container) (name : String) :
    (container.rewritten program address).stepTo? name = container.stepTo? name := by
  unfold stepTo?
  rw [named_rewritten, lookup_rewrittenNamed, isSome_map,
    nodes_rewritten, itemNames_rewrittenNodes]

theorem follow?_rewritten (program : Program) (address : Address) (component : Component) :
    program.rewritten.follow? address component = program.follow? address component := by
  cases component with
  | index position => exact childPlace?_rewritten program address position
  | parent => rfl
  | name name =>
    simp only [follow?, named?, container_rewritten, stepTo?_rewritten]

theorem followAll_rewritten (program : Program) (place : Place) (components : List Component) :
    program.rewritten.followAll place components = program.followAll place components := by
  induction components generalizing place with
  | nil => rfl
  | cons component rest ih => simp only [followAll, follow?_rewritten, ih]

theorem resolvePath_rewritten (program : Program) (origin : Place) (path : Path) :
    program.rewritten.resolvePath origin path = program.resolvePath origin path := by
  simp only [resolvePath, followPath, followAll_rewritten]

theorem divertPointer?_rewritten (program : Program) (origin : Place) (target : Path) :
    program.rewritten.divertPointer? origin target = program.divertPointer? origin target := by
  simp only [divertPointer?, resolvePath_rewritten]

/-! ### Visits in the tree that is read back -/

/-- A container that is only counted at its start is counted. Of any other container it is not
written how it is counted. -/
def CountsSoundly (program : Program) : Prop :=
  ∀ address ∈ program.addresses, (program.container address).counting.startOnly = true →
    (program.container address).counting.visits = true ∨
      (program.container address).counting.turns = true

instance (program : Program) : Decidable program.CountsSoundly := decidableBAll _ _

theorem CountsSoundly.counting (sound : program.CountsSoundly) (address : Address) :
    (program.rewritten.container address).counting = (program.container address).counting := by
  rw [container_rewritten, counting_rewritten, Counting.ofFlags_flags]
  cases found : program.root.find? address with
  | none =>
    rw [container, found]
    rfl
  | some container =>
    have counts := sound address (Has.mem_addresses (has_iff.mpr ⟨container, found⟩))
    generalize (program.container address).counting = counting at counts ⊢
    obtain ⟨visits, turns, startOnly⟩ := counting
    cases startOnly with
    | false => rfl
    | true => simpa using counts rfl

theorem resolve?_rewritten (program : Program) (pointer : Pointer) :
    program.rewritten.resolve? pointer = program.resolve? pointer := by
  have empty : (program.rewritten.container pointer.container).isEmpty =
      (program.container pointer.container).isEmpty := by
    rw [Container.isEmpty, Container.isEmpty, container_rewritten, nodes_rewritten]
    rcases (program.container pointer.container).nodes with _ | ⟨_ | _, _⟩ <;> rfl
  simp only [resolve?, empty, childPlace?_rewritten]

theorem around_rewritten (program : Program) (pointer : Pointer) :
    program.rewritten.around pointer = program.around pointer := by
  simp only [around, resolve?_rewritten]

theorem CountsSoundly.enteredFrom (sound : program.CountsSoundly) (kept : List Address)
    (child : Place) (atStart : Bool) (address : Address) :
    program.rewritten.enteredFrom kept child atStart address =
      program.enteredFrom kept child atStart address := by
  induction address generalizing child atStart with
  | nil => simp only [Program.enteredFrom, sound.counting, childPlace?_rewritten]
  | cons step outer ih =>
    rw [Program.enteredFrom, Program.enteredFrom, sound.counting, childPlace?_rewritten]
    dsimp only
    rw [ih]

theorem CountsSoundly.enteredByJump (sound : program.CountsSoundly) (previous : Option Pointer)
    (pointer : Pointer) :
    program.rewritten.enteredByJump previous pointer = program.enteredByJump previous pointer := by
  have kept : program.rewritten.around = program.around := funext (around_rewritten program)
  simp only [Program.enteredByJump, kept, resolve?_rewritten, sound.enteredFrom]

end Program

/-- The path of an object that asks for a container. -/
def Content.asked? : Content → Option Path
  | .choicePoint point => some point.target
  | .readCount path => some path
  | _ => none

namespace Container

theorem descend_rewritten (pointer : Pointer) (origin address : Address) :
    ∀ container : Container,
      (container.rewritten program origin).descend pointer address =
        container.descend pointer address
  | .mk _ _ [] _ => by rw [rewritten, rewrittenNodes, descend, descend]
  | .mk _ _ (.content _ :: _) _ => by
    rw [rewritten, rewrittenNodes, descend, descend]
    rfl
  | .mk _ _ (.container inner :: _) _ => by
    rw [rewritten, rewrittenNodes, descend, descend, descendNode, descendNode,
      descend_rewritten _ _ _ inner]

end Container

namespace Program

variable {origin : Place} {last : Nat}

theorem descend_rewritten (program : Program) (pointer : Pointer) :
    program.rewritten.descend pointer = program.descend pointer := by
  simp only [descend, resolve?_rewritten, container_rewritten, Container.descend_rewritten]

theorem CountsSoundly.visitAll (sound : program.CountsSoundly) (state : State)
    (visits : List (Address × Bool)) :
    state.visitAll program.rewritten visits = state.visitAll program visits := by
  have same : State.visit program.rewritten = State.visit program := by
    funext state address atStart
    simp only [State.visit, sound.counting]
  unfold State.visitAll
  rw [same]

theorem CountsSoundly.visitEntered (sound : program.CountsSoundly) (state : State) :
    state.visitEntered program.rewritten = state.visitEntered program := by
  simp only [State.visitEntered, sound.visitAll, sound.enteredByJump]

theorem CountsSoundly.descend (sound : program.CountsSoundly) (state : State)
    (pointer : Pointer) :
    state.descend program.rewritten pointer = state.descend program pointer := by
  simp only [State.descend, descend_rewritten, sound.visitAll]

/-! ### Where diverts land -/

/-- A divert that is moved by writing it. Its target ends in the position of a container around it,
or in its own, and the relative form of the target, which goes only upward, is the shorter one. A
divert to itself is moved only if it is not the first item. -/
structure LosesPosition (program : Program) (origin : Place) (path : Path) : Prop where
  around : path.components <+: (program.pathOf origin).components
  numbered : path.position?.isSome = true
  shorter : (program.relativePath origin path).text.utf8ByteSize < path.text.utf8ByteSize
  moved : path.components = (program.pathOf origin).components → path.position? ≠ some 0

theorem losesPosition_iff :
    program.LosesPosition origin path ↔
      path.components <+: (program.pathOf origin).components ∧ path.position?.isSome ∧
        (program.relativePath origin path).text.utf8ByteSize < path.text.utf8ByteSize ∧
        (path.components = (program.pathOf origin).components → path.position? ≠ some 0) :=
  ⟨fun ⟨around, numbered, shorter, moved⟩ => ⟨around, numbered, shorter, moved⟩,
    fun ⟨around, numbered, shorter, moved⟩ => ⟨around, numbered, shorter, moved⟩⟩

instance (program : Program) (origin : Place) (path : Path) :
    Decidable (program.LosesPosition origin path) :=
  decidable_of_iff _ losesPosition_iff.symm

theorem divertPointer?_of_position (leads : program.resolvePath origin path = ⟨found, false⟩)
    (numbered : path.last? = some (.index last)) :
    program.divertPointer? origin path = found.parent?.map fun address => ⟨address, some last⟩ := by
  simp only [divertPointer?, leads, numbered]

theorem divertPointer?_of_unnumbered (leads : program.resolvePath origin path = ⟨found, false⟩)
    (unnumbered : path.position? = none) :
    program.divertPointer? origin path = found.container?.map .startOf := by
  rw [divertPointer?, leads]
  split
  · next last numbered _ => simp [Path.position?, numbered] at unnumbered
  · rfl

/-- Two paths with one end that lead to one place make a divert land at one place. -/
theorem divertPointer?_congr {other : Path}
    (leads : program.resolvePath origin path = program.resolvePath origin other)
    (same : path.last? = other.last?) :
    program.divertPointer? origin path = program.divertPointer? origin other := by
  simp only [divertPointer?, leads, same]

theorem position?_upward (up : Nat) :
    Path.position? ⟨replicate (up + 1) .parent, true⟩ = none := by
  rw [Path.position?, Path.last?, replicate_succ', getLast?_concat]

/-- A divert upward lands at the start of the container that it leads to. -/
theorem divertPointer?_upward (wellNamed : program.WellNamed)
    (leaf : program.content? address position = some content) (within : up ≤ address.length) :
    program.divertPointer? (.content address position) ⟨replicate (up + 1) .parent, true⟩ =
      some (.startOf (address.drop up)) := by
  have has := has_of_node (node_of_content leaf)
  have leads := resolvePath_upward [] wellNamed leaf within
  rw [append_nil, append_nil, followAll_componentsOf wellNamed (has_drop has up)] at leads
  exact divertPointer?_of_unnumbered leads (position?_upward up)

theorem last?_of_position (ends : path.position? = some last) :
    path.last? = some (.index last) := by
  unfold Path.position? at ends
  split at ends
  · next numbered => rw [numbered, ← some.inj ends]
  · contradiction

section Landing

variable (wellNamed : program.WellNamed)
  (leaf : program.content? address position = some content) (absolute : path.relative = false)
  (leads : program.followPath [] path = ⟨place, false⟩)

include wellNamed leaf absolute leads

/-- A divert that is moved by writing it lands at the start of the container that its target is or,
if the target is the divert itself, at the start of the container it is in; not where it did. -/
theorem LosesPosition.lands (loses : program.LosesPosition (.content address position) path) :
    program.divertPointer? (.content address position)
        (program.respelled (.content address position) path) =
      some (.startOf (place.container?.getD address)) ∧
    program.divertPointer? (.content address position) path ≠
      some (.startOf (place.container?.getD address)) := by
  have has := has_of_node (node_of_content leaf)
  have resolves := resolvePath_of_absolute absolute leads address position
  obtain ⟨last, ends⟩ := isSome_iff_exists.mp loses.numbered
  have before := divertPointer?_of_position resolves (last?_of_position ends)
  rw [respelled_eq wellNamed leaf absolute leads, if_pos loses.shorter, before]
  obtain same | ⟨own, rfl, form⟩ | ⟨up, rest, within, components, around, form⟩ :=
    relativePath_cases wellNamed leaf leads
  · have shorter := loses.shorter
    rw [same] at shorter
    exact absurd shorter (Nat.lt_irrefl _)
  · rw [form]
    refine ⟨rfl, fun lands => loses.moved own ?_⟩
    cases lands
    exact ends
  · obtain rfl := around loses.around
    rw [append_nil] at components form
    rw [followPath, components, followAll_componentsOf wellNamed (has_drop has up)] at leads
    cases leads
    rw [form]
    refine ⟨divertPointer?_upward wellNamed leaf within.le, fun lands => ?_⟩
    -- The position is one of the container outside the one that the target is.
    obtain ⟨pointed, parent, lands⟩ := map_eq_some_iff.mp lands
    have inside : address.drop up ≠ [] := drop_eq_nil_iff.not.mpr (Nat.not_le.mpr within)
    obtain ⟨step, outer, drop⟩ := exists_cons_of_ne_nil inside
    rw [drop] at parent lands
    cases parent
    exact ne_cons_self (congrArg Pointer.container lands)

/-- Every other divert lands where it did. -/
theorem divertPointer?_respelled
    (kept : ¬ program.LosesPosition (.content address position) path) :
    program.divertPointer? (.content address position)
        (program.respelled (.content address position) path) =
      program.divertPointer? (.content address position) path := by
  have resolves := resolvePath_of_absolute absolute leads address position
  rw [respelled_eq wellNamed leaf absolute leads]
  split
  case isFalse => rfl
  case isTrue shorter =>
    obtain same | ⟨own, rfl, form⟩ | ⟨up, rest, within, components, -, form⟩ :=
      relativePath_cases wellNamed leaf leads
    · rw [same]
    · have ends : path.position? = some position := by
        rw [Path.position?, Path.last?, own]
        simp [pathOf, Path.withIndex, Path.join]
      have first : position = 0 := by
        by_contra later
        refine kept ⟨own ▸ prefix_rfl, by rw [ends]; rfl, shorter, fun _ => ?_⟩
        rw [ends]
        exact fun first => later (some.inj first)
      rw [form, divertPointer?_of_position resolves (last?_of_position ends), first]
      rfl
    · have relative := resolvePath_upward rest wellNamed leaf within.le
      rw [← components, ← form] at relative
      have relative := relative.trans leads
      cases rest with
      | nil =>
        rw [append_nil] at components form
        have around : path.components <+:
            (program.pathOf (.content address position)).components := by
          rw [components, ← take_componentsOf within.le]
          exact (List.take_prefix _ _).trans (prefix_append _ _)
        have unnumbered : path.position? = none := by
          by_contra numbered
          refine kept ⟨around, isSome_iff_ne_none.mpr numbered, shorter, fun own => ?_⟩
          have lengths := congrArg length own
          rw [components, length_componentsOf, length_drop, length_pathOf_content] at lengths
          omega
        rw [divertPointer?_of_unnumbered resolves unnumbered,
          divertPointer?_of_unnumbered relative (form ▸ position?_upward up)]
      | cons component rest =>
        refine divertPointer?_congr (relative.trans resolves.symm) ?_
        rw [form, Path.last?, Path.last?, components, getLast?_append_of_ne_nil _ (by simp),
          getLast?_append_of_ne_nil _ (by simp)]

theorem lands_iff :
    program.divertPointer? (.content address position)
        (program.respelled (.content address position) path) =
      program.divertPointer? (.content address position) path ↔
        ¬ program.LosesPosition (.content address position) path := by
  refine ⟨fun same loses => ?_, divertPointer?_respelled wellNamed leaf absolute leads⟩
  obtain ⟨after, before⟩ := loses.lands wellNamed leaf absolute leads
  exact before (same.symm.trans after)

end Landing

/-- **A path leads where it did once it is written and read.** So does the path of every choice and
of every count of visits in a program that is written and read, in the program that is read back. -/
theorem WellNamed.written_paths_lead (wellNamed : program.WellNamed) :
    (∀ address position content path place,
      program.content? address position = some content → path.relative = false →
      program.followPath [] path = ⟨place, false⟩ → place ≠ .content address position →
        program.resolvePath (.content address position) path = ⟨place, false⟩ ∧
        program.resolvePath (.content address position)
          (Path.parse (program.compactText (.content address position) path)) = ⟨place, false⟩) ∧
    ∀ source, Program.read source = .ok program →
      ∃ again, Program.read program.write = .ok again ∧
        ∀ address position content path place,
          program.content? address position = some content → content.asked? = some path →
          path.relative = false → program.followPath [] path = ⟨place, false⟩ →
          place ≠ .content address position →
            ∃ object written, again.content? address position = some object ∧
              object.asked? = some written ∧
              again.resolvePath (.content address position) written = ⟨place, false⟩ := by
  refine ⟨fun address position content path place leaf absolute leads elsewhere => ⟨?_, ?_⟩,
    fun source read => ⟨program.rewritten, read_write read wellNamed,
      fun address position content path place leaf asked absolute leads elsewhere => ?_⟩⟩
  · rw [resolvePath, absolute]
    exact leads
  · exact respelled_leads wellNamed leaf absolute leads elsewhere
  · refine ⟨content.rewritten program (.content address position),
      program.respelled (.content address position) path, ?_, ?_, ?_⟩
    · rw [content?_rewritten, leaf, map_some]
    · cases content <;> cases asked <;> rfl
    · rw [resolvePath_rewritten]
      exact respelled_leads wellNamed leaf absolute leads elsewhere

/-- A cellar that counts how often it is entered, prints the count, and leads to itself and, behind
that, to its end. -/
def cellarSource : String :=
  "\x7b\"inkVersion\":21,\"root\":[\"done\",\x7b\"cellar\":[[\"ev\",\x7b\"CNT?\":\"cellar.0\"\x7d," ++
    "\"out\",\"/ev\",\"\\n\",\x7b\"->\":\"cellar.0\"\x7d,\x7b\"->\":\"cellar.1\"\x7d," ++
    "\x7b\"#f\":1\x7d],\"done\",null]\x7d],\"listDefs\":\x7b\x7d\x7d"

/-- The inner container of the cellar, which is counted. -/
def cellarRoom : Address := [.item 0, .named "cellar"]

def cellarPath (position : Nat) : Path := ⟨[.name "cellar", .index position], false⟩

theorem written_paths_lead_cellar :
    ∃ program again, Program.read cellarSource = .ok program ∧ program.WellNamed ∧
      program.content? cellarRoom 1 = some (.readCount (cellarPath 0)) ∧
      program.followPath [] (cellarPath 0) = ⟨.container cellarRoom, false⟩ ∧
      program.compactText (.content cellarRoom 1) (cellarPath 0) = ".^" ∧
      program.resolvePath (.content cellarRoom 1) (Path.parse ".^") =
        ⟨.container cellarRoom, false⟩ ∧
      Program.read program.write = .ok again ∧
      ∃ object written, again.content? cellarRoom 1 = some object ∧
        object.asked? = some written ∧
        again.resolvePath (.content cellarRoom 1) written = ⟨.container cellarRoom, false⟩ := by
  obtain ⟨program, read, named, leaf, leads, compact⟩ :
      ∃ program, Program.read cellarSource = .ok program ∧ program.isWellNamed ∧
        program.content? cellarRoom 1 = some (.readCount (cellarPath 0)) ∧
        program.followPath [] (cellarPath 0) = ⟨.container cellarRoom, false⟩ ∧
        program.compactText (.content cellarRoom 1) (cellarPath 0) = ".^" := by
    decide +kernel
  have wellNamed := wellNamed_of_isWellNamed named
  obtain ⟨anywhere, reread⟩ := wellNamed.written_paths_lead
  obtain ⟨again, back, objects⟩ := reread cellarSource read
  refine ⟨program, again, read, wellNamed, leaf, leads, compact, ?_, back,
    objects cellarRoom 1 _ (cellarPath 0) _ leaf rfl rfl leads (by decide)⟩
  rw [← compact]
  exact (anywhere cellarRoom 1 _ (cellarPath 0) _ leaf rfl leads (by decide)).2

/-- **A divert lands where it did once it is written and read, unless it loses a position.** One that
does lands at the start of the container that it leads to, or, if it leads to itself, of the one it
is in. Visits are counted as they were. -/
theorem WellNamed.written_diverts_land (wellNamed : program.WellNamed) :
    (∀ address position content path,
      program.content? address position = some content → path.relative = false →
      (program.followPath [] path).approximate = false →
        (program.divertPointer? (.content address position)
            (Path.parse (program.compactText (.content address position) path)) =
          program.divertPointer? (.content address position) path ↔
            ¬ program.LosesPosition (.content address position) path) ∧
        (program.LosesPosition (.content address position) path →
          program.divertPointer? (.content address position)
            (Path.parse (program.compactText (.content address position) path)) =
          some (.startOf ((program.followPath [] path).place.container?.getD address)))) ∧
    ∀ source, Program.read source = .ok program →
      ∃ again, Program.read program.write = .ok again ∧
        (∀ address position divert path,
          program.content? address position = some (.divert divert) →
          divert.target = .path path → path.relative = false →
          (program.followPath [] path).approximate = false →
            ∃ written,
              again.content? address position =
                some (.divert { divert with target := .path written }) ∧
              (again.divertPointer? (.content address position) written =
                program.divertPointer? (.content address position) path ↔
                  ¬ program.LosesPosition (.content address position) path)) ∧
        (program.CountsSoundly → ∀ (state : State) (pointer : Pointer),
          state.visitEntered again = state.visitEntered program ∧
          state.descend again pointer = state.descend program pointer) := by
  have leads (path : Path) (exact : (program.followPath [] path).approximate = false) :
      program.followPath [] path = ⟨(program.followPath [] path).place, false⟩ := by
    rw [← exact]
  refine ⟨fun address position content path leaf absolute exact =>
      ⟨lands_iff wellNamed leaf absolute (leads path exact),
        fun loses => (loses.lands wellNamed leaf absolute (leads path exact)).1⟩,
    fun source read => ⟨program.rewritten, read_write read wellNamed,
      fun address position divert path leaf target absolute exact =>
        ⟨program.respelled (.content address position) path, ?_, ?_⟩,
      fun sound state pointer =>
        ⟨sound.visitEntered state, sound.descend state pointer⟩⟩⟩
  · rw [content?_rewritten, leaf, map_some, Content.rewritten, Divert.rewritten, target]
  · rw [divertPointer?_rewritten]
    exact lands_iff wellNamed leaf absolute (leads path exact)

/-- The divert to the end of the cellar lands where it did. -/
theorem written_diverts_land_cellar :
    ∃ program again written, Program.read cellarSource = .ok program ∧ program.WellNamed ∧
      program.CountsSoundly ∧
      program.content? cellarRoom 6 = some (.divert { target := .path (cellarPath 1) }) ∧
      program.compactText (.content cellarRoom 6) (cellarPath 1) = ".^.^.1" ∧
      Program.read program.write = .ok again ∧
      again.content? cellarRoom 6 = some (.divert { target := .path written }) ∧
      again.divertPointer? (.content cellarRoom 6) written = some ⟨[.named "cellar"], some 1⟩ ∧
      ∀ (state : State), state.visitEntered again = state.visitEntered program := by
  obtain ⟨program, read, named, sound, leaf, compact, exact, kept, lands⟩ :
      ∃ program, Program.read cellarSource = .ok program ∧ program.isWellNamed ∧
        program.CountsSoundly ∧
        program.content? cellarRoom 6 = some (.divert { target := .path (cellarPath 1) }) ∧
        program.compactText (.content cellarRoom 6) (cellarPath 1) = ".^.^.1" ∧
        (program.followPath [] (cellarPath 1)).approximate = false ∧
        ¬ program.LosesPosition (.content cellarRoom 6) (cellarPath 1) ∧
        program.divertPointer? (.content cellarRoom 6) (cellarPath 1) =
          some ⟨[.named "cellar"], some 1⟩ := by
    decide +kernel
  have wellNamed := wellNamed_of_isWellNamed named
  obtain ⟨again, back, diverts, visits⟩ := wellNamed.written_diverts_land.2 cellarSource read
  obtain ⟨written, there, same⟩ := diverts cellarRoom 6 _ (cellarPath 1) leaf rfl rfl exact
  exact ⟨program, again, written, read, wellNamed, sound, leaf, compact, back, there,
    (same.mpr kept).trans lands, fun state => (visits sound state ⟨[], none⟩).1⟩

/-- The divert of the cellar to itself is moved to its start, so that no visit is counted. -/
theorem cellar_divert_moved :
    ∃ program again, Program.read cellarSource = .ok program ∧ program.WellNamed ∧
      program.content? cellarRoom 5 = some (.divert { target := .path (cellarPath 0) }) ∧
      program.followPath [] (cellarPath 0) = ⟨.container cellarRoom, false⟩ ∧
      program.divertPointer? (.content cellarRoom 5) (cellarPath 0) =
        some ⟨[.named "cellar"], some 0⟩ ∧
      program.compactText (.content cellarRoom 5) (cellarPath 0) = ".^" ∧
      program.divertPointer? (.content cellarRoom 5) (Path.parse ".^") =
        some ⟨cellarRoom, some 0⟩ ∧
      Program.read program.write = .ok again ∧
      again.content? cellarRoom 5 = some (.divert { target := .path (Path.parse ".^") }) ∧
      again.divertPointer? (.content cellarRoom 5) (Path.parse ".^") =
        some ⟨cellarRoom, some 0⟩ := by
  obtain ⟨program, read, named, leaf, leads, before, compact, after⟩ :
      ∃ program, Program.read cellarSource = .ok program ∧ program.isWellNamed ∧
        program.content? cellarRoom 5 = some (.divert { target := .path (cellarPath 0) }) ∧
        program.followPath [] (cellarPath 0) = ⟨.container cellarRoom, false⟩ ∧
        program.divertPointer? (.content cellarRoom 5) (cellarPath 0) =
          some ⟨[.named "cellar"], some 0⟩ ∧
        program.compactText (.content cellarRoom 5) (cellarPath 0) = ".^" ∧
        program.divertPointer? (.content cellarRoom 5) (Path.parse ".^") =
          some ⟨cellarRoom, some 0⟩ := by
    decide +kernel
  have wellNamed := wellNamed_of_isWellNamed named
  refine ⟨program, program.rewritten, read, wellNamed, leaf, leads, before, compact, after,
    read_write read wellNamed, ?_, ?_⟩
  · rw [content?_rewritten, leaf, ← compact]
    rfl
  · rw [divertPointer?_rewritten, after]

end Program

end InkStory
