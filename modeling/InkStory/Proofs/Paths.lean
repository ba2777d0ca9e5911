import InkStory.Proofs.Numerals
import InkStory.Proofs.SplitTexts
import InkStory.Proofs.Tree

/-! # Paths read back

The text of a path is read as the same path, if its components are written as they are read. In a
tree whose names can be told apart, so are the paths of all places, and following them leads there
(`Program.followAll_componentsOf`). -/

namespace InkStory

open List Text

variable {position : Nat} {path : Path} {inner : Container} {step : Step} {address : Address}
  {program : Program} {place : Place}

namespace Component

/-- A component that is read back from its text, between dots. -/
structure Plain (component : Component) : Prop where
  present : component.text.toList ≠ []
  undotted : '.' ∉ component.text.toList
  parsed : parse component.text = component

theorem plain_parent : Plain .parent := ⟨by decide, by decide, rfl⟩

theorem plain_index (small : position < positionLimit) : Plain (.index position) where
  present := by simpa [text] using ofNat_ne_nil position
  undotted dot := by
    have digit : ('.' : Char).isDigit := isDigit_of_mem_ofNat (by simpa [text] using dot)
    exact absurd digit (by decide)
  parsed := by
    have digits : (text (.index position)).toList = ofNat position := by simp [text]
    have number : text (.index position) ≠ "^" := by
      intro upward
      have member : '^' ∈ ofNat position := by
        rw [← digits, upward]
        decide
      exact absurd (isDigit_of_mem_ofNat member) (by decide)
    rw [parse, if_neg number, digits, natural?_ofNat]
    exact if_pos small

/-- Whatever is read between dots is read back. -/
theorem plain_parse {piece : String} (present : piece.toList ≠ []) (undotted : '.' ∉ piece.toList) :
    Plain (parse piece) := by
  unfold parse
  split
  · exact plain_parent
  · next other =>
    split
    · next position numeral =>
      split
      · next small => exact plain_index small
      · next large =>
        exact ⟨present, undotted, by simp [parse, text, other, numeral, large]⟩
    · next unnumbered => exact ⟨present, undotted, by simp [parse, text, other, unnumbered]⟩

end Component

namespace Path

/-- A path whose components are read back. -/
def Canonical (path : Path) : Prop := ∀ component ∈ path.components, component.Plain

theorem toList_joined (components : List Component) :
    (String.intercalate "." (components.map Component.text)).toList =
      ['.'].intercalate (components.map fun component => component.text.toList) := by
  simp [Function.comp_def]

theorem pieces_joined {components : List Component}
    (plain : ∀ component ∈ components, component.Plain) :
    (pieces (String.intercalate "." (components.map Component.text)).toList).filter
        (fun piece => !piece.isEmpty) =
      components.map fun component => component.text.toList := by
  rw [toList_joined]
  cases components with
  | nil => rfl
  | cons first rest =>
    have undotted : ∀ piece ∈ (first :: rest).map fun component => component.text.toList,
        '.' ∉ piece := forall_mem_map.mpr fun component member => (plain component member).undotted
    have split := splitOn_intercalate '.' undotted (by simp)
    change filter _ (splitOn '.' _) = _
    rw [split, filter_eq_self]
    refine forall_mem_map.mpr fun component member => ?_
    simpa using (plain component member).present

/-- A path is read back from its text. -/
theorem parse_text (canonical : path.Canonical) : parse path.text = path := by
  obtain ⟨components, relative⟩ := path
  have read : ((components.map fun component => component.text.toList).map fun piece =>
      Component.parse (String.ofList piece)) = components := by
    rw [map_map]
    refine (map_congr_left fun component member => ?_).trans (map_id components)
    simpa using (canonical component member).parsed
  have joined := pieces_joined canonical
  cases relative with
  | true =>
    have dotted : (text ⟨components, true⟩).toList =
        '.' :: (String.intercalate "." (components.map Component.text)).toList := by
      simp [text]
    simp only [parse, dotted, joined, read]
  | false =>
    have undotted : (String.intercalate "." (components.map Component.text)).toList.head? ≠
        some '.' := by
      rw [toList_joined]
      cases components with
      | nil => simp
      | cons first rest =>
        obtain ⟨present, undotted, -⟩ := canonical first mem_cons_self
        obtain ⟨c, cs, split⟩ := exists_cons_of_ne_nil present
        rw [split] at undotted
        have begins : (['.'].intercalate ((first :: rest).map fun component =>
            component.text.toList)).head? = some c := by
          cases rest <;> simp [split]
        rw [begins]
        rintro ⟨⟩
        exact undotted mem_cons_self
    have plain : text ⟨components, false⟩ = String.intercalate "." (components.map Component.text) := by
      simp [text]
    unfold parse
    rw [plain]
    split
    next relative body same =>
    split at same
    · simp_all
    · obtain ⟨rfl, rfl⟩ := Prod.mk.inj same
      rw [joined, read]

theorem position?_withIndex (path : Path) (position : Nat) :
    (path.withIndex position).position? = some position := by
  simp [position?, last?, withIndex, join]

theorem beforePosition_withIndex (path : Path) (position : Nat) :
    (path.withIndex position).beforePosition = path.components := by
  rw [beforePosition, position?_withIndex]
  simp [withIndex, join]

theorem canonical_withIndex (canonical : path.Canonical)
    (small : position < Component.positionLimit) : (path.withIndex position).Canonical := by
  intro component member
  rcases mem_append.mp member with member | member
  · exact canonical component member
  · obtain rfl := mem_singleton.mp member
    exact Component.plain_index small

/-- Whatever path is read, its text is read as the same path. -/
theorem canonical_parse (text : String) : (parse text).Canonical := by
  intro component member
  obtain ⟨piece, kept, rfl⟩ := mem_map.mp member
  obtain ⟨split, present⟩ := mem_filter.mp kept
  have undotted : '.' ∉ piece := fun dot => not_separates_of_mem split _ dot rfl
  exact Component.plain_parse (by simpa using present) (by simpa using undotted)

/-- **Paths are normalised once.** A path is read alike from any text and from its own. -/
theorem parse_text_parse (text : String) : parse (parse text).text = parse text :=
  parse_text (canonical_parse text)

end Path

namespace Container

variable {name : String} {container : Container}

/-- A name that is read as a name wherever it stands in a path. -/
structure IsName (name : String) : Prop where
  present : name ≠ ""
  sideways : name ≠ "^"
  undotted : '.' ∉ name.toList
  unnumbered : ∀ position, Text.natural? name.toList = some position →
    Component.positionLimit ≤ position

theorem IsName.plain (isName : IsName name) : (Component.name name).Plain where
  present := fun empty => isName.present (by simpa [Component.text] using empty)
  undotted := isName.undotted
  parsed := by
    have read : Component.parse name = .name name := by
      rw [Component.parse, if_neg isName.sideways]
      split
      · next position numeral => exact if_neg (isName.unnumbered position numeral).not_gt
      · rfl
    exact read

/-- The names of the containers within a container. -/
def childNames (container : Container) : List String :=
  (itemNames 0 container.nodes).map Prod.fst ++ container.named.map Prod.fst

/-- A container whose inner containers can be told apart by their names, at every depth. -/
inductive WellNamed : Container → Prop where
  | mk {container : Container} (distinct : container.childNames.Nodup)
      (names : ∀ name ∈ container.childNames, IsName name)
      (listed : ∀ key inner, (key, inner) ∈ container.named → inner.name = some key)
      (small : container.size ≤ Component.positionLimit)
      (items : ∀ inner, .container inner ∈ container.nodes → WellNamed inner)
      (named : ∀ key inner, (key, inner) ∈ container.named → WellNamed inner) :
      WellNamed container

namespace WellNamed

variable {container : Container}

theorem distinct : WellNamed container → container.childNames.Nodup
  | .mk distinct _ _ _ _ _ => distinct

theorem names : WellNamed container → ∀ name ∈ container.childNames, IsName name
  | .mk _ names _ _ _ _ => names

theorem listed : WellNamed container →
    ∀ key inner, (key, inner) ∈ container.named → inner.name = some key
  | .mk _ _ listed _ _ _ => listed

theorem small : WellNamed container → container.size ≤ Component.positionLimit
  | .mk _ _ _ small _ _ => small

theorem child (wellNamed : WellNamed container) (found : container.child? step = some inner) :
    WellNamed inner := by
  obtain ⟨-, -, -, -, items, named⟩ := wellNamed
  cases step with
  | item position =>
    simp only [child?] at found
    split at found
    · next there =>
      cases found
      exact items inner (mem_of_getElem? there)
    · contradiction
  | named key => exact named key inner (Table.mem_of_lookup found)

theorem find (wellNamed : WellNamed container) (found : container.find? address = some inner) :
    WellNamed inner := by
  induction address generalizing inner with
  | nil =>
    cases found
    exact wellNamed
  | cons step outer ih =>
    obtain ⟨parent, there, below⟩ := Option.bind_eq_some_iff.mp found
    exact (ih there).child below

end WellNamed

instance : DecidablePred IsName := fun name =>
  decidable_of_iff (name ≠ "" ∧ name ≠ "^" ∧ '.' ∉ name.toList ∧
      ∀ position ∈ Text.natural? name.toList, Component.positionLimit ≤ position)
    ⟨fun ⟨present, sideways, undotted, unnumbered⟩ => ⟨present, sideways, undotted, unnumbered⟩,
      fun isName => ⟨isName.present, isName.sideways, isName.undotted, isName.unnumbered⟩⟩

mutual

/-- Whether the containers within a container can be told apart. -/
def isWellNamed : Container → Bool
  | mk name counting nodes named =>
    decide ((mk name counting nodes named).childNames.Nodup ∧
      (∀ child ∈ (mk name counting nodes named).childNames, IsName child) ∧
      (∀ entry ∈ named, entry.2.name = some entry.1) ∧
      nodes.length ≤ Component.positionLimit) &&
    itemsWellNamed nodes && namedWellNamed named

/-- Whether the containers among items are such. -/
def itemsWellNamed : List (Node Container) → Bool
  | [] => true
  | .content _ :: rest => itemsWellNamed rest
  | .container inner :: rest => inner.isWellNamed && itemsWellNamed rest

/-- Whether containers that are reached by name are such. -/
def namedWellNamed : List (String × Container) → Bool
  | [] => true
  | (_, inner) :: rest => inner.isWellNamed && namedWellNamed rest

end

mutual

theorem wellNamed_of_isWellNamed :
    ∀ container : Container, container.isWellNamed → WellNamed container
  | mk name counting nodes named, passed => by
    simp only [isWellNamed, Bool.and_eq_true, decide_eq_true_eq] at passed
    obtain ⟨⟨⟨distinct, names, listed, small⟩, items⟩, inner⟩ := passed
    exact .mk distinct names (fun key inner member => listed (key, inner) member) small
      (wellNamed_of_itemsWellNamed nodes items) (wellNamed_of_namedWellNamed named inner)

theorem wellNamed_of_itemsWellNamed :
    ∀ nodes : List (Node Container), itemsWellNamed nodes →
      ∀ inner, .container inner ∈ nodes → WellNamed inner
  | [], _, _, member => nomatch member
  | .content _ :: rest, passed, inner, member => by
    rcases mem_cons.mp member with here | later
    · cases here
    · exact wellNamed_of_itemsWellNamed rest passed inner later
  | .container first :: rest, passed, inner, member => by
    obtain ⟨here, passed⟩ := Bool.and_eq_true_iff.mp passed
    rcases mem_cons.mp member with same | later
    · cases same
      exact wellNamed_of_isWellNamed first here
    · exact wellNamed_of_itemsWellNamed rest passed inner later

theorem wellNamed_of_namedWellNamed :
    ∀ named : List (String × Container), namedWellNamed named →
      ∀ key inner, (key, inner) ∈ named → WellNamed inner
  | [], _, _, _, member => nomatch member
  | (_, first) :: rest, passed, key, inner, member => by
    obtain ⟨here, passed⟩ := Bool.and_eq_true_iff.mp passed
    rcases mem_cons.mp member with same | later
    · cases same
      exact wellNamed_of_isWellNamed first here
    · exact wellNamed_of_namedWellNamed rest passed key inner later

end

/-- An item with a name is listed under it. -/
theorem itemNames_of_getElem {start : Nat} {nodes : List (Node Container)}
    (there : nodes[position]? = some (.container inner)) (named : inner.name = some name) :
    (name, Step.item (start + position)) ∈ itemNames start nodes := by
  induction nodes generalizing start position with
  | nil => simp at there
  | cons node rest ih =>
    cases position with
    | zero =>
      obtain rfl : node = .container inner := by simpa using there
      simp [itemNames, named]
    | succ position =>
      have later : (name, Step.item (start + 1 + position)) ∈ itemNames (start + 1) rest :=
        ih (by simpa using there)
      rw [Nat.add_right_comm, Nat.add_assoc] at later
      cases node with
      | content content => exact later
      | container other =>
        cases own : other.name with
        | none => simpa only [itemNames, own] using later
        | some _ => simpa only [itemNames, own] using mem_cons_of_mem _ later

/-- In a well-named container, a name leads to the container that has it. -/
theorem WellNamed.stepTo (wellNamed : WellNamed container)
    (found : container.child? step = some inner) (named : inner.name = some name) :
    name ∈ container.childNames ∧ container.stepTo? name = some step := by
  have distinct := nodup_append.mp wellNamed.distinct
  cases step with
  | item position =>
    have there : container.nodes[position]? = some (.container inner) := by
      simp only [child?] at found
      split at found
      · next there => rw [there, Option.some.inj found]
      · contradiction
    have member : (name, Step.item (0 + position)) ∈ itemNames 0 container.nodes :=
      itemNames_of_getElem there named
    rw [Nat.zero_add] at member
    have listed : name ∈ (itemNames 0 container.nodes).map Prod.fst :=
      mem_map.mpr ⟨_, member, rfl⟩
    have unkeyed : container.named.lookup name = none := by
      rw [lookup_eq_none_iff]
      intro pair keyed
      refine bne_iff_ne.mpr fun same => ?_
      exact distinct.2.2 name listed pair.1 (mem_map.mpr ⟨pair, keyed, rfl⟩) same
    refine ⟨mem_append_left _ listed, ?_⟩
    rw [stepTo?, unkeyed]
    refine Table.lookup_of_mem ?_ (mem_reverse.mpr member)
    rw [map_reverse, nodup_reverse]
    exact distinct.1
  | named key =>
    have keyed := Table.mem_of_lookup found
    obtain rfl : key = name :=
      Option.some.inj ((wellNamed.listed key inner keyed).symm.trans named)
    refine ⟨mem_append_right _ (mem_map.mpr ⟨_, keyed, rfl⟩), ?_⟩
    rw [stepTo?, if_pos]
    exact Option.isSome_iff_exists.mpr ⟨inner, found⟩

/-- A container is called by its name, or else by its position. -/
theorem WellNamed.component_cases (wellNamed : WellNamed container)
    (found : container.child? step = some inner) :
    (∃ name, IsName name ∧ container.component step = .name name ∧
        container.stepTo? name = some step) ∨
      ∃ position, step = .item position ∧ position < container.size ∧
        container.component step = .index position := by
  cases named : inner.name with
  | some name =>
    obtain ⟨member, leads⟩ := wellNamed.stepTo found named
    refine .inl ⟨name, wellNamed.names name member, ?_, leads⟩
    simp [component, found, named, hasName, leads]
  | none =>
    cases step with
    | named key =>
      have called := wellNamed.listed key inner (Table.mem_of_lookup found)
      rw [named] at called
      contradiction
    | item position =>
      refine .inr ⟨position, rfl, ?_, by simp [component, found, named]⟩
      simp only [child?] at found
      split at found
      · next there => exact (List.getElem?_eq_some_iff.mp there).1
      · contradiction

end Container

namespace Program

/-- A program in which every place can be told by its path. -/
structure WellNamed (program : Program) : Prop where
  /-- The root has items in order. -/
  ordered : program.root.nodes ≠ []
  named : program.root.WellNamed

/-- Whether every place can be told by its path. -/
def isWellNamed (program : Program) : Bool :=
  !program.root.nodes.isEmpty && program.root.isWellNamed

theorem wellNamed_of_isWellNamed (passed : program.isWellNamed) :
    program.WellNamed := by
  obtain ⟨ordered, named⟩ := Bool.and_eq_true_iff.mp passed
  refine ⟨?_, program.root.wellNamed_of_isWellNamed named⟩
  intro empty
  rw [empty] at ordered
  contradiction

variable {pointer : Pointer}

theorem WellNamed.container (wellNamed : program.WellNamed) (has : program.Has address) :
    (program.container address).WellNamed :=
  wellNamed.named.find (find_container has)

theorem child_of_has (has : program.Has (step :: address)) :
    ∃ inner, (program.container address).child? step = some inner := by
  obtain ⟨inner, found⟩ := has_iff.mp has
  rw [find_cons (find_container (has_tail has))] at found
  exact ⟨inner, found⟩

theorem childPlace_of_child
    (found : (program.container address).child? (.item position) = some inner) :
    program.childPlace? address position = some (.container (.item position :: address)) := by
  simp only [Container.child?] at found
  unfold childPlace?
  split at found
  · next there => rw [there]
  · contradiction

/-- The component that calls a container leads to it. -/
theorem follow_component (wellNamed : program.WellNamed) (has : program.Has (step :: address)) :
    program.follow? address ((program.container address).component step) =
      some (.container (step :: address)) := by
  obtain ⟨inner, found⟩ := child_of_has has
  obtain ⟨name, -, called, leads⟩ | ⟨position, rfl, -, called⟩ :=
    (wellNamed.container (has_tail has)).component_cases found
  · simp [called, follow?, named?, leads]
  · rw [called]
    exact childPlace_of_child found

theorem followAll_append {before after : List Component}
    (leads : program.followAll place before = ⟨.container address, false⟩) :
    program.followAll place (before ++ after) = program.followAll (.container address) after := by
  induction before generalizing place with
  | nil =>
    cases leads
    rfl
  | cons component rest ih =>
    rw [followAll] at leads
    rw [cons_append, followAll]
    split at leads
    · cases leads
    · next next found =>
      split at leads
      · cases leads
      · next goesOn =>
        rw [ih leads]
        -- An object on the way would have ended the shorter list as well.
        refine if_neg fun ends => goesOn ?_
        cases rest with
        | nil =>
          obtain ⟨rfl, -⟩ := Found.mk.inj leads
          simp [Place.container?] at ends
        | cons _ _ => simpa using (Bool.and_eq_true_iff.mp ends).2

section

variable (wellNamed : program.WellNamed)

include wellNamed

/-- The path of a container leads to it. -/
theorem followAll_componentsOf (has : program.Has address) :
    program.followAll (.container []) (program.componentsOf address) =
      ⟨.container address, false⟩ := by
  induction address with
  | nil => rfl
  | cons step outer ih =>
    rw [componentsOf, followAll_append (ih (has_tail has))]
    simp [followAll, Place.container?, follow_component wellNamed has]

theorem plain_componentsOf (has : program.Has address) :
    ∀ component ∈ program.componentsOf address, component.Plain := by
  induction address with
  | nil => simp [componentsOf]
  | cons step outer ih =>
    have outer := has_tail has
    obtain ⟨inner, found⟩ := child_of_has has
    simp only [componentsOf, mem_append, mem_singleton]
    rintro component (above | rfl)
    · exact ih outer component above
    · obtain ⟨name, isName, called, -⟩ | ⟨position, rfl, inside, called⟩ :=
        (wellNamed.container outer).component_cases found
      · rw [called]
        exact isName.plain
      · rw [called]
        exact Component.plain_index (inside.trans_le (wellNamed.container outer).small)

theorem canonical_containerPath (has : program.Has address) :
    (program.containerPath address).Canonical :=
  plain_componentsOf wellNamed has

theorem canonical_pathOf (has : program.HasPlace place) : (program.pathOf place).Canonical := by
  cases place with
  | container address => exact canonical_containerPath wellNamed has
  | content address position =>
    obtain ⟨has, inside⟩ := has
    have small := (wellNamed.container has).small
    exact Path.canonical_withIndex (canonical_containerPath wellNamed has) (inside.trans_le small)

theorem canonical_absolutePath {origin : Place} (has : program.HasPlace origin)
    (canonical : path.Canonical) : (program.absolutePath origin path).Canonical := by
  unfold absolutePath
  split
  · exact canonical_pathOf wellNamed (hasPlace_resolvePath has)
  · exact canonical

/-- Containers are told apart by the texts of their paths. -/
theorem eq_of_containerPath_text {other : Address} (has : program.Has address)
    (otherHas : program.Has other)
    (same : (program.containerPath address).text = (program.containerPath other).text) :
    address = other := by
  have parsed := congrArg Path.parse same
  rw [Path.parse_text (canonical_containerPath wellNamed has),
    Path.parse_text (canonical_containerPath wellNamed otherHas)] at parsed
  have components : program.componentsOf address = program.componentsOf other :=
    congrArg Path.components parsed
  have leads := followAll_componentsOf wellNamed has
  rw [components, followAll_componentsOf wellNamed otherHas] at leads
  cases leads
  rfl

/-! ### Pointers and their paths -/

theorem pointerAt_withIndex (has : program.Has address) (position : Nat) :
    program.pointerAt ((program.containerPath address).withIndex position) =
      .ok ⟨some ⟨address, some position⟩, none⟩ := by
  have leads := followAll_componentsOf wellNamed has
  have present : ((program.containerPath address).withIndex position).isEmpty = false := by
    simp [Path.isEmpty, Path.withIndex, Path.join]
  have elsewhere : ¬(Place.container address = .container [] ∧
      (program.containerPath address).components ≠ []) := by
    rintro ⟨root, named⟩
    cases root
    exact named rfl
  simp only [pointerAt, present, Path.beforePosition_withIndex, Path.position?_withIndex]
  rw [containerPath] at elsewhere ⊢
  rw [leads, if_neg elsewhere]
  rfl

end

/-- An absolute path that leads to a container below the root and does not end in a position stands
for a pointer at the container. -/
theorem pointerAt_of_followAll
    (leads : program.followAll (.container []) path.components = ⟨.container address, false⟩)
    (below : address ≠ []) (unnumbered : path.position? = none) :
    program.pointerAt path = .ok ⟨some ⟨address, none⟩, none⟩ := by
  have before : path.beforePosition = path.components := by
    rw [Path.beforePosition, unnumbered]
    rfl
  have present : path.isEmpty = false := by
    rw [Path.isEmpty, isEmpty_eq_false_iff]
    intro empty
    rw [empty] at leads
    cases leads
    exact below rfl
  simp only [pointerAt, present, before, leads, unnumbered]
  simp [Found.container?, Place.container?, below]

/-- The path of a container with a name ends in the name. -/
theorem position?_containerPath (wellNamed : program.WellNamed) (has : program.Has address)
    (below : address ≠ []) (named : (program.container address).name.isSome) :
    (program.containerPath address).position? = none := by
  obtain ⟨step, outer, rfl⟩ := exists_cons_of_ne_nil below
  obtain ⟨inner, found⟩ := child_of_has has
  have same : program.container (step :: outer) = inner := by
    rw [container, find_cons (find_container (has_tail has)), found]
    rfl
  obtain ⟨name, known⟩ := Option.isSome_iff_exists.mp named
  rw [same] at known
  have leads := ((wellNamed.container (has_tail has)).stepTo found known).2
  have called : (program.container outer).component step = .name name := by
    simp [Container.component, found, known, Container.hasName, leads]
  simp [Path.position?, Path.last?, containerPath, componentsOf, called]

/-- The path of a container below the root stands for a pointer at the container, though not always
for one without a position. -/
theorem pointerAt_containerPath (wellNamed : program.WellNamed)
    (has : program.Has (step :: address)) :
    ∃ pointer, program.pointerAt (program.containerPath (step :: address)) =
        .ok ⟨some pointer, none⟩ ∧
      program.resolve? pointer = some (.container (step :: address)) := by
  obtain ⟨inner, found⟩ := child_of_has has
  obtain ⟨name, -, called, -⟩ | ⟨position, rfl, inside, called⟩ :=
    (wellNamed.container (has_tail has)).component_cases found
  · have last : (program.containerPath (step :: address)).position? = none := by
      simp [Path.position?, Path.last?, containerPath, componentsOf, called]
    exact ⟨⟨step :: address, none⟩, pointerAt_of_followAll (followAll_componentsOf wellNamed has)
      (cons_ne_nil step address) last, rfl⟩
  · refine ⟨⟨address, some position⟩, ?_, ?_⟩
    · have path : program.containerPath (.item position :: address) =
          (program.containerPath address).withIndex position := by
        simp [containerPath, componentsOf, called, Path.withIndex, Path.join]
      rw [path]
      exact pointerAt_withIndex wellNamed (has_tail has) position
    · have filled : (program.container address).isEmpty = false := by
        rw [Container.isEmpty, isEmpty_eq_false_iff]
        exact ne_nil_of_length_pos (Nat.zero_lt_of_lt inside)
      simp only [resolve?, filled]
      exact childPlace_of_child found

/-- **Paths address what they name.** In a program whose places can be told by their paths, the path
of a container leads from the root to it, and to no other container; the path of a position in a
container stands for the pointer there. Paths that are read from the texts of these do the same. -/
theorem WellNamed.paths_address (wellNamed : program.WellNamed) :
    (∀ address, program.Has address →
      program.followPath [] (program.containerPath address) = ⟨.container address, false⟩ ∧
      program.followPath [] (Path.parse (program.containerPath address).text) =
        ⟨.container address, false⟩) ∧
    (∀ address other, program.Has address → program.Has other → address ≠ other →
      program.containerPath address ≠ program.containerPath other ∧
      (program.containerPath address).text ≠ (program.containerPath other).text ∧
      Path.parse (program.containerPath address).text ≠
        Path.parse (program.containerPath other).text) ∧
    ∀ address position, program.Has address → position < (program.container address).size →
      program.pointerAt (program.pointerPath ⟨address, some position⟩) =
        .ok ⟨some ⟨address, some position⟩, none⟩ ∧
      program.pointerAt (Path.parse (program.pointerPath ⟨address, some position⟩).text) =
        .ok ⟨some ⟨address, some position⟩, none⟩ := by
  refine ⟨fun address has => ?_, fun address other has otherHas different => ?_,
    fun address position has inside => ?_⟩
  · rw [Path.parse_text (canonical_containerPath wellNamed has)]
    exact ⟨followAll_componentsOf wellNamed has, followAll_componentsOf wellNamed has⟩
  · have apart : (program.containerPath address).text ≠ (program.containerPath other).text :=
      fun same => different (eq_of_containerPath_text wellNamed has otherHas same)
    have paths : program.containerPath address ≠ program.containerPath other :=
      fun same => apart (congrArg Path.text same)
    rw [Path.parse_text (canonical_containerPath wellNamed has),
      Path.parse_text (canonical_containerPath wellNamed otherHas)]
    exact ⟨paths, apart, paths⟩
  · have small := inside.trans_le (wellNamed.container has).small
    have canonical := Path.canonical_withIndex (canonical_containerPath wellNamed has) small
    have leads := pointerAt_withIndex wellNamed has position
    simp only [pointerPath, Path.parse_text canonical]
    exact ⟨leads, leads⟩

/-- A cellar that is reached by name only, in it a shelf without a name and a box with one. -/
def cellarProgram : Program where
  root :=
    .mk none {} [.content (.command .done)]
      [("cellar", .mk (some "cellar") {}
        [.container (.mk none {} [.content (.ofText "jars"), .content (.ofText "dust")] []),
          .container (.mk (some "box") {} [.content (.ofText "2")] [])] [])]

theorem cellarProgram_paths_address :
    cellarProgram.WellNamed ∧ cellarProgram.Has [.item 1, .named "cellar"] ∧
      cellarProgram.followPath []
          (Path.parse (cellarProgram.containerPath [.item 1, .named "cellar"]).text) =
        ⟨.container [.item 1, .named "cellar"], false⟩ ∧
      cellarProgram.pointerAt
          (Path.parse (cellarProgram.pointerPath ⟨[.item 0, .named "cellar"], some 1⟩).text) =
        .ok ⟨some ⟨[.item 0, .named "cellar"], some 1⟩, none⟩ := by
  have wellNamed : cellarProgram.WellNamed := wellNamed_of_isWellNamed (by decide +kernel)
  have box : cellarProgram.Has [.item 1, .named "cellar"] := rfl
  have shelf : cellarProgram.Has [.item 0, .named "cellar"] := rfl
  obtain ⟨containers, -, positions⟩ := WellNamed.paths_address wellNamed
  exact ⟨wellNamed, box, (containers _ box).2, (positions _ 1 shelf (by decide)).2⟩

end Program

end InkStory
