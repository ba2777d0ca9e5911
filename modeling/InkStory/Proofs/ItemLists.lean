import InkStory.Proofs.ItemOrder

/-! # Sets within their lists

Sets make up an algebra in which complements are taken within the lists of the items, or within those
that an empty set remembers (`ItemSet.laws_of_sets`). A set that is moved along its lists and back has
those of its items that found a place (`ItemSet.moves_back`). -/

namespace InkStory

open List ListDefinition ListDefinitions Table

variable {definition : ListDefinition} {entry : Item × Int32} {item : Item} {number : Int32}
  {lists : ListDefinitions}

theorem Table.get?_filter {Key : Type u} {Entry : Type v} [DecidableEq Key] (table : Table Key Entry)
    (keep : Key → Bool) (key : Key) : (table.filter fun key _ => keep key).get? key =
      if keep key then table.get? key else none := by
  refine Option.ext fun entry => get?_eq_some_iff.trans (mem_filter.trans ?_)
  change _ ∧ keep key ↔ _
  rw [← get?_eq_some_iff]
  cases keep key <;> simp

/-! ### Declared items -/

theorem ListDefinition.mem_items :
    entry ∈ definition.items ↔ entry.1.origin = some definition.name ∧
      definition.numbers.get? entry.1.name = some entry.2 := by
  rw [get?_eq_some_iff]
  obtain ⟨⟨origin, name⟩, number⟩ := entry
  simp [items, eq_comm, and_comm]

theorem ListDefinition.itemWith?_iff (definition : ListDefinition)
    (distinct : definition.numbers.values.Nodup) :
    definition.itemWith? number = some item ↔ (item, number) ∈ definition.items := by
  have numbers : definition.items.map Prod.snd = definition.numbers.values := by
    rw [items, map_map]
    rfl
  rw [itemWith?, Option.map_eq_some_iff]
  constructor
  · rintro ⟨entry, found, rfl⟩
    have same : entry.2 = number := by simpa using find?_some found
    exact same ▸ mem_of_find?_eq_some found
  · intro listed
    have there : (definition.items.find? fun entry => entry.2 == number).isSome :=
      find?_isSome.mpr ⟨_, listed, beq_self_eq_true number⟩
    obtain ⟨entry, found⟩ := Option.isSome_iff_exists.mp there
    have same : entry.2 = number := by simpa using find?_some found
    rw [← numbers] at distinct
    have own := inj_on_of_nodup_map distinct (mem_of_find?_eq_some found) listed same
    exact ⟨entry, found, congrArg Prod.fst own⟩

namespace ListDefinitions

variable {origins : List String}

theorem name_of_find {name : String} (found : lists.find? name = some definition) :
    definition.name = name := by
  simpa using find?_some found

/-- The number that an item is declared with. -/
def numberOf? (lists : ListDefinitions) (item : Item) : Option Int32 :=
  item.origin.bind fun origin => (lists.find? origin).bind fun definition =>
    definition.numbers.get? item.name

theorem mem_items_iff (lists : ListDefinitions) (found : lists.find? definition.name = some definition) :
    entry ∈ definition.items ↔ entry.1.origin = some definition.name ∧
      lists.numberOf? entry.1 = some entry.2 := by
  rw [mem_items]
  refine and_congr_right fun origin => ?_
  rw [numberOf?, origin, Option.bind_some, found, Option.bind_some]

theorem numberOf?_eq (found : lists.find? definition.name = some definition)
    (listed : entry ∈ definition.items) : lists.numberOf? entry.1 = some entry.2 :=
  ((lists.mem_items_iff found).mp listed).2

theorem exists_of_numberOf? (declared : lists.numberOf? item = some number) :
    ∃ definition, lists.find? definition.name = some definition ∧ (item, number) ∈ definition.items := by
  obtain ⟨origin, known, within⟩ := Option.bind_eq_some_iff.mp declared
  obtain ⟨definition, found, listed⟩ := Option.bind_eq_some_iff.mp within
  obtain rfl := name_of_find found
  exact ⟨definition, found, mem_items.mpr ⟨known, listed⟩⟩

/-- All items of lists are those that are declared there. -/
theorem get?_allOf :
    (lists.allOf origins).items.get? item = some number ↔
      ∃ name ∈ origins, ∃ definition, lists.find? name = some definition ∧
        (item, number) ∈ definition.items := by
  have listed (entry : Item × Int32) :
      entry ∈ (origins.filterMap lists.find?).flatMap items ↔
        ∃ name ∈ origins, ∃ definition, lists.find? name = some definition ∧ entry ∈ definition.items := by
    grind
  have declared {entry : Item × Int32} {name : String} {definition : ListDefinition}
      (found : lists.find? name = some definition) (listed : entry ∈ definition.items) :
      lists.numberOf? entry.1 = some entry.2 :=
    numberOf?_eq (name_of_find found ▸ found) listed
  change (insertAll {} _).get? item = _ ↔ _
  rw [get?_insertAll_agreeing lists.numberOf?]
  · constructor
    · intro there
      split at there
      · next mapped =>
        obtain ⟨entry, flat, rfl⟩ := mem_map.mp mapped
        obtain ⟨name, named, definition, found, member⟩ := (listed entry).mp flat
        cases (declared found member).symm.trans there
        exact ⟨name, named, definition, found, member⟩
      · contradiction
    · rintro ⟨name, named, definition, found, member⟩
      rw [if_pos, declared found member]
      exact mem_map_of_mem ((listed (item, number)).mpr ⟨name, named, definition, found, member⟩)
  · intro entry member
    obtain ⟨name, -, definition, found, member⟩ := (listed entry).mp member
    exact declared found member

end ListDefinitions

namespace ItemSet

variable {set left right : ItemSet}

/-! ### Laws -/

theorem member_iff : set.member item ↔ ∃ number, set.items.get? item = some number :=
  Option.isSome_iff_exists

theorem get?_eq_none : set.items.get? item = none ↔ set.member item = false :=
  Option.not_isSome_iff_eq_none.symm.trans (Bool.not_eq_true _ ▸ .rfl)

theorem get?_union (left right : ItemSet) (item : Item) :
    (left.union right).items.get? item = (right.items.get? item).or (left.items.get? item) :=
  get?_insertTable _ _ _

theorem get?_inter (left right : ItemSet) (item : Item) : (left.inter right).items.get? item =
    if right.member item then left.items.get? item else none := by
  rw [inter, get?_filter]

theorem get?_without (left right : ItemSet) (item : Item) : (left.without right).items.get? item =
    if right.member item then none else left.items.get? item := by
  rw [without, Table.get?_filter]
  cases right.member item <;> rfl

theorem get?_complement : (set.complement lists).items.get? item =
    if set.member item then none else (lists.allOf set.origins).items.get? item := by
  rw [complement, get?_filter]
  cases set.member item <;> rfl

theorem isEmpty_iff_get? : set.isEmpty ↔ ∀ item, set.items.get? item = none := by
  rw [isEmpty_iff, eq_nil_iff_forall_not_mem]
  refine ⟨fun none item => Option.eq_none_iff_forall_ne_some.mpr fun number found => ?_, fun none entry member => ?_⟩
  · exact none (item, number) (mem_toList.mpr found)
  · rw [mem_toList, none] at member
    contradiction

theorem inter_union_without (left right : ItemSet) :
    ((left.inter right).union (left.without right)).same left := by
  refine same_iff.mpr fun item => ?_
  rw [get?_union, get?_inter, get?_without]
  cases right.member item <;> simp

theorem without_inter (left right : ItemSet) : ((left.without right).inter right).isEmpty := by
  refine isEmpty_iff_get?.mpr fun item => ?_
  rw [get?_inter, get?_without]
  cases right.member item <;> rfl

theorem includes_iff : left.includes right ↔ (right.without left).isEmpty := by
  rw [includes, all_eq_true, isEmpty_iff_get?]
  simp only [get?_without]
  refine ⟨fun all item => ?_, fun none item member => ?_⟩
  · cases there : left.member item with
    | true => rfl
    | false =>
      refine get?_eq_none.mpr (Bool.eq_false_iff.mpr fun member => ?_)
      rw [all item (Table.contains_iff_mem_keys.mp member)] at there
      contradiction
  · have there := Table.contains_iff_mem_keys.mpr member
    by_contra missing
    have nothing := none item
    rw [if_neg missing, get?_eq_none] at nothing
    exact Bool.false_ne_true (nothing.symm.trans there)

/-- A set of items of one list, or an empty set that remembers this list. -/
structure DrawnFrom (set : ItemSet) (definition : ListDefinition) : Prop where
  items : ∀ entry ∈ set.toList, entry ∈ definition.items
  remembers : set.isEmpty = true → ∀ name, name ∈ set.remembered ↔ name = definition.name

namespace DrawnFrom

theorem mem_origins (drawn : set.DrawnFrom definition) (name : String) :
    name ∈ set.origins ↔ name = definition.name := by
  unfold origins
  split
  · next empty => exact drawn.remembers empty name
  · next items =>
    have origin (entry : Item × Int32) (member : entry ∈ set.toList) :
        entry.1.origin = some definition.name :=
      (ListDefinition.mem_items.mp (drawn.items entry member)).1
    rw [isEmpty_iff] at items
    obtain ⟨entry, member⟩ := exists_mem_of_ne_nil _ items
    simp only [mem_distinct, mem_filterMap, Table.keys, mem_map]
    constructor
    · rintro ⟨_, ⟨entry, member, rfl⟩, named⟩
      exact Option.some.inj (named.symm.trans (origin entry member))
    · rintro rfl
      exact ⟨_, ⟨entry, member, rfl⟩, origin entry member⟩

variable (drawn : set.DrawnFrom definition) (found : lists.find? definition.name = some definition)

include drawn found

theorem get?_allOf : (lists.allOf set.origins).items.get? item = some number ↔
    (item, number) ∈ definition.items := by
  simp [ListDefinitions.get?_allOf, drawn.mem_origins, found]

theorem get?_of_member (there : set.member item) :
    (lists.allOf set.origins).items.get? item = set.items.get? item := by
  obtain ⟨number, here⟩ := member_iff.mp there
  rw [here, get?_allOf drawn found]
  exact drawn.items _ (mem_toList.mpr here)

theorem union_complement : (set.union (set.complement lists)).same (set.whole lists) := by
  refine same_iff.mpr fun item => ?_
  rw [get?_union, get?_complement]
  change _ = (lists.allOf set.origins).items.get? item
  cases there : set.member item with
  | true => exact (get?_of_member drawn found there).symm
  | false => simp [get?_eq_none.mpr there]

/-- The complement is drawn from the same list. -/
theorem complement : (set.complement lists).DrawnFrom definition where
  items entry member := by
    rw [mem_toList, get?_complement] at member
    split at member
    · contradiction
    · exact (get?_allOf drawn found).mp member
  remembers := fun _ => drawn.mem_origins

theorem complement_complement : ((set.complement lists).complement lists).same set := by
  have whole (item : Item) : (lists.allOf (set.complement lists).origins).items.get? item =
      (lists.allOf set.origins).items.get? item := by
    refine Option.ext fun number => ?_
    rw [(drawn.complement found).get?_allOf found, drawn.get?_allOf found]
  refine same_iff.mpr fun item => ?_
  rw [get?_complement, whole]
  cases there : set.member item with
  | true =>
    have outside : (set.complement lists).member item = false := by
      rw [← get?_eq_none, get?_complement, if_pos there]
    rw [outside, get?_of_member drawn found there]
    rfl
  | false =>
    rw [get?_eq_none.mpr there]
    split
    · rfl
    · next outside =>
      rw [Bool.not_eq_true, ← get?_eq_none, get?_complement, there] at outside
      exact outside

end DrawnFrom

/-- **Sets are an algebra.** -/
theorem laws_of_sets (left right : ItemSet) (lists : ListDefinitions) :
    ((left.inter right).union (left.without right)).same left ∧
    ((left.without right).inter right).isEmpty ∧
    (left.includes right ↔ (right.without left).isEmpty) ∧
    (∀ item number, (left.complement lists).items.get? item = some number ↔
      left.member item = false ∧ ∃ name ∈ left.origins, ∃ definition,
        lists.find? name = some definition ∧ (item, number) ∈ definition.items) ∧
    ∀ definition, lists.find? definition.name = some definition → left.DrawnFrom definition →
      (left.union (left.complement lists)).same (left.whole lists) ∧
      ((left.complement lists).complement lists).same left := by
  refine ⟨inter_union_without left right, without_inter left right, includes_iff, fun item number => ?_,
    fun definition found drawn => ⟨drawn.union_complement found, drawn.complement_complement found⟩⟩
  rw [get?_complement, ← get?_allOf]
  cases left.member item <;> simp

/-- A list of the least number, the greatest one and zero. -/
def endsList : ListDefinition :=
  ⟨"ends", .ofList [("least", Int32.minValue), ("zero", 0), ("greatest", Int32.maxValue)]⟩

/-- The complement of all items is empty, and remembers whose complement it is. -/
theorem all_ends_again :
    ∃ set : ItemSet, set.DrawnFrom endsList ∧ (set.complement ⟨[endsList]⟩).isEmpty ∧
      ((set.complement ⟨[endsList]⟩).complement ⟨[endsList]⟩).same set := by
  have drawn : (ofList endsList.items).DrawnFrom endsList :=
    ⟨by decide +kernel, fun empty => absurd empty (by decide +kernel)⟩
  refine ⟨_, drawn, by decide +kernel, ?_⟩
  exact ((laws_of_sets _ {} ⟨[endsList]⟩).2.2.2.2 endsList (by decide +kernel) drawn).2

/-! ### Moving along the lists -/

/-- The item of the same list that has the shifted number. -/
def moved? (lists : ListDefinitions) (shift : Int32 → Int32) (entry : Item × Int32) :
    Option (Item × Int32) :=
  entry.1.origin.bind fun origin => (lists.find? origin).bind fun definition =>
    (definition.itemWith? (shift entry.2)).map (·, shift entry.2)

section

variable {shift back : Int32 → Int32} {target : Item × Int32}
  (apart : ∀ definition ∈ lists.definitions, definition.numbers.values.Nodup)
  (declared : ∀ entry ∈ set.toList, lists.numberOf? entry.1 = some entry.2)
  (returns : Function.LeftInverse back shift)

include apart

/-- Where the numbers of a list differ, an item moves to the one that is declared with its shifted
number. -/
theorem moved?_iff (declared : lists.numberOf? entry.1 = some entry.2) :
    moved? lists shift entry = some target ↔ target.1.origin = entry.1.origin ∧
      target.2 = shift entry.2 ∧ lists.numberOf? target.1 = some target.2 := by
  obtain ⟨definition, found, listed⟩ := exists_of_numberOf? declared
  have origin := (mem_items.mp listed).1
  have distinct := apart definition (mem_of_find?_eq_some found)
  rw [moved?, origin, Option.bind_some, found, Option.bind_some, Option.map_eq_some_iff]
  simp only [definition.itemWith?_iff distinct, lists.mem_items_iff found]
  constructor
  · rintro ⟨item, ⟨same, number⟩, rfl⟩
    exact ⟨same, rfl, number⟩
  · rintro ⟨same, number, there⟩
    exact ⟨target.1, ⟨same, number ▸ there⟩, Prod.ext rfl number.symm⟩

include returns

theorem moved?_back (declared : lists.numberOf? entry.1 = some entry.2)
    (moves : moved? lists shift entry = some target) : moved? lists back target = some entry := by
  obtain ⟨origin, number, there⟩ := (moved?_iff apart declared).mp moves
  exact (moved?_iff apart there).mpr ⟨origin.symm, by rw [number, returns entry.2], declared⟩

include declared

/-- No two items move to one. -/
theorem toList_shifted :
    (set.shifted lists shift).toList = set.toList.filterMap (moved? lists shift) := by
  have entries : (set.shifted lists shift).items = .ofList (set.toList.filterMap (moved? lists shift)) := by
    unfold shifted moved?
    simp only [Option.map_eq_bind]
    rfl
  rw [toList, entries, entries_ofList]
  refine pairwise_map.mpr (pairwise_filterMap.mpr (set.nodup_toList.imp_of_mem ?_))
  intro first second here there different target moves other also same
  have firstTarget := ((moved?_iff apart (declared first here)).mp moves).2.2
  have secondTarget := ((moved?_iff apart (declared second there)).mp also).2.2
  rw [same, secondTarget, Option.some.injEq] at firstTarget
  obtain rfl : target = other := Prod.ext same firstTarget.symm
  have again := moved?_back apart returns (declared first here) moves
  rw [moved?_back apart returns (declared second there) also, Option.some.injEq] at again
  exact different again.symm

end

/-- **A set that is moved and moved back has the items that found a place**, as many as there were in
between. -/
theorem moves_back (lists : ListDefinitions) (set : ItemSet) (shift : Int32)
    (apart : ∀ definition ∈ lists.definitions, definition.numbers.values.Nodup)
    (declared : ∀ entry ∈ set.toList, lists.numberOf? entry.1 = some entry.2) :
    ∃ moved back, Operator.add.apply lists [.list set, .int shift] = .ok (.list moved) ∧
      Operator.subtract.apply lists [.list moved, .int shift] = .ok (.list back) ∧
      (∀ entry, entry ∈ back.toList ↔ entry ∈ set.toList ∧ ∃ target : Item,
        target.origin = entry.1.origin ∧ lists.numberOf? target = some (entry.2 + shift)) ∧
      moved.size = back.size := by
  have cancel : Function.LeftInverse (· - shift) (· + shift) := (Int32.add_sub_cancel · shift)
  have undo : Function.LeftInverse (· + shift) (· - shift) := (Int32.sub_add_cancel · shift)
  have forth := toList_shifted apart declared cancel
  have within (target : Item × Int32) (member : target ∈ (set.shifted lists (· + shift)).toList) :
      ∃ entry ∈ set.toList, moved? lists (· + shift) entry = some target := by
    rwa [forth, mem_filterMap] at member
  have returns (target : Item × Int32) (member : target ∈ (set.shifted lists (· + shift)).toList) :
      ∃ entry ∈ set.toList, moved? lists (· + shift) entry = some target ∧
        moved? lists (· - shift) target = some entry := by
    obtain ⟨entry, listed, moves⟩ := within target member
    exact ⟨entry, listed, moves, moved?_back apart cancel (declared entry listed) moves⟩
  have again := toList_shifted apart (fun target member => by
    obtain ⟨entry, listed, moves⟩ := within target member
    exact ((moved?_iff apart (declared entry listed)).mp moves).2.2) undo
  refine ⟨_, _, rfl, rfl, fun entry => ?_, ?_⟩
  · rw [again, mem_filterMap]
    constructor
    · rintro ⟨target, member, moves⟩
      obtain ⟨own, listed, before, behind⟩ := returns target member
      cases moves.symm.trans behind
      obtain ⟨origin, number, there⟩ := (moved?_iff apart (declared entry listed)).mp before
      exact ⟨listed, target.1, origin, number ▸ there⟩
    · rintro ⟨listed, target, origin, there⟩
      have moves : moved? lists (· + shift) entry = some (target, entry.2 + shift) :=
        (moved?_iff apart (declared entry listed)).mpr ⟨origin, rfl, there⟩
      refine ⟨(target, entry.2 + shift), forth ▸ mem_filterMap.mpr ⟨entry, listed, moves⟩, ?_⟩
      exact moved?_back apart cancel (declared entry listed) moves
  · refine Eq.symm ((congrArg length again).trans (filterMap_length_eq_length.mpr ?_))
    intro target member
    obtain ⟨entry, -, -, moves⟩ := returns target member
    rw [moves]
    rfl

/-- One further than the greatest number is the least one; zero has no neighbour and is lost. -/
theorem ends_move_back :
    ∃ set moved back : ItemSet, set.size = 2 ∧
      Operator.add.apply ⟨[endsList]⟩ [.list set, .int 1] = .ok (.list moved) ∧
      Operator.subtract.apply ⟨[endsList]⟩ [.list moved, .int 1] = .ok (.list back) ∧ back.size = moved.size ∧
      (⟨some "ends", "greatest"⟩, Int32.maxValue) ∈ back.toList ∧
      (⟨some "ends", "zero"⟩, 0) ∉ back.toList := by
  let set := ofList [(⟨some "ends", "greatest"⟩, Int32.maxValue), (⟨some "ends", "zero"⟩, 0)]
  obtain ⟨moved, back, forth, again, items, size⟩ :=
    moves_back ⟨[endsList]⟩ set 1 (by decide +kernel) (by decide +kernel)
  refine ⟨set, moved, back, rfl, forth, again, size.symm, ?_, fun member => ?_⟩
  · exact (items _).mpr ⟨by decide +kernel, ⟨some "ends", "least"⟩, rfl, by decide +kernel⟩
  · obtain ⟨-, target, -, there⟩ := (items _).mp member
    obtain ⟨definition, found, listed⟩ := exists_of_numberOf? there
    have none : ∀ entry ∈ endsList.items, entry.2 ≠ 0 + 1 := by decide +kernel
    obtain rfl := mem_singleton.mp (mem_of_find?_eq_some found)
    exact none _ listed rfl

end ItemSet

end InkStory
