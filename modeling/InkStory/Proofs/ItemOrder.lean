import InkStory.Operator
import InkStory.Proofs.Tables

/-! # Order of the items of sets

Sets are compared by their least and greatest numbers (`ItemSet.compared_by_bounds`). In which order the
items of a set were added is seen exactly if two of them agree in number and list
(`ItemSet.history_unseen_iff`). -/

namespace InkStory

open List

theorem Item.originLe_iff {left right : Item} : left.originLe right ↔
    ∀ origin ∈ left.origin, ∃ other ∈ right.origin, origin ≤ other := by
  unfold originLe
  cases left.origin with
  | none => simp
  | some origin =>
    cases right.origin with
    | none => simp
    | some other =>
      rw [Bool.not_eq_true', decide_eq_false_iff_not, String.not_lt]
      simp

theorem Item.originLe_total (left right : Item) :
    left.originLe right ∨ right.originLe left := by
  rw [originLe_iff, originLe_iff]
  cases left.origin with
  | none => simp
  | some origin =>
    cases right.origin with
    | none => simp
    | some other => simpa using le_total origin other

theorem Item.origin_eq {left right : Item} (le : left.originLe right)
    (ge : right.originLe left) : left.origin = right.origin := by
  rw [originLe_iff] at le ge
  cases known : left.origin with
  | none =>
    cases other : right.origin with
    | none => rfl
    | some origin => simp [known, other] at ge
  | some origin =>
    obtain ⟨other, there, le⟩ := le origin known
    obtain ⟨again, same, ge⟩ := ge other there
    cases known.symm.trans same
    exact (congrArg some (le_antisymm le ge)).trans there.symm

namespace ItemSet

variable {set other left right third : ItemSet} {low high : Int32} {first second entry : Item × Int32}

theorem mem_toList : entry ∈ set.toList ↔ set.items.get? entry.1 = some entry.2 :=
  Table.get?_eq_some_iff.symm

theorem nodup_toList (set : ItemSet) : set.toList.Nodup := .of_map _ set.items.distinct

theorem isEmpty_iff : set.isEmpty ↔ set.toList = [] := List.isEmpty_iff

theorem mem_distinct {names : List String} {name : String} : name ∈ distinct names ↔ name ∈ names := by
  have grows (names kept : List String) :
      name ∈ names.foldl (fun kept name => if kept.contains name then kept else kept ++ [name]) kept ↔
        name ∈ kept ∨ name ∈ names := by
    induction names generalizing kept with
    | nil => simp
    | cons next rest ih =>
      rw [foldl_cons]
      split <;> grind
  exact (grows names []).trans (by simp)

/-- Sets are the same if each item has the same number in both. -/
theorem same_iff : left.same right ↔ ∀ item, left.items.get? item = right.items.get? item := by
  simp only [same, Bool.and_eq_true, beq_iff_eq, all_eq_true]
  constructor
  · rintro ⟨size, within⟩ item
    have subset : left.toList ⊆ right.toList := fun entry member => mem_toList.mpr (within entry member)
    have perm := ((nodup_toList left).subperm subset).perm_of_length_le size.ge
    refine Option.ext fun number => ?_
    exact mem_toList.symm.trans ((perm.mem_iff (a := (item, number))).trans mem_toList)
  · intro same
    refine ⟨(Table.entries_perm same).length_eq, fun entry member => ?_⟩
    rw [← same, mem_toList.mp member]

theorem perm_of_same (same : left.same right) : left.toList.Perm right.toList :=
  Table.entries_perm (same_iff.mp same)

theorem entryLe_iff : entryLe first second ↔
    first.2 < second.2 ∨ first.2 = second.2 ∧ first.1.originLe second.1 := by
  simp [entryLe]

theorem entryLe_trans (first second third : Item × Int32) (left : entryLe first second)
    (right : entryLe second third) : entryLe first third := by
  rw [entryLe_iff] at left right ⊢
  rcases left with less | ⟨level, before⟩
  · rcases right with more | ⟨same, -⟩
    · exact .inl (Int32.lt_trans less more)
    · exact .inl (same ▸ less)
  · rw [level]
    refine right.imp_right fun ⟨same, behind⟩ => ⟨same, ?_⟩
    rw [Item.originLe_iff] at before behind ⊢
    intro origin known
    obtain ⟨middle, there, le⟩ := before origin known
    obtain ⟨last, there, more⟩ := behind middle there
    exact ⟨last, there, le.trans more⟩

theorem entryLe_total (first second : Item × Int32) :
    (entryLe first second || entryLe second first) := by
  rw [Bool.or_eq_true, entryLe_iff, entryLe_iff]
  have total := Item.originLe_total first.1 second.1
  grind

theorem ordered_perm (set : ItemSet) : set.ordered.Perm set.toList := mergeSort_perm _ _

theorem pairwise_ordered (set : ItemSet) : set.ordered.Pairwise (entryLe · ·) :=
  pairwise_mergeSort entryLe_trans entryLe_total _

/-! ### Bounds -/

/-- The least and the greatest number of a set that has any. -/
structure Bounded (set : ItemSet) (low high : Int32) : Prop where
  minimum : set.minimum? = some low
  maximum : set.maximum? = some high
  lowest : ∃ entry ∈ set.toList, entry.2 = low
  highest : ∃ entry ∈ set.toList, entry.2 = high
  within : ∀ entry ∈ set.toList, low ≤ entry.2 ∧ entry.2 ≤ high

theorem bounded_or_empty (set : ItemSet) :
    (∃ low high, set.Bounded low high) ∨
      set.toList = [] ∧ set.minimum? = none ∧ set.maximum? = none := by
  have perm := set.ordered_perm
  have sorted := set.pairwise_ordered
  have level {first second : Item × Int32} (le : entryLe first second) : first.2 ≤ second.2 := by
    rw [entryLe_iff] at le
    grind
  cases ends : set.ordered.getLast? with
  | none =>
    rw [getLast?_eq_none_iff] at ends
    rw [ends] at perm
    refine .inr ⟨perm.nil_eq.symm, ?_, ?_⟩
    · rw [minimum?, least?, ends]
      rfl
    · rw [maximum?, greatest?, ends]
      rfl
  | some last =>
    cases split : set.ordered with
    | nil => simp [split] at ends
    | cons head rest =>
      obtain ⟨before, whole⟩ := getLast?_eq_some_iff.mp ends
      refine .inl ⟨head.2, last.2, ?_, ?_, ⟨head, ?_, rfl⟩, ⟨last, ?_, rfl⟩, fun entry member => ⟨?_, ?_⟩⟩
      · rw [minimum?, least?, split]
        rfl
      · rw [maximum?, greatest?, ends]
        rfl
      · exact perm.mem_iff.mp (by simp [split])
      · exact perm.mem_iff.mp (by simp [whole])
      · have listed := perm.mem_iff.mpr member
        rw [split] at listed sorted
        rcases mem_cons.mp listed with rfl | later
        · exact Int32.le_refl _
        · exact level (rel_of_pairwise_cons sorted later)
      · have listed := perm.mem_iff.mpr member
        rw [whole] at listed sorted
        rcases mem_append.mp listed with earlier | here
        · exact level ((pairwise_append.mp sorted).2.2 entry earlier last (by simp))
        · rw [mem_singleton.mp here]
          exact Int32.le_refl _

/-- A set is greater if all its numbers are. -/
theorem gt_iff : left.gt right ↔ left.toList ≠ [] ∧
    ∀ entry ∈ left.toList, ∀ other ∈ right.toList, other.2 < entry.2 := by
  obtain ⟨low, high, bounded⟩ | ⟨empty, least, -⟩ := left.bounded_or_empty
  · obtain ⟨lowest, member, isLow⟩ := bounded.lowest
    obtain ⟨otherLow, otherHigh, others⟩ | ⟨empty, -, greatest⟩ := right.bounded_or_empty
    · obtain ⟨highest, there, isHigh⟩ := others.highest
      simp only [gt, bounded.minimum, others.maximum, decide_eq_true_eq]
      refine ⟨fun less => ⟨ne_nil_of_mem member, fun entry listed other among => ?_⟩, fun ⟨_, all⟩ => ?_⟩
      · have above := (bounded.within entry listed).1
        have below := (others.within other among).2
        grind
      · rw [← isLow, ← isHigh]
        exact all lowest member highest there
    · simp [gt, bounded.minimum, greatest, empty, ne_nil_of_mem member]
  · simp [gt, least, empty]

theorem lt_eq_gt (left right : ItemSet) : left.lt right = right.gt left := by
  unfold lt gt
  cases left.maximum? <;> cases right.minimum? <;> rfl

theorem le_eq_ge (left right : ItemSet) : left.le right = right.ge left := by
  unfold le ge
  cases right.minimum? <;> cases right.maximum? <;> cases left.minimum? <;> cases left.maximum? <;>
    first | rfl | exact Bool.and_comm ..

theorem ge_iff (bounded : left.Bounded low high) : left.ge right ↔
    ∀ otherLow otherHigh, right.Bounded otherLow otherHigh → otherLow ≤ low ∧ otherHigh ≤ high := by
  obtain ⟨otherLow, otherHigh, others⟩ | ⟨empty, least, -⟩ := right.bounded_or_empty
  · simp only [ge, bounded.minimum, bounded.maximum, others.minimum, others.maximum, Bool.and_eq_true,
      decide_eq_true_eq]
    refine ⟨fun above againLow againHigh again => ?_, fun all => all _ _ others⟩
    cases others.minimum.symm.trans again.minimum
    cases others.maximum.symm.trans again.maximum
    exact above
  · simp only [ge, bounded.minimum, bounded.maximum, least, true_iff]
    intro otherLow otherHigh others
    cases least.symm.trans others.minimum

theorem bounded_of_ge (above : left.ge right) : ∃ low high, left.Bounded low high := by
  refine left.bounded_or_empty.resolve_right fun ⟨_, least, _⟩ => ?_
  simp [ge, least] at above

theorem bounded_of_ne_nil (items : set.toList ≠ []) : ∃ low high, set.Bounded low high :=
  set.bounded_or_empty.resolve_right fun empty => items empty.1

theorem gt_irrefl (set : ItemSet) : set.gt set = false := by
  rw [← Bool.not_eq_true, gt_iff]
  intro ⟨items, all⟩
  obtain ⟨entry, member⟩ := exists_mem_of_ne_nil _ items
  exact Int32.lt_irrefl (all entry member entry member)

theorem gt_trans (above : left.gt right) (below : right.gt third) :
    left.gt third := by
  rw [gt_iff] at above below ⊢
  obtain ⟨middle, there⟩ := exists_mem_of_ne_nil _ below.1
  refine ⟨above.1, fun entry member other among => ?_⟩
  exact Int32.lt_trans (below.2 middle there other among) (above.2 entry member middle there)

theorem ge_refl (items : set.toList ≠ []) : set.ge set := by
  obtain ⟨low, high, bounded⟩ := bounded_of_ne_nil items
  refine (ge_iff bounded).mpr fun otherLow otherHigh again => ?_
  cases bounded.minimum.symm.trans again.minimum
  cases bounded.maximum.symm.trans again.maximum
  exact ⟨Int32.le_refl _, Int32.le_refl _⟩

theorem ge_trans (above : left.ge right) (below : right.ge third) :
    left.ge third := by
  obtain ⟨low, high, bounded⟩ := bounded_of_ge above
  obtain ⟨middleLow, middleHigh, middle⟩ := bounded_of_ge below
  refine (ge_iff bounded).mpr fun otherLow otherHigh others => ?_
  have first := (ge_iff bounded).mp above _ _ middle
  have second := (ge_iff middle).mp below _ _ others
  exact ⟨Int32.le_trans second.1 first.1, Int32.le_trans second.2 first.2⟩

theorem ge_of_gt (above : left.gt right) : left.ge right := by
  obtain ⟨items, all⟩ := gt_iff.mp above
  obtain ⟨low, high, bounded⟩ := bounded_of_ne_nil items
  refine (ge_iff bounded).mpr fun otherLow otherHigh others => ?_
  obtain ⟨lowest, member, isLow⟩ := bounded.lowest
  obtain ⟨highest, there, isHigh⟩ := others.highest
  have ends := bounded.within lowest member
  have otherEnds := others.within highest there
  grind

/-- **Sets are compared by their bounds.** A set is greater than another if it has items and all their
numbers are greater; this is a strict order, and the weaker comparison an order on sets that have
items. -/
theorem compared_by_bounds (left right third : ItemSet) :
    (left.gt right ↔ left.toList ≠ [] ∧
      ∀ entry ∈ left.toList, ∀ other ∈ right.toList, other.2 < entry.2) ∧
    left.lt right = right.gt left ∧ left.le right = right.ge left ∧
    left.gt left = false ∧ (left.gt right → right.gt third → left.gt third) ∧
    (left.ge right → right.ge third → left.ge third) ∧
    (left.toList ≠ [] → left.ge left) ∧ (left.gt right → left.ge right) :=
  ⟨gt_iff, lt_eq_gt left right, le_eq_ge left right, gt_irrefl left, gt_trans, ge_trans, ge_refl,
    ge_of_gt⟩

/-! ### Items that stand level -/

/-- Where an item stands among others: its number counts first, then its list. -/
def place (entry : Item × Int32) : Int32 × Option String := (entry.2, entry.1.origin)

theorem place_eq (le : entryLe first second) (ge : entryLe second first) :
    place first = place second := by
  rw [entryLe_iff] at le ge
  have level : first.2 = second.2 ∧ first.1.originLe second.1 ∧
      second.1.originLe first.1 := by grind
  rw [place, place, level.1, Item.origin_eq level.2.1 level.2.2]

theorem entryLe_of_place (level : place first = place second) : entryLe first second := by
  obtain ⟨number, origin⟩ := Prod.mk.inj level
  refine entryLe_iff.mpr (.inr ⟨number, Item.originLe_iff.mpr ?_⟩)
  rw [origin]
  exact fun origin known => ⟨origin, known, le_rfl⟩

/-- The places of the items do not depend on the order in which they were added. -/
theorem places_of_same (same : set.same other) :
    other.ordered.map place = set.ordered.map place := by
  have sorted (set : ItemSet) : (set.ordered.map place).Pairwise fun before behind =>
      ∀ first second, place first = before → place second = behind → entryLe first second := by
    refine pairwise_map.mpr (set.pairwise_ordered.imp fun le first second isFirst isSecond => ?_)
    exact entryLe_trans _ _ _ (entryLe_of_place isFirst)
      (entryLe_trans _ _ _ le (entryLe_of_place isSecond.symm))
  have perm := (ordered_perm other).trans ((perm_of_same same).symm.trans (ordered_perm set).symm)
  refine (perm.map place).eq_of_pairwise (fun _ _ here there le ge => ?_) (sorted other) (sorted set)
  obtain ⟨first, -, rfl⟩ := mem_map.mp here
  obtain ⟨second, -, rfl⟩ := mem_map.mp there
  exact place_eq (le _ _ rfl rfl) (ge _ _ rfl rfl)

theorem maximum?_eq (set : ItemSet) :
    set.maximum? = (set.ordered.map place).getLast?.map Prod.fst := by
  rw [getLast?_map, Option.map_map]
  rfl

/-- Where no two items stand level, their order does not depend on the order in which they were
added. -/
theorem ordered_of_same (apart : (set.toList.map place).Nodup) (same : set.same other) :
    other.ordered = set.ordered := by
  have perm := (ordered_perm other).trans ((perm_of_same same).symm.trans (ordered_perm set).symm)
  refine perm.eq_of_pairwise (fun first second here there le ge => ?_) (pairwise_ordered other)
    (pairwise_ordered set)
  refine inj_on_of_nodup_map apart ?_ ?_ (place_eq le ge)
  · exact (ordered_perm set).mem_iff.mp (perm.mem_iff.mp here)
  · exact (ordered_perm set).mem_iff.mp there

/-- The set of the same items, added in the opposite order. -/
def turned (set : ItemSet) : ItemSet where
  items := ⟨set.toList.reverse, by
    rw [List.map_reverse, List.nodup_reverse]
    exact set.items.distinct⟩
  remembered := set.remembered

theorem same_turned (set : ItemSet) : set.same set.turned := by
  refine same_iff.mpr fun item => Option.ext fun number => ?_
  rw [Table.get?_eq_some_iff, Table.get?_eq_some_iff]
  exact mem_reverse.symm

theorem not_sublist_of_nodup {entries : List (Item × Int32)} (nodup : entries.Nodup)
    (forth : [first, second].Sublist entries) : ¬[second, first].Sublist entries := by
  induction nodup with
  | nil => cases forth
  | @cons head rest apart _ ih =>
    intro back
    have within {entry : Item × Int32} (pair : [entry, head].Sublist rest) : False :=
      apart head (pair.subset (by simp)) rfl
    cases forth with
    | cons _ forth =>
      cases back with
      | cons _ back => exact ih forth back
      | cons_cons => exact within forth
    | cons_cons _ forth =>
      cases back with
      | cons _ back => exact within back
      | cons_cons => exact apart _ (forth.subset mem_cons_self) rfl

/-- Items that stand level are in the order in which they were added. -/
theorem sublist_ordered (level : place first = place second)
    (added : [first, second].Sublist set.toList) : [first, second].Sublist set.ordered :=
  pair_sublist_mergeSort entryLe_trans entryLe_total (entryLe_of_place level) added

theorem places_nodup (unseen : set.turned.ordered = set.ordered) : (set.toList.map place).Nodup := by
  refine nodup_iff_sublist.mpr fun level doubled => ?_
  obtain ⟨pair, added, places⟩ := sublist_map_iff.mp doubled
  obtain ⟨first, second, rfl⟩ : ∃ first second, pair = [first, second] :=
    length_eq_two.mp (by simpa using (congrArg length places).symm)
  simp only [map_cons, map_nil, cons.injEq, and_true] at places
  have same : place first = place second := places.1.symm.trans places.2
  have back : [second, first].Sublist set.turned.ordered :=
    sublist_ordered same.symm (reverse_sublist.mpr added)
  rw [unseen] at back
  exact not_sublist_of_nodup ((ordered_perm set).nodup_iff.mpr set.nodup_toList)
    (sublist_ordered same added) back

theorem same_singleOr (set other : ItemSet) (found : Option (Item × Int32)) :
    (set.singleOr found).same (other.singleOr found) := by
  cases found with
  | none => rfl
  | some entry => exact same_iff.mpr fun _ => rfl

/-- **The order of items shows how a set was made exactly if two of them stand level.** The same sets have
the same places in order, and so the same value. -/
theorem history_unseen_iff (set : ItemSet) :
    (∀ other, set.same other → other.ordered.map place = set.ordered.map place ∧
      ∀ lists, Operator.listValue.apply lists [.list other] = Operator.listValue.apply lists [.list set]) ∧
    ((∀ other, set.same other → other.ordered = set.ordered ∧ other.text = set.text ∧
      set.least.same other.least ∧ set.greatest.same other.greatest) ↔
        (set.toList.map place).Nodup) := by
  refine ⟨fun other same => ⟨places_of_same same, fun lists => ?_⟩,
    fun unseen => places_nodup (unseen _ set.same_turned).1, fun apart other same => ?_⟩
  · change Except.ok (Value.int (other.maximum?.getD 0)) = .ok (.int (set.maximum?.getD 0))
    rw [maximum?_eq, maximum?_eq, places_of_same same]
  · have ordered := ordered_of_same apart same
    refine ⟨ordered, ?_, ?_, ?_⟩
    · rw [text, text, ordered]
    · rw [least, least, least?, least?, ordered]
      exact same_singleOr _ _ _
    · rw [greatest, greatest, greatest?, greatest?, ordered]
      exact same_singleOr _ _ _

theorem ordered_pair (level : place first = place second) (added : set.toList = [first, second]) :
    set.ordered = [first, second] := by
  refine ((sublist_ordered level (added ▸ .refl _)).eq_of_length ?_).symm
  rw [(ordered_perm set).length_eq, added]

/-- Two items of one list with one number stand in the order in which they were added. -/
theorem history_seen_in_ties :
    ∃ set other : ItemSet, set.same other ∧ set.ordered ≠ other.ordered ∧
      set.text = "tin, box" ∧ other.text = "box, tin" ∧ set.least.same other.least = false := by
  let tin : Item × Int32 := (⟨some "things", "tin"⟩, 1)
  let box : Item × Int32 := (⟨some "things", "box"⟩, 1)
  have forth : (ofList [tin, box]).ordered = [tin, box] := ordered_pair rfl rfl
  have back : (ofList [box, tin]).ordered = [box, tin] := ordered_pair rfl rfl
  refine ⟨ofList [tin, box], ofList [box, tin], ?_⟩
  simp only [text, least, least?, forth, back]
  decide +kernel

end ItemSet

end InkStory
