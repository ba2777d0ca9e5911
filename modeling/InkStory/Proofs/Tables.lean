import InkStory.Table
import Mathlib

/-! # Tables and their entries -/

namespace InkStory

open List

namespace Table

variable {Key : Type u} {Entry : Type v} {Other : Type w} [DecidableEq Key]
  {entries pairs : List (Key × Entry)} {key : Key} {entry : Entry} {table : Table Key Entry}
  {other : Table Key Other} {pair : Key × Entry}

theorem mem_of_lookup (found : entries.lookup key = some entry) : (key, entry) ∈ entries := by
  obtain ⟨before, after, rfl, -⟩ := lookup_eq_some_iff.mp found
  simp

/-- A key that stands once leads to its entry. -/
theorem lookup_of_mem (distinct : (entries.map Prod.fst).Nodup) (listed : (key, entry) ∈ entries) :
    entries.lookup key = some entry := by
  induction entries with
  | nil => contradiction
  | cons head rest ih =>
    rw [map_cons, nodup_cons] at distinct
    rcases mem_cons.mp listed with rfl | listed
    · simp
    · have other : head.1 ≠ key := by
        rintro rfl
        exact distinct.1 (mem_map.mpr ⟨_, listed, rfl⟩)
      have different : (key == head.1) = false := beq_false_of_ne other.symm
      rw [lookup_cons, different]
      exact ih distinct.2 listed

theorem get?_eq_some_iff : table.get? key = some entry ↔ (key, entry) ∈ table.entries :=
  ⟨mem_of_lookup, lookup_of_mem table.distinct⟩

theorem lookup_insertInto (key other : Key) (entry : Entry) (entries : List (Key × Entry)) :
    (insertInto key entry entries).lookup other =
      if other = key then some entry else entries.lookup other := by
  induction entries with
  | nil =>
    by_cases same : other = key
    · simp [insertInto, same]
    · have different : (other == key) = false := beq_false_of_ne same
      simp [insertInto, same, different]
  | cons head rest ih =>
    obtain ⟨former, old⟩ := head
    by_cases same : other = key
    · subst same
      by_cases here : former = other
      · simp [insertInto, here]
      · have different : (other == former) = false := beq_false_of_ne (Ne.symm here)
        simp [insertInto, here, lookup_cons, different, ih]
    · by_cases here : former = key
      · subst here
        have different : (other == former) = false := beq_false_of_ne same
        simp [insertInto, lookup_cons, different, same]
      · simp only [insertInto, here, if_false, lookup_cons, ih, same]

@[simp]
theorem get?_insert (table : Table Key Entry) (key other : Key) (entry : Entry) :
    (table.insert key entry).get? other = if other = key then some entry else table.get? other :=
  lookup_insertInto key other entry table.entries

theorem contains_insert {other : Key} (there : table.contains other) :
    (table.insert key entry).contains other := by
  unfold contains at there ⊢
  rw [get?_insert]
  split
  · rfl
  · exact there

/-- Of pairs with distinct keys, the one of a key counts before the table's own. -/
theorem get?_insertAll {pairs : List (Key × Entry)} (distinct : (pairs.map Prod.fst).Nodup)
    (table : Table Key Entry) (key : Key) :
    (table.insertAll pairs).get? key = (pairs.lookup key).or (table.get? key) := by
  induction pairs generalizing table with
  | nil => rfl
  | cons head rest ih =>
    obtain ⟨first, entry⟩ := head
    rw [map_cons, nodup_cons] at distinct
    have step : table.insertAll ((first, entry) :: rest) =
        (table.insert first entry).insertAll rest := rfl
    rw [step, ih distinct.2, lookup_cons]
    by_cases same : key = first
    · subst same
      have missing : rest.lookup key = none := by
        rw [lookup_eq_none_iff]
        intro pair listed
        exact bne_iff_ne.mpr fun equal => distinct.1 (mem_map.mpr ⟨pair, listed, equal.symm⟩)
      simp [missing]
    · have different : (key == first) = false := beq_false_of_ne same
      simp [same, different]

theorem get?_insertTable (table other : Table Key Entry) (key : Key) :
    (table.insertAll other.entries).get? key = (other.get? key).or (table.get? key) :=
  get?_insertAll other.distinct table key

/-- Of pairs that are entries of one function, each key has the entry that the function gives it. -/
theorem get?_insertAll_agreeing (valueOf : Key → Option Entry)
    (agree : ∀ pair ∈ pairs, valueOf pair.1 = some pair.2) (table : Table Key Entry) (key : Key) :
    (table.insertAll pairs).get? key =
      if key ∈ pairs.map Prod.fst then valueOf key else table.get? key := by
  induction pairs generalizing table with
  | nil => rfl
  | cons pair rest ih =>
    have later : ∀ pair ∈ rest, valueOf pair.1 = some pair.2 :=
      fun pair listed => agree pair (mem_cons_of_mem _ listed)
    rw [insertAll, foldl_cons, ← insertAll, ih later, get?_insert, map_cons]
    by_cases own : key = pair.1
    · subst own
      rw [if_pos rfl, if_pos mem_cons_self, agree pair mem_cons_self, ite_self]
    · simp only [own, mem_cons, false_or, if_false]

theorem get?_mapWithKey (change : Key → Entry → Other) (table : Table Key Entry) (key : Key) :
    (table.mapWithKey change).get? key = (table.get? key).map (change key) := by
  unfold get? mapWithKey
  dsimp only
  induction table.entries with
  | nil => rfl
  | cons pair rest ih =>
    rw [map_cons, lookup_cons, lookup_cons]
    by_cases same : key = pair.1
    · simp [same]
    · simp [beq_eq_false_iff_ne.mpr same, ih]

theorem contains_map (change : Entry → Other) (table : Table Key Entry) (key : Key) :
    (table.map change).contains key = table.contains key := by
  unfold contains map
  rw [get?_mapWithKey, Option.isSome_map]

theorem get?_erase (table : Table Key Entry) (key other : Key) :
    (table.erase key).get? other = if other = key then none else table.get? other := by
  rw [Option.ext_iff]
  intro entry
  rw [get?_eq_some_iff]
  by_cases same : other = key
  · simp [erase, filter, same]
  · simp [erase, filter, same, get?_eq_some_iff]

theorem insertInto_of_not_mem (missing : key ∉ entries.map Prod.fst) (entry : Entry) :
    insertInto key entry entries = entries ++ [(key, entry)] := by
  induction entries with
  | nil => rfl
  | cons head rest ih =>
    rw [map_cons, mem_cons, not_or] at missing
    rw [insertInto, if_neg (Ne.symm missing.1), ih missing.2, cons_append]

/-- Pairs with new and distinct keys go to the end. -/
theorem entries_insertAll (distinct : ((table.entries ++ pairs).map Prod.fst).Nodup) :
    (table.insertAll pairs).entries = table.entries ++ pairs := by
  induction pairs generalizing table with
  | nil => exact (append_nil _).symm
  | cons head rest ih =>
    obtain ⟨key, entry⟩ := head
    have missing : key ∉ table.entries.map Prod.fst := by
      rw [map_append] at distinct
      exact fun member => (nodup_append.mp distinct).2.2 key member key (by simp) rfl
    have inserted : (table.insert key entry).entries = table.entries ++ [(key, entry)] :=
      insertInto_of_not_mem missing entry
    have more : ((table.insert key entry).entries ++ rest) = table.entries ++ (key, entry) :: rest := by
      rw [inserted, append_assoc, singleton_append]
    have step : table.insertAll ((key, entry) :: rest) =
        (table.insert key entry).insertAll rest := rfl
    rw [step, ih (by rw [more]; exact distinct), more]

theorem entries_ofList (distinct : (pairs.map Prod.fst).Nodup) : (ofList pairs).entries = pairs :=
  entries_insertAll (by simpa using distinct)

omit [DecidableEq Key] in
theorem eq_of_entries {left right : Table Key Entry} (same : left.entries = right.entries) :
    left = right := by
  cases left
  cases same
  rfl

theorem ofList_entries (table : Table Key Entry) : ofList table.entries = table :=
  eq_of_entries (entries_ofList table.distinct)

theorem contains_iff_mem_keys : table.contains key ↔ key ∈ table.keys := by
  unfold contains keys
  rw [Option.isSome_iff_exists, mem_map]
  constructor
  · rintro ⟨entry, found⟩
    exact ⟨(key, entry), get?_eq_some_iff.mp found, rfl⟩
  · rintro ⟨⟨_, entry⟩, listed, rfl⟩
    exact ⟨entry, get?_eq_some_iff.mpr listed⟩

/-- Tables with the same keys have them in some order. -/
theorem keys_perm (same : ∀ key, table.contains key = other.contains key) :
    table.keys.Perm other.keys := by
  apply (perm_ext_iff_of_nodup table.distinct other.distinct).mpr
  intro key
  change key ∈ table.keys ↔ key ∈ other.keys
  rw [← contains_iff_mem_keys, ← contains_iff_mem_keys, same]

/-- Tables that answer alike have the same entries in some order. -/
theorem entries_perm {other : Table Key Entry} (same : ∀ key, table.get? key = other.get? key) :
    table.entries.Perm other.entries := by
  rw [perm_ext_iff_of_nodup (.of_map _ table.distinct) (.of_map _ other.distinct)]
  rintro ⟨key, entry⟩
  rw [← get?_eq_some_iff, ← get?_eq_some_iff, same]

theorem size_eq (same : ∀ key, table.contains key = other.contains key) :
    table.size = other.size := by
  simpa [keys, size] using (keys_perm same).length_eq

theorem mem_entries_insert (member : pair ∈ (table.insert key entry).entries) :
    pair = (key, entry) ∨ pair ∈ table.entries := by
  have found := get?_eq_some_iff.mpr member
  rw [get?_insert] at found
  split at found
  · next same =>
    obtain rfl := Option.some.inj found
    exact .inl (Prod.ext same rfl)
  · exact .inr (get?_eq_some_iff.mp found)

theorem mem_entries_insertAll (member : pair ∈ (table.insertAll pairs).entries) :
    pair ∈ table.entries ∨ pair ∈ pairs := by
  induction pairs generalizing table with
  | nil => exact .inl member
  | cons head rest ih =>
    rcases ih member with former | later
    · obtain rfl | former := mem_entries_insert former
      · exact .inr mem_cons_self
      · exact .inl former
    · exact .inr (mem_cons_of_mem _ later)

theorem mem_of_mem_ofList (member : pair ∈ (ofList pairs).entries) : pair ∈ pairs :=
  (mem_entries_insertAll member).resolve_left not_mem_nil

section Renaming

variable {NewKey : Type u'} [DecidableEq NewKey] (rename : Key → NewKey) (change : Entry → Other)

/-- New names and entries for the pairs of a list. -/
def renamed (pair : Key × Entry) : NewKey × Other := (rename pair.1, change pair.2)

theorem insertInto_renamed {key : Key} {entry : Entry} {entries : List (Key × Entry)}
    (apart : ∀ pair ∈ entries, rename pair.1 = rename key → pair.1 = key) :
    (insertInto key entry entries).map (renamed rename change) =
      insertInto (rename key) (change entry) (entries.map (renamed rename change)) := by
  induction entries with
  | nil => rfl
  | cons head rest ih =>
    obtain ⟨former, old⟩ := head
    have later := ih fun pair member => apart pair (mem_cons_of_mem _ member)
    by_cases same : former = key
    · subst same
      simp [insertInto, renamed]
    · have different : rename former ≠ rename key := fun equal =>
        same (apart _ mem_cons_self equal)
      simp only [insertInto, same, if_false, map_cons, later]
      simp [renamed, different]

/-- Tables of pairs with new names have new names in the same places, if no two become one. -/
theorem entries_insertAll_renamed {pairs : List (Key × Entry)} {table : Table Key Entry}
    {other : Table NewKey Other}
    (apart : ∀ key ∈ (table.entries ++ pairs).map Prod.fst,
      ∀ former ∈ (table.entries ++ pairs).map Prod.fst, rename former = rename key → former = key)
    (start : other.entries = table.entries.map (renamed rename change)) :
    (other.insertAll (pairs.map (renamed rename change))).entries =
      (table.insertAll pairs).entries.map (renamed rename change) := by
  induction pairs generalizing table other with
  | nil => exact start
  | cons head rest ih =>
    obtain ⟨key, entry⟩ := head
    have here : key ∈ (table.entries ++ (key, entry) :: rest).map Prod.fst := by simp
    have within : ∀ pair ∈ (table.insert key entry).entries ++ rest,
        pair.1 ∈ (table.entries ++ (key, entry) :: rest).map Prod.fst := by
      intro pair member
      rcases mem_append.mp member with member | member
      · obtain rfl | member := mem_entries_insert member
        · exact here
        · exact mem_map_of_mem (mem_append_left _ member)
      · exact mem_map_of_mem (mem_append_right _ (mem_cons_of_mem _ member))
    refine ih (fun first isFirst second isSecond => ?_) ?_
    · obtain ⟨firstPair, member, rfl⟩ := mem_map.mp isFirst
      obtain ⟨secondPair, other, rfl⟩ := mem_map.mp isSecond
      exact apart _ (within _ member) _ (within _ other)
    · have inserted : (other.insert (rename key) (change entry)).entries =
          (insertInto key entry table.entries).map (renamed rename change) := by
        rw [insertInto_renamed]
        · exact congrArg _ start
        · intro pair member
          exact apart key here pair.1 (mem_map_of_mem (mem_append_left _ member))
      exact inserted

theorem entries_ofList_renamed {pairs : List (Key × Entry)}
    (apart : ∀ key ∈ pairs.map Prod.fst, ∀ former ∈ pairs.map Prod.fst,
      rename former = rename key → former = key) :
    (ofList (pairs.map (renamed rename change))).entries =
      (ofList pairs).entries.map (renamed rename change) :=
  entries_insertAll_renamed rename change (by simpa using apart) rfl

end Renaming

end Table

end InkStory
