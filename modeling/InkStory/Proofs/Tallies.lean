import InkStory.Proofs.SoundStates
import InkStory.Proofs.StateInvariants

/-! # Counts of containers

Visits and turns are counted for containers of the tree only (`Story.tallied_after`). A save lists
them by path; where no two containers have the same path, counts that agree in every container are
saved alike but for their order. -/

namespace InkStory

open List

variable {address : Address} {program : Program}

/-- No two containers have the same path. -/
def Program.DistinctPaths (program : Program) : Prop :=
  ∀ address other, program.Has address → program.Has other →
    (program.containerPath address).text = (program.containerPath other).text → address = other

namespace Container

variable {inner : Container} {below : Address}

theorem mem_nodeAddressesFrom {nodes : List (Node Container)} {start position : Nat}
    (item : nodes[position]? = some (.container inner))
    (listed : below ∈ inner.addressesFrom (.item (start + position) :: address)) :
    below ∈ nodeAddressesFrom address start nodes := by
  induction nodes generalizing start position with
  | nil => contradiction
  | cons node rest ih =>
    cases position with
    | zero =>
      cases item
      exact mem_append_left _ listed
    | succ position =>
      have later : below ∈ nodeAddressesFrom address (start + 1) rest := by
        apply ih item
        rwa [Nat.add_right_comm]
      cases node with
      | content content => exact later
      | container other => exact mem_append_right _ later

theorem mem_namedAddressesFrom {named : List (String × Container)} {key : String}
    (found : named.lookup key = some inner)
    (listed : below ∈ inner.addressesFrom (.named key :: address)) :
    below ∈ namedAddressesFrom address named := by
  induction named with
  | nil => contradiction
  | cons entry rest ih =>
    rw [lookup_cons] at found
    split at found
    · next same =>
      cases found
      rw [beq_iff_eq] at same
      subst same
      exact mem_append_left _ listed
    · exact mem_append_right _ (ih found)

theorem mem_addressesFrom_child {container : Container} {step : Step}
    (child : container.child? step = some inner)
    (listed : below ∈ inner.addressesFrom (step :: address)) :
    below ∈ container.addressesFrom address := by
  obtain ⟨name, counting, nodes, named⟩ := container
  apply mem_cons_of_mem
  cases step with
  | item position =>
    refine mem_append_left _ (mem_nodeAddressesFrom ?_ (by rwa [Nat.zero_add]))
    simp only [child?] at child
    split at child
    · next item =>
      cases child
      exact item
    · contradiction
  | named key => exact mem_append_right _ (mem_namedAddressesFrom child listed)

theorem mem_addressesFrom_find {root : Container} (found : root.find? address = some inner)
    (listed : below ∈ inner.addressesFrom address) : below ∈ root.addressesFrom [] := by
  induction address generalizing inner with
  | nil =>
    cases found
    exact listed
  | cons step outer ih =>
    obtain ⟨parent, above, child⟩ := Option.bind_eq_some_iff.mp found
    exact ih above (mem_addressesFrom_child child listed)

end Container

/-- Every container of the tree is listed. -/
theorem Program.Has.mem_addresses (has : program.Has address) : address ∈ program.addresses := by
  obtain ⟨container, found⟩ := Program.has_iff.mp has
  apply Container.mem_addressesFrom_find found
  cases container
  exact mem_cons_self

/-- Counts by path are as many as the containers. -/
theorem Program.Counts.entries_byPath {counts : Table Address α} (sound : program.Counts counts)
    (distinct : program.DistinctPaths) :
    (Table.ofList (counts.entries.map fun (address, count) =>
      ((program.containerPath address).text, count))).entries =
      counts.entries.map fun (address, count) => ((program.containerPath address).text, count) := by
  apply Table.entries_ofList
  rw [map_map]
  have texts : counts.entries.map (Prod.fst ∘ fun (address, count) =>
      ((program.containerPath address).text, count)) =
      counts.keys.map fun address => (program.containerPath address).text := by
    rw [Table.keys, map_map]
    rfl
  rw [texts]
  refine List.Nodup.map_on (fun first isFirst second isSecond same => ?_) counts.distinct
  exact distinct first second (sound first isFirst) (sound second isSecond) same

namespace State

/-- Counts with those that a patch has for containers of the tree. -/
def countsWith (program : Program) (counts : Table Address α) (patch : Option (Table Address α)) :
    Table Address α :=
  counts.insertAll <| program.addresses.filterMap fun address =>
    (patch.bind fun patch => patch.get? address).map fun count => (address, count)

section Counts

variable {counts others : Table Address α} {patch otherPatch : Option (Table Address α)}

theorem get?_countsWith (sound : ∀ table, patch = some table → program.Counts table)
    (address : Address) :
    (countsWith program counts patch).get? address =
      (patch.bind fun patch => patch.get? address).or (counts.get? address) := by
  unfold countsWith
  generalize listed : (program.addresses.filterMap fun address =>
    (patch.bind fun patch => patch.get? address).map fun count => (address, count)) = pairs
  have agree : ∀ pair ∈ pairs, (patch.bind fun patch => patch.get? pair.1) = some pair.2 := by
    subst listed
    rintro ⟨found, count⟩ member
    obtain ⟨address, -, patched⟩ := mem_filterMap.mp member
    obtain ⟨_, there, same⟩ := Option.map_eq_some_iff.mp patched
    cases same
    exact there
  rw [Table.get?_insertAll_agreeing (fun address => patch.bind fun patch => patch.get? address)
    agree]
  cases found : patch.bind fun patch => patch.get? address with
  | none =>
    rw [if_neg, Option.none_or]
    intro listed
    obtain ⟨pair, member, rfl⟩ := mem_map.mp listed
    rw [agree pair member] at found
    contradiction
  | some count =>
    obtain ⟨table, there, got⟩ := Option.bind_eq_some_iff.mp found
    have counted : table.contains address := by simp [Table.contains, got]
    have has := sound table there address (Table.contains_iff_mem_keys.mp counted)
    rw [if_pos, Option.some_or]
    subst listed
    refine mem_map.mpr ⟨(address, count), ?_, rfl⟩
    refine mem_filterMap.mpr ⟨address, has.mem_addresses, ?_⟩
    rw [found, Option.map_some]

theorem counts_countsWith (sound : program.Counts counts)
    (patched : ∀ table, patch = some table → program.Counts table) :
    program.Counts (countsWith program counts patch) := by
  apply sound.insertAll
  rintro ⟨address, count⟩ member
  obtain ⟨_, -, found⟩ := mem_filterMap.mp member
  obtain ⟨_, there, same⟩ := Option.map_eq_some_iff.mp found
  cases same
  obtain ⟨table, some_, got⟩ := Option.bind_eq_some_iff.mp there
  apply patched table some_
  apply Table.contains_iff_mem_keys.mp
  simp [Table.contains, got]

/-- Counts that agree in every container are saved alike, up to their order. -/
theorem countsByPath_perm (distinct : program.DistinctPaths) (sound : program.Counts counts)
    (patched : ∀ table, patch = some table → program.Counts table)
    (soundToo : program.Counts others)
    (patchedToo : ∀ table, otherPatch = some table → program.Counts table)
    (same : ∀ address, (patch.bind fun patch => patch.get? address).or (counts.get? address) =
      (otherPatch.bind fun patch => patch.get? address).or (others.get? address)) :
    (countsByPath program counts patch).entries.Perm
      (countsByPath program others otherPatch).entries := by
  have listed := (counts_countsWith sound patched).entries_byPath distinct
  have listedToo := (counts_countsWith soundToo patchedToo).entries_byPath distinct
  have merged : (countsWith program counts patch).entries.Perm
      (countsWith program others otherPatch).entries := by
    apply Table.entries_perm
    intro address
    rw [get?_countsWith patched, get?_countsWith patchedToo, same]
  exact (List.Perm.of_eq listed).trans ((merged.map _).trans (List.Perm.of_eq listedToo.symm))

end Counts

variable {state : State}

theorem SoundCounts.startPatch (sound : SoundCounts program state) :
    SoundCounts program state.startPatch where
  visits := sound.visits
  turns := sound.turns
  patchVisits patch same := by
    cases same
    cases patched : state.patch with
    | none => exact fun _ member => absurd member not_mem_nil
    | some patch => exact sound.patchVisits patch patched
  patchTurns patch same := by
    cases same
    cases patched : state.patch with
    | none => exact fun _ member => absurd member not_mem_nil
    | some patch => exact sound.patchTurns patch patched

theorem SoundCounts.applyPatch (sound : SoundCounts program state) :
    SoundCounts program state.applyPatch := by
  unfold State.applyPatch
  split
  · exact sound
  · next patch patched =>
    refine ⟨?_, ?_, nofun, nofun⟩
    · exact sound.visits.insertAll fun entry member =>
        sound.patchVisits patch patched entry.1 (mem_map_of_mem member)
    · exact sound.turns.insertAll fun entry member =>
        sound.patchTurns patch patched entry.1 (mem_map_of_mem member)

theorem soundCounts_atStart (program : Program) (config : Config) :
    SoundCounts program (atStart config) :=
  ⟨nofun, nofun, nofun, nofun⟩

theorem SoundCounts.congr {other : State} (counts : SoundCounts program state)
    (visits : other.visits = state.visits) (turns : other.turns = state.turns)
    (patch : other.patch = state.patch) : SoundCounts program other := by
  obtain ⟨counted, noted, patchVisits, patchTurns⟩ := counts
  refine ⟨?_, ?_, ?_, ?_⟩
  · rwa [visits]
  · rwa [turns]
  · rwa [patch]
  · rwa [patch]

theorem invariant_soundCounts (program : Program) : Invariant program (SoundCounts program) where
  change changed sound := sound.change changed
  startPatch sound := sound.startPatch
  applyPatch sound := sound.applyPatch
  known sound := sound.congr rfl rfl rfl
  reports _ _ sound := sound.congr rfl rfl rfl
  aside _ _ sound := sound.congr rfl rfl rfl
  cleared sound := sound.congr rfl rfl rfl
  restored sound _ := sound.congr rfl rfl rfl

end State

/-- Counts that are restored are of containers in the tree. -/
theorem counts_restoreCounts (program : Program) (saved : List (String × α)) :
    program.Counts (restoreCounts program saved) := by
  intro address member
  obtain ⟨entry, listed, rfl⟩ := mem_map.mp member
  obtain ⟨named, -, found⟩ := mem_filterMap.mp (Table.mem_of_mem_ofList listed)
  obtain ⟨address, exactly, rfl⟩ := Option.map_eq_some_iff.mp found
  have has : program.HasPlace (program.followPath [] (Path.parse named.1)).place :=
    program.hasPlace_followAll program.has_root
  simp only [Found.exactContainer?] at exactly
  split at exactly
  · contradiction
  · exact program.has_container has exactly

namespace Run

open State

theorem soundCounts_load (program : Program) (text : String) (state : State)
    (sound : SoundCounts program state) : SoundCounts program (leaves (load program text state)) := by
  cases outcome : load program text state with
  | ok _ after =>
    obtain ⟨save, flow, evaluation, output, -, -, -, rfl⟩ := (load_eq_ok_iff ..).mp outcome
    refine (invariant_soundCounts program).warnAll ?_ flow.warnings
    exact ⟨counts_restoreCounts program _, counts_restoreCounts program _, nofun, nofun⟩
  | error error after =>
    rcases (load_eq_error_iff ..).mp outcome with ⟨-, rfl⟩ | ⟨save, flow, -, taken⟩
    · exact sound
    · rcases (takeOver_eq_error_iff ..).mp taken with ⟨-, rfl⟩ | ⟨evaluation, -, -, rfl⟩
      all_goals exact sound.congr rfl rfl rfl

end Run

namespace Story

/-- All counts of a story, and of what it may go back to, are of containers in the tree. -/
abbrev Tallied (story : Story) : Prop :=
  story.Throughout story.program (State.SoundCounts story.program)

variable {story : Story}

/-- Every operation counts containers of the tree only. -/
theorem tallied_after (tallied : story.Tallied) (operation : Operation) :
    (operation.after story).Tallied :=
  tallied.behind (State.invariant_soundCounts _) (State.soundCounts_atStart _)
    (Run.soundCounts_load _) operation

theorem Reachable.tallied (reachable : story.Reachable) : story.Tallied :=
  reachable.throughout State.invariant_soundCounts State.soundCounts_atStart Run.soundCounts_load

end Story

end InkStory
