import InkStory.Proofs.DeferredCalls

/-! # The record of changed globals

While a line is evaluated the state lists the globals whose changes observers are to be told: those
written in place, and those written to a patch. The list grows by the globals that are assigned while
they have a value, and by nothing else. -/

namespace InkStory

open List Patch Run Table

variable {names : List String} {name other : String} {writable : String → Prop} {place : Place}
  {content : Content} {story : Story} {callable : HostCall → Prop}

namespace Globals

theorem mem_addName : other ∈ addName names name ↔ other ∈ names ∨ other = name := by
  unfold addName
  split
  · next listed =>
    have listed : name ∈ names := by simpa using listed
    constructor
    · exact .inl
    · rintro (member | rfl)
      · exact member
      · exact listed
  · simp

theorem mem_foldl_addName {added : List String} :
    other ∈ added.foldl addName names ↔ other ∈ names ∨ other ∈ added := by
  induction added generalizing names with
  | nil => simp
  | cons first rest ih => rw [foldl_cons, ih, mem_addName, mem_cons, or_assoc]

end Globals

/-- The names of a list that have values, with their values. -/
def valuedNames (value? : String → Option Value) (names : List String) : List (String × Value) :=
  names.filterMap fun name => (value? name).map fun value => (name, value)

/-- A table that names are inserted into with their values has the values of those names. -/
theorem get?_insertAll_valuedNames {value? : String → Option Value} {table : Table String Value} :
    (table.insertAll (valuedNames value? names)).get? name =
      if name ∈ names ∧ (value? name).isSome then value? name else table.get? name := by
  induction names generalizing table with
  | nil => simp [valuedNames, insertAll]
  | cons first rest ih =>
    unfold valuedNames at ih ⊢
    cases found : value? first with
    | none =>
      rw [filterMap_cons_none (by rw [found]; rfl), ih]
      by_cases same : name = first
      · simp [same, found]
      · simp [same]
    | some value =>
      rw [filterMap_cons_some (by rw [found]; rfl), insertAll, foldl_cons,
        ← insertAll, ih]
      by_cases same : name = first
      · simp [same, found]
      · simp [same]

namespace State

/-- The value that writes kept apart give a global. -/
def patched? (state : State) (name : String) : Option Value :=
  state.patch.bind fun patch => patch.globals.get? name

/-- The globals that the patch lists as changed. A patch that stays from line to line lists those of
former lines. -/
def listed (state : State) : List String := (state.patch.map changed).getD []

/-- The globals whose changes observers are to be told when the line ends. -/
def noted (state : State) : List String := state.globals.batch.getD [] ++ state.listed

/-- Every declared global has a value, and so has every change that a patch lists. -/
structure Recorded (state : State) : Prop where
  declared : ∀ name, (state.globals.default? name).isSome = true →
    (state.globals.values.get? name).isSome = true
  patched : ∀ name ∈ state.listed, (state.patched? name).isSome = true

/-- Within a line, moreover, the changes noted in place have values, and are noted again where a
patch hides the values. -/
structure Noting (state : State) : Prop extends Recorded state where
  begun : state.globals.batch.isSome = true
  batched : ∀ name ∈ state.globals.batch.getD [], (state.globals.values.get? name).isSome = true ∧
    ((state.patched? name).isSome = true → name ∈ state.listed)

variable {state after : State} {program : Program} {value : Value} {assignment : Assignment}

/-! ### What decides the record -/

/-- States with the same globals and the same writes to globals. -/
structure SameGlobals (state after : State) : Prop where
  values : after.globals.values = state.globals.values
  defaults : after.globals.defaults = state.globals.defaults
  batch : after.globals.batch = state.globals.batch
  patch : after.patch.map uncounted = state.patch.map uncounted

section

variable (same : SameGlobals state after)

include same

theorem SameGlobals.patched? : after.patched? name = state.patched? name := by
  have mapped := congrArg (Option.bind · fun patch => patch.globals.get? name) same.patch
  simp only [Option.bind_map] at mapped
  exact mapped

theorem SameGlobals.listed : after.listed = state.listed := by
  have mapped := congrArg (Option.map changed) same.patch
  simp only [Option.map_map, Function.comp_def, uncounted] at mapped
  rw [State.listed, State.listed, mapped]

theorem SameGlobals.noted : after.noted = state.noted := by
  rw [State.noted, State.noted, same.batch, same.listed]

theorem SameGlobals.recorded (recorded : state.Recorded) : after.Recorded where
  declared name := by
    rw [Globals.default?, same.defaults, same.values]
    exact recorded.declared name
  patched name := by
    rw [same.listed, same.patched?]
    exact recorded.patched name

theorem SameGlobals.noting (noting : state.Noting) : after.Noting where
  toRecorded := same.recorded noting.toRecorded
  begun := by
    rw [same.batch]
    exact noting.begun
  batched name := by
    rw [same.batch, same.values, same.listed, same.patched?]
    exact noting.batched name

end

theorem Counted.sameGlobals (counted : Counted state after) : SameGlobals state after := by
  obtain ⟨visits, turns, patch, rfl, same⟩ := counted
  exact ⟨rfl, rfl, rfl, same⟩

/-- A change writes a global or leaves all as they are. -/
theorem Alters.write_or_same {limits : Limits} (change : Alters program limits state after) :
    (∃ name value, limits.writable name ∧ after = state.write name value) ∨
      SameGlobals state after := by
  cases change with
  | visit visits => exact .inr (counted_visitAll program state visits).sameGlobals
  | write name value allowed => exact .inl ⟨name, value, allowed, rfl⟩
  | _ => exact .inr ⟨rfl, rfl, rfl, rfl⟩

/-! ### Writes -/

theorem global?_eq_or : state.global? name =
    ((state.patched? name).or (state.globals.values.get? name)).or (state.globals.default? name) :=
  rfl

theorem Recorded.stored? (recorded : state.Recorded) :
    (state.globals.stored? state.patch name).isSome = (state.global? name).isSome := by
  rw [global?, Globals.get?]
  cases found : state.globals.stored? state.patch name with
  | some value => rfl
  | none =>
    cases declared : state.globals.default? name with
    | none => rfl
    | some value =>
      have there := recorded.declared name (by rw [declared]; rfl)
      rw [Globals.stored?, Option.or_eq_none_iff] at found
      rw [found.2] at there
      contradiction

theorem default?_write : (state.write name value).globals.default? other =
    state.globals.default? other := by
  cases patched : state.patch <;> cases begun : state.globals.batch <;>
    simp only [write, Globals.set, patched, begun] <;> rfl

/-- A write in place. -/
theorem write_in_place (unpatched : state.patch = none) (name : String) (value : Value) :
    (state.write name value).patch = none ∧
      (state.write name value).globals.values =
        state.globals.values.insert name (value.replacing (state.globals.stored? none name)) ∧
      (state.write name value).globals.batch = state.globals.batch.map fun batch =>
        if (state.globals.stored? none name).isSome then Globals.addName batch name else batch := by
  cases begun : state.globals.batch <;> simp [write, Globals.set, unpatched, begun]

/-- A write to a patch. -/
theorem write_to_patch {patch : Patch} (patched : state.patch = some patch) (name : String)
    (value : Value) :
    (state.write name value).globals.values = state.globals.values ∧
      (state.write name value).globals.batch = state.globals.batch ∧
      ∃ changed, (state.write name value).patch = some
          { patch with
            globals := patch.globals.insert name
              (value.replacing (state.globals.stored? (some patch) name))
            changed := changed } ∧
        changed =
          if state.globals.batch.isSome && (state.globals.stored? (some patch) name).isSome then
            Globals.addName patch.changed name
          else patch.changed := by
  cases begun : state.globals.batch with
  | none => simp [write, Globals.set, patched, begun, setGlobal]
  | some batch =>
    cases stored : (state.globals.stored? (some patch) name).isSome <;>
      simp [write, Globals.set, patched, begun, stored, setGlobal, addChanged,
        Globals.addName]

/-- Within a line, an assignment to a global that has a value is noted. -/
theorem mem_noted_write (begun : state.globals.batch.isSome) :
    other ∈ (state.write name value).noted ↔
      other ∈ state.noted ∨
        other = name ∧ (state.globals.stored? state.patch name).isSome := by
  obtain ⟨batch, begun⟩ := Option.isSome_iff_exists.mp begun
  cases patched : state.patch with
  | none =>
    obtain ⟨unpatched, -, written⟩ := write_in_place patched name value
    simp only [noted, listed, patched, unpatched, written, begun]
    split
    · next stored => simp [Globals.mem_addName, stored]
    · next stored => simp [stored]
  | some patch =>
    obtain ⟨-, kept, changed, written, rfl⟩ := write_to_patch patched name value
    simp only [noted, listed, patched, kept, written, begun, Option.isSome_some, Bool.true_and]
    split
    · next stored => simp [Globals.mem_addName, stored, or_assoc]
    · next stored => simp [stored]

theorem patched?_write (patched : state.patch.isSome) :
    (state.write name value).patched? other =
      if other = name then some (value.replacing (state.globals.stored? state.patch name))
      else state.patched? other := by
  obtain ⟨patch, patched⟩ := Option.isSome_iff_exists.mp patched
  obtain ⟨-, -, changed, written, -⟩ := write_to_patch patched name value
  simp only [patched?, written, patched, Option.bind_some, get?_insert]

theorem mem_listed_write (patched : state.patch.isSome) :
    other ∈ (state.write name value).listed ↔
      other ∈ state.listed ∨ other = name ∧ state.globals.batch.isSome ∧
        (state.globals.stored? state.patch name).isSome := by
  obtain ⟨patch, patched⟩ := Option.isSome_iff_exists.mp patched
  obtain ⟨-, -, changed, written, rfl⟩ := write_to_patch patched name value
  simp only [listed, written, patched]
  split
  · next told =>
    rw [Bool.and_eq_true] at told
    simp [Globals.mem_addName, told]
  · next told =>
    rw [Bool.and_eq_true] at told
    simp [told]

/-- Writes give values and take none away. -/
theorem Recorded.write (recorded : state.Recorded) (name : String) (value : Value) :
    (state.write name value).Recorded := by
  cases patched : state.patch with
  | none =>
    obtain ⟨unpatched, values, -⟩ := write_in_place patched name value
    refine ⟨fun other declared => ?_, fun other member => ?_⟩
    · rw [default?_write] at declared
      rw [values, get?_insert]
      split
      · rfl
      · exact recorded.declared other declared
    · rw [listed, unpatched] at member
      contradiction
  | some patch =>
    obtain ⟨values, -, -⟩ := write_to_patch patched name value
    have there : state.patch.isSome := by rw [patched]; rfl
    refine ⟨fun other declared => ?_, fun other member => ?_⟩
    · rw [default?_write] at declared
      rw [values]
      exact recorded.declared other declared
    · rw [patched?_write there]
      split
      · rfl
      · next different =>
        rcases (mem_listed_write there).mp member with member | ⟨same, -⟩
        · exact recorded.patched other member
        · exact absurd same different

theorem Noting.write (noting : state.Noting) (name : String) (value : Value) :
    (state.write name value).Noting := by
  refine ⟨noting.toRecorded.write name value, ?_, ?_⟩
  · cases patched : state.patch with
    | none =>
      rw [(write_in_place patched name value).2.2, Option.isSome_map]
      exact noting.begun
    | some patch =>
      rw [(write_to_patch patched name value).2.1]
      exact noting.begun
  · intro other member
    cases patched : state.patch with
    | none =>
      obtain ⟨unpatched, values, written⟩ := write_in_place patched name value
      refine ⟨?_, fun hidden => ?_⟩
      · rw [values, get?_insert]
        split
        · rfl
        · next different =>
          refine (noting.batched other ?_).1
          obtain ⟨batch, begun⟩ := Option.isSome_iff_exists.mp noting.begun
          rw [written, begun] at member
          rw [begun]
          split at member
          · exact (Globals.mem_addName.mp member).resolve_right different
          · exact member
      · rw [patched?, unpatched] at hidden
        contradiction
    | some patch =>
      obtain ⟨values, kept, -⟩ := write_to_patch patched name value
      have there : state.patch.isSome := by rw [patched]; rfl
      rw [kept] at member
      obtain ⟨valued, listed⟩ := noting.batched other member
      rw [values]
      refine ⟨valued, fun hidden => (mem_listed_write there).mpr ?_⟩
      rw [patched?_write there] at hidden
      split at hidden
      · next same =>
        -- a change that was noted in place is noted again
        subst same
        refine .inr ⟨rfl, noting.begun, ?_⟩
        rw [Globals.stored?, Option.isSome_or, valued, Bool.or_true]
      · exact .inl (listed hidden)

/-- What evaluation does keeps the record. -/
theorem Recorded.change (recorded : state.Recorded) (change : Change program writable state after) :
    after.Recorded := by
  obtain ⟨name, value, -, rfl⟩ | same := change.write_or_same
  · exact recorded.write name value
  · exact same.recorded recorded

theorem Noting.change (noting : state.Noting) (change : Change program writable state after) :
    after.Noting := by
  obtain ⟨name, value, -, rfl⟩ | same := change.write_or_same
  · exact noting.write name value
  · exact same.noting noting

theorem Noting.changes (noting : state.Noting) (changes : Changes program writable state after) :
    after.Noting := by
  induction changes with
  | refl => exact noting
  | tail _ change ih => exact ih.change change

/-! ### Patches -/

theorem listed_startPatch : state.startPatch.listed = state.listed := by
  cases patched : state.patch <;> simp [startPatch, listed, patched]

theorem patched?_startPatch : state.startPatch.patched? name = state.patched? name := by
  cases patched : state.patch with
  | none =>
    simp only [startPatch, patched?, patched]
    rfl
  | some patch => simp [startPatch, patched?, patched]

theorem noted_startPatch : state.startPatch.noted = state.noted :=
  congrArg (state.globals.batch.getD [] ++ ·) listed_startPatch

theorem Recorded.startPatch (recorded : state.Recorded) : state.startPatch.Recorded where
  declared := recorded.declared
  patched name := by
    rw [listed_startPatch, patched?_startPatch]
    exact recorded.patched name

theorem Noting.startPatch (noting : state.Noting) : state.startPatch.Noting where
  toRecorded := noting.toRecorded.startPatch
  begun := noting.begun
  batched name := by
    rw [listed_startPatch, patched?_startPatch]
    exact noting.batched name

theorem patch_applyPatch : state.applyPatch.patch = none := by
  unfold applyPatch
  split
  · next unpatched => exact unpatched
  · rfl

/-- Within a line, the changes that a patch lists are still noted when its writes are made. -/
theorem mem_noted_applyPatch (begun : state.globals.batch.isSome) :
    name ∈ state.applyPatch.noted ↔ name ∈ state.noted := by
  obtain ⟨batch, begun⟩ := Option.isSome_iff_exists.mp begun
  unfold applyPatch
  split
  · rfl
  · next patch patched =>
    simp [noted, listed, patched, Globals.applyPatch, begun, Globals.mem_foldl_addName]

theorem values_applyPatch : (state.applyPatch.globals.values.get? name).isSome =
    ((state.patched? name).isSome || (state.globals.values.get? name).isSome) := by
  unfold applyPatch
  split
  · next unpatched => simp [patched?, unpatched]
  · next patch patched =>
    simp [patched?, patched, Globals.applyPatch, get?_insertTable]

theorem default?_applyPatch :
    state.applyPatch.globals.default? name = state.globals.default? name := by
  unfold applyPatch
  split <;> rfl

theorem Recorded.applyPatch (recorded : state.Recorded) : state.applyPatch.Recorded where
  declared name := by
    rw [default?_applyPatch, values_applyPatch]
    intro declared
    rw [recorded.declared name declared, Bool.or_true]
  patched name := by
    rw [listed, patch_applyPatch]
    intro member
    contradiction

theorem Noting.applyPatch (noting : state.Noting) : state.applyPatch.Noting := by
  have begun : state.applyPatch.globals.batch.isSome := by
    have begun := noting.begun
    unfold State.applyPatch
    split
    · exact begun
    · rw [← begun]
      exact Option.isSome_map
  refine ⟨noting.toRecorded.applyPatch, begun, fun name member => ?_⟩
  have listed : name ∈ state.noted := by
    rw [← mem_noted_applyPatch noting.begun]
    exact mem_append_left _ member
  refine ⟨?_, fun hidden => ?_⟩
  · rw [values_applyPatch, Bool.or_eq_true]
    rcases mem_append.mp listed with batched | patched
    · exact .inr (noting.batched name batched).1
    · exact .inl (noting.patched name patched)
  · rw [patched?, patch_applyPatch] at hidden
    contradiction

/-! ### The changes of a line -/

theorem lineChanges_eq : state.globals.lineChanges state.patch =
    ((ofList (valuedNames state.globals.values.get? (state.globals.batch.getD []))).insertAll
      (valuedNames state.patched? state.listed)).entries := by
  cases patched : state.patch with
  | none =>
    simp only [Globals.lineChanges, listed, patched, append_nil]
    rfl
  | some patch =>
    simp only [Globals.lineChanges, listed, patched, ofList, insertAll,
      foldl_append]
    congr 3
    simp only [patched?, patched, Option.bind_some]

/-- The changes of a line are the globals that are noted, each with its value. -/
theorem mem_lineChanges (noting : state.Noting) :
    (name, value) ∈ state.globals.lineChanges state.patch ↔
      name ∈ state.noted ∧ state.global? name = some value := by
  rw [lineChanges_eq, ← Table.get?_eq_some_iff, get?_insertAll_valuedNames, Table.ofList,
    get?_insertAll_valuedNames, noted, global?_eq_or]
  by_cases listed : name ∈ state.listed
  · obtain ⟨written, found⟩ := Option.isSome_iff_exists.mp (noting.patched name listed)
    simp [listed, found]
  · by_cases batched : name ∈ state.globals.batch.getD []
    · obtain ⟨valued, hidden⟩ := noting.batched name batched
      obtain ⟨stored, found⟩ := Option.isSome_iff_exists.mp valued
      have plain : state.patched? name = none := by
        rw [← Option.not_isSome_iff_eq_none]
        exact fun there => listed (hidden there)
      simp [batched, found, plain]
    · simp [listed, batched, Table.get?]

theorem Noting.valued (noting : state.Noting) (member : name ∈ state.noted) :
    (state.global? name).isSome := by
  rw [global?_eq_or]
  rcases mem_append.mp member with batched | listed
  · simp [(noting.batched name batched).1]
  · simp [noting.patched name listed]

theorem mem_names_lineChanges (noting : state.Noting) :
    name ∈ (state.globals.lineChanges state.patch).map Prod.fst ↔ name ∈ state.noted := by
  rw [mem_map]
  constructor
  · rintro ⟨⟨name, value⟩, member, rfl⟩
    exact ((mem_lineChanges noting).mp member).1
  · intro member
    obtain ⟨value, found⟩ := Option.isSome_iff_exists.mp (noting.valued member)
    exact ⟨(name, value), (mem_lineChanges noting).mpr ⟨member, found⟩, rfl⟩

theorem nodup_lineChanges :
    ((state.globals.lineChanges state.patch).map Prod.fst).Nodup :=
  distinct _

/-! ### Assignments -/

/-- The global that an object assigns while it has a value. -/
def reassigned? (program : Program) (place : Place) (content : Content) (state : State) :
    Option String :=
  match performContent program place content state with
  | .ok _ _ => (state.assigned? program content).filter fun name => (state.global? name).isSome
  | .error _ _ => none

theorem noted_of_changes (changes : Changes program (fun _ => False) state after) :
    after.noted = state.noted := by
  induction changes with
  | refl => rfl
  | tail _ change ih =>
    obtain ⟨_, _, writes, -⟩ | same := change.write_or_same
    · exact writes.elim
    · exact same.noted.trans ih

theorem assign_global (target : state.assigned? program (.assignment assignment) = some name)
    (value : Value) :
    state.assign program assignment value =
      .ok (state.write name ((state.scope program).assigned assignment value)) := by
  simp only [assigned?] at target
  split at target
  · next isGlobal =>
    cases target
    rw [assign_eq, if_pos isGlobal]
  · contradiction

/-- An assignment to a global takes an object off the evaluation stack and writes it, or fails. -/
theorem performContent_assignment (place : Place)
    (target : state.assigned? program (.assignment assignment) = some name) :
    ∃ evaluation,
      (∃ error, Run.performContent program place (.assignment assignment) state =
        .error error { state with evaluation := evaluation }) ∨
      ∃ value, Run.performContent program place (.assignment assignment) state =
        .ok none ({ state with evaluation := evaluation }.write name value) := by
  cases stack : state.evaluation with
  | nil =>
    refine ⟨[], .inl ⟨.runtime .emptyStack, ?_⟩⟩
    simp only [Run.performContent, Run.assign, pop, bind_apply, get_apply, stack, fault,
      throw_apply]
    rw [← stack]
  | cons top rest =>
    refine ⟨rest, ?_⟩
    cases checked : assignable assignment top with
    | error found =>
      refine .inl ⟨.runtime found, ?_⟩
      simp only [Run.performContent, Run.assign, pop, bind_apply, get_apply, stack,
        modify_apply, pure_apply, checked, ofFault, fault, throw_apply]
    | ok value =>
      have popped : { state with evaluation := rest }.assigned? program
          (.assignment assignment) = some name := target
      refine .inr ⟨(state.scope program).assigned assignment value, ?_⟩
      simp only [Run.performContent, Run.assign, pop, bind_apply, get_apply, stack,
        modify_apply, pure_apply, checked, ofFault, assign_global popped]
      rfl

/-- Of all objects, assignments to globals that have values are noted. -/
theorem mem_noted_performContent (noting : state.Noting) (has : program.HasPlace place) :
    other ∈ (leaves (performContent program place content state)).noted ↔
      other ∈ state.noted ∨ state.reassigned? program place content = some other := by
  cases target : state.assigned? program content with
  | none =>
    have changing : Changing program (fun _ => False)
        (performContent program place content) state := by
      refine changing_performContent has ?_ (fun _ _ => trivial) fun _ => trivial
      intro name assigns
      rw [target] at assigns
      contradiction
    have quiet : state.reassigned? program place content = none := by
      unfold reassigned?
      split
      · rw [target]
        rfl
      · rfl
    rw [noted_of_changes changing, quiet]
    simp
  | some name =>
    cases content with
    | assignment assignment =>
      obtain ⟨evaluation, ⟨error, failed⟩ | ⟨value, written⟩⟩ :=
        performContent_assignment place target
      · rw [reassigned?, failed]
        simp [leaves, noted, listed]
      · have same : SameGlobals state { state with evaluation := evaluation } :=
          ⟨rfl, rfl, rfl, rfl⟩
        have popped := same.noting noting
        rw [reassigned?, written, target]
        dsimp only [leaves]
        rw [mem_noted_write popped.begun, popped.stored?]
        refine or_congr_right ?_
        rw [Option.filter_eq_some_iff, Option.some_inj]
        constructor
        · rintro ⟨rfl, valued⟩
          exact ⟨rfl, valued⟩
        · rintro ⟨rfl, valued⟩
          exact ⟨rfl, valued⟩
    | _ => contradiction

end State

namespace Story

open State

variable {after : Story}

/-- The global that the next step of a story assigns while it has a value. -/
def reassigned? (story : Story) : Option String :=
  story.state.pointer.bind fun start =>
    let state := story.state.descend story.program start
    state.pointer.bind fun pointer =>
      (story.program.objectAt? pointer).bind fun object =>
        state.reassigned? story.program object.1 object.2

theorem Effect.noting (effect : Effect writable callable story after) (noting : story.state.Noting) :
    after.state.Noting := by
  cases effect with
  | change changed => exact noting.change changed
  | call | defer => exact noting

theorem Effect.noted (effect : Effect (fun _ => False) callable story after) :
    after.state.noted = story.state.noted := by
  cases effect with
  | change changed => exact noted_of_changes (.single changed)
  | call | defer => rfl

end Story

namespace Play

open Story State

variable {play : Play α}

theorem noting_of_evaluating (evaluating : Evaluating writable callable play story)
    (noting : story.state.Noting) :
    (leaves (play story)).state.Noting :=
  evaluating.invariant (fun _ _ effect noting => effect.noting noting) noting

theorem noted_of_evaluating (evaluating : Evaluating (fun _ => False) callable play story) :
    (leaves (play story)).state.noted = story.state.noted :=
  evaluating.invariant (fun _ _ effect same => effect.noted.trans same) rfl

theorem state_onState (run : Run α) (story : Story) :
    (leaves (onState run story)).state = leaves (run story.state) := by
  rw [onState_apply]
  cases run story.state <;> rfl

/-- What is noted is decided by the first of two operations, where the second assigns nothing. -/
theorem noted_bind {first : Play α} {rest : α → Play β}
    (quiet : ∀ value after, first story = .ok value after →
      Evaluating (fun _ => False) (fun _ => True) (rest value) after) :
    (leaves ((first >>= rest) story)).state.noted = (leaves (first story)).state.noted := by
  rw [bind_apply]
  cases done : first story with
  | ok value after => exact noted_of_evaluating (quiet value after done)
  | error error after => rfl

/-- Evaluating an object notes what the object assigns. -/
theorem mem_noted_evaluate (noting : story.state.Noting) (holds : story.program.Holds place content) :
    other ∈ (leaves (evaluate place content story)).state.noted ↔
      other ∈ story.state.noted ∨
        story.state.reassigned? story.program place content = some other := by
  have performing : Evaluating (fun _ => True) (fun _ => True)
      (onState (performContent story.program place content)) story :=
    evaluating_onState (changing_performContent holds.hasPlace (fun _ _ => trivial)
      (fun _ _ => trivial) fun _ => trivial)
  have finishing {middle : Story} (same : middle.program = story.program) :
      Evaluating (fun _ => False) (fun _ => True)
        (onState (finishContent story.program place content)) middle := by
    apply evaluating_onState
    rw [same]
    exact changing_finishContent holds trivial
  -- neither a call of the host nor moving on assigns anything
  have same : (leaves (evaluate place content story)).state.noted =
      (leaves (onState (performContent story.program place content) story)).state.noted := by
    rw [evaluate, bind_apply]
    refine noted_bind fun request middle performed => ?_
    have program := program_of_evaluating performing performed
    cases request with
    | none => exact finishing program
    | some request =>
      have calling : Evaluating (fun _ => False) (fun _ => True)
          (callHost request.function request.arguments) middle :=
        evaluating_callHost _ (fun _ _ => trivial) trivial
      refine .bind calling fun _ after called => finishing ?_
      exact (program_of_evaluating calling called).trans program
  rw [same, state_onState, mem_noted_performContent noting holds.hasPlace]

/-- A step notes the global that it assigns, if that has a value. -/
theorem mem_noted_step (noting : story.state.Noting) :
    other ∈ (leaves (step story)).state.noted ↔
      other ∈ story.state.noted ∨ story.reassigned? = some other := by
  cases here : story.state.pointer with
  | none =>
    simp only [step, bind_apply, get_apply, Story.reassigned?, here, pure_apply, leaves,
      Option.bind_none, reduceCtorEq, or_false]
  | some start =>
    have went : Evaluating (fun _ => False) (fun _ => True)
        (modifyState fun state => state.descend story.program start) story :=
      evaluating_modifyState (changes_descend here)
    have descended : (story.state.descend story.program start).Noting :=
      noting_of_evaluating went noting
    have same : (story.state.descend story.program start).noted = story.state.noted :=
      noted_of_evaluating went
    rw [← same]
    let middle := { story with state := story.state.descend story.program start }
    cases there : (story.state.descend story.program start).pointer with
    | none =>
      simp only [step, bind_apply, get_apply, Story.reassigned?, here, modifyState_apply,
        there, pure_apply, leaves, Option.bind_some, Option.bind_none,
        reduceCtorEq, or_false]
    | some pointer =>
      cases object : story.program.objectAt? pointer with
      | some found =>
        have holds : middle.program.Holds found.1 found.2 := ⟨pointer, object⟩
        simp only [step, bind_apply, get_apply, Story.reassigned?, here, modifyState_apply,
          there, object, Option.bind_some]
        exact mem_noted_evaluate descended holds
      | none =>
        have moving : Evaluating (fun _ => False) (fun _ => True)
            (modifyState fun state => state.moveOn story.program) middle :=
          evaluating_modifyState (changes_moveOn trivial)
        simp only [step, bind_apply, get_apply, Story.reassigned?, here, modifyState_apply,
          there, object, Option.bind_some, Option.bind_none, reduceCtorEq, or_false]
        exact iff_of_eq (congrArg (other ∈ ·) (noted_of_evaluating moving))

end Play

end InkStory
