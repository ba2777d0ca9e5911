import InkStory.Proofs.MatchingStates
import InkStory.Proofs.NotedChanges

/-! # Writes kept apart and writes made at once

While the state before them must stay readable, writes go to a patch. Making a write and applying the
patch gives the same state as applying the patch and making the write without one, and nothing that is
read tells whether the patch is applied (`State.patched_as_direct`).

Assignments ask one question that does not look into the patch: whether a global of a name is there.
Where no such question is about a global that stands in the patch only, they commute with applying it
as well (`Scope.assign_settled`). -/

namespace InkStory

open List Option Globals Patch Table

variable {state : State} {assignment : Assignment} {value : Value}

namespace Table

variable {Key : Type u} {Entry : Type v} [DecidableEq Key] {table other : Table Key Entry}
  {key : Key}

/-- The entries are those of the keys, in their order. -/
theorem entries_eq_filterMap (table : Table Key Entry) :
    table.entries = table.keys.filterMap fun key => (table.get? key).map (Prod.mk key) := by
  have found : ∀ pair ∈ table.entries,
      (table.get? pair.1).map (Prod.mk pair.1) = some pair := by
    intro pair listed
    rw [get?_eq_some_iff.mpr listed]
    rfl
  rw [keys, filterMap_map]
  exact (filterMap_some.symm.trans (filterMap_congr fun pair listed => (found pair listed).symm))

/-- Tables with the same keys in the same order are told apart by their entries only. -/
theorem eq_of_keys {table other : Table Key Entry} (keys : table.keys = other.keys)
    (same : ∀ key, table.get? key = other.get? key) : table = other := by
  apply eq_of_entries
  rw [entries_eq_filterMap, entries_eq_filterMap, keys]
  simp only [same]

theorem keys_insert (table : Table Key Entry) (key : Key) (entry : Entry) :
    (table.insert key entry).keys =
      if key ∈ table.keys then table.keys else table.keys ++ [key] :=
  keys_insertInto key entry table.entries

theorem keys_insert_of_mem (there : key ∈ table.keys) (entry : Entry) :
    (table.insert key entry).keys = table.keys := by
  rw [keys_insert, if_pos there]

/-- The keys of a table with pairs inserted do not depend on the entries of the pairs. -/
theorem keys_insertAll_congr {pairs others : List (Key × Entry)}
    (keys : pairs.map Prod.fst = others.map Prod.fst) :
    (table.insertAll pairs).keys = (table.insertAll others).keys := by
  suffices general : ∀ table other : Table Key Entry, table.keys = other.keys →
      (table.insertAll pairs).keys = (other.insertAll others).keys from general table table rfl
  induction pairs generalizing others with
  | nil =>
    obtain rfl : others = [] := by simpa using keys.symm
    exact fun _ _ same => same
  | cons pair rest ih =>
    cases others with
    | nil => simp at keys
    | cons other others =>
      obtain ⟨here, later⟩ := cons.inj keys
      intro table fellow same
      refine ih later (table.insert pair.1 pair.2) (fellow.insert other.1 other.2) ?_
      rw [keys_insert, keys_insert, here, same]

theorem mem_keys_insertAll (there : key ∈ other.keys) :
    key ∈ (table.insertAll other.entries).keys := by
  rw [← contains_iff_mem_keys] at there ⊢
  unfold contains at there ⊢
  rw [get?_insertTable, isSome_or, there]
  rfl

/-- An entry may be inserted before the rest is or behind it. -/
theorem insertAll_insert (table other : Table Key Entry) (key : Key) (entry : Entry) :
    table.insertAll (other.insert key entry).entries =
      (table.insertAll other.entries).insert key entry := by
  apply eq_of_keys
  · by_cases there : key ∈ other.keys
    · rw [keys_insert_of_mem (mem_keys_insertAll there)]
      exact keys_insertAll_congr (keys_insert_of_mem there entry)
    · have last : (other.insert key entry).entries = other.entries ++ [(key, entry)] :=
        insertInto_of_not_mem there entry
      rw [last, insertAll, foldl_append]
      rfl
  · intro query
    rw [get?_insertTable, get?_insert, get?_insert, get?_insertTable]
    split <;> rfl

end Table

/-! ### Globals -/

namespace Globals

variable {globals : Globals} {patch : Option Patch}

/-- Noted changes are reported in the order in which they were first noted. -/
theorem addNames_addChanged (patch : Patch) (names : List String) (name : String) :
    (patch.addChanged name).changed.foldl addName names =
      addName (patch.changed.foldl addName names) name := by
  unfold addChanged
  split
  · next listed =>
    have noted : name ∈ patch.changed.foldl addName names :=
      mem_foldl_addName.mpr (.inr (contains_iff_mem.mp listed))
    rw [addName, if_pos (contains_iff_mem.mpr noted)]
  · rw [foldl_append]
    rfl

theorem set_unpatched (name : String) (value : Value) : (globals.set none name value).2 = none := by
  unfold set
  cases globals.batch <;> rfl

theorem applied_some (patch : Patch) : globals.applied (some patch) = globals.applyPatch patch := rfl

/-- A write commutes with applying the patch. -/
theorem applied_set (name : String) (value : Value) :
    (globals.set patch name value).1.applied (globals.set patch name value).2 =
      ((globals.applied patch).set none name value).1 := by
  cases patch with
  | none =>
    rw [set_unpatched]
    rfl
  | some patch =>
    have stored : (globals.applied (some patch)).stored? none name =
        globals.stored? (some patch) name := stored?_applied name
    have values := insertAll_insert globals.values patch.globals name
    rw [applied_some] at stored ⊢
    cases batch : globals.batch with
    | none =>
      have below : (globals.applyPatch patch).batch = none := by rw [applyPatch, batch]; rfl
      simp only [set, batch, below, stored, applied_some]
      simp only [applyPatch, setGlobal, map_none, values]
    | some names =>
      have below : (globals.applyPatch patch).batch =
          some (patch.changed.foldl addName names) := by rw [applyPatch, batch]; rfl
      simp only [set, batch, stored]
      split
      · simp only [applied_some, applyPatch, batch, map_some, addNames_addChanged]
        simp only [addChanged, setGlobal, values]
      · simp only [applied_some, applyPatch, batch, map_some, setGlobal, values]

theorem applied_startPatch : globals.applied (some (patch.getD {})) = globals.applied patch := by
  cases patch with
  | some patch => rfl
  | none =>
    have batch : globals.batch.map (fun names => [].foldl addName names) = globals.batch := by
      cases globals.batch <;> rfl
    exact congrArg (fun batch => { globals with batch := batch }) batch

theorem get?_applied (name : String) :
    (globals.applied patch).get? none name = globals.get? patch name := by
  rw [get?, stored?_applied, default?_applied, get?]

end Globals

/-! ### Globals and counts of a state -/

/-- A write that goes to the patch while there is one. -/
inductive Write where
  /-- The host gives a declared global a value. -/
  | global (name : String) (value : Value)
  | visit (address : Address)
  | turn (address : Address)

namespace State

/-- Make a write. -/
def attempt (state : State) : Write → Except Error State
  | .global name value =>
    (state.globals.setDeclared state.patch name value).map fun (globals, patch) =>
      { state with globals := globals, patch := patch }
  | .visit address => .ok (state.countVisit address)
  | .turn address => .ok (state.recordTurn address)

/-- Make writes one after another, of which those that fail change nothing. -/
def attemptAll (state : State) (writes : List Write) : State :=
  writes.foldl (fun state write => (state.attempt write).toOption.getD state) state

/-- Whatever is read of globals and counts is the same in two states. -/
structure ReadsAs (program : Program) (state other : State) : Prop where
  globals : ∀ name, state.global? name = other.global? name
  visits : ∀ address, state.readVisits program address = other.readVisits program address
  visitsAt : ∀ path, state.visitsAt program path = other.visitsAt program path
  turns : ∀ address, state.turnsSince program address = other.turnsSince program address

namespace ReadsAs

variable {program : Program} {middle other : State}

theorem symm (same : ReadsAs program state other) : ReadsAs program other state :=
  ⟨fun name => (same.globals name).symm, fun address => (same.visits address).symm,
    fun path => (same.visitsAt path).symm, fun address => (same.turns address).symm⟩

theorem trans (first : ReadsAs program state middle) (second : ReadsAs program middle other) :
    ReadsAs program state other :=
  ⟨fun name => (first.globals name).trans (second.globals name),
    fun address => (first.visits address).trans (second.visits address),
    fun path => (first.visitsAt path).trans (second.visitsAt path),
    fun address => (first.turns address).trans (second.turns address)⟩

end ReadsAs

theorem turn_applyPatch : state.applyPatch.turn = state.turn := by
  obtain ⟨visits, turns, applied, -⟩ := state.applyPatch_eq
  rw [applied]

/-- Nothing that is read tells whether the patch is applied. -/
theorem readsAs_applyPatch (program : Program) (state : State) :
    ReadsAs program state.applyPatch state where
  globals _ := global?_applyPatch
  visits address := by rw [readVisits, readVisits, visitsOf_applyPatch]
  visitsAt path := by simp only [visitsAt, visitsOf_applyPatch]
  turns address := by simp only [turnsSince, turnOf?_applyPatch, turn_applyPatch]

/-- The globals and counts below the patch get its entries, whether there is a patch or not. -/
theorem applyPatch_eq_update (state : State) :
    state.applyPatch =
      { state with
        patch := none
        globals := state.globals.applied state.patch
        visits := state.visits.insertAll ((state.patch.map fun patch => patch.visits.entries).getD [])
        turns := state.turns.insertAll
          ((state.patch.map fun patch => patch.turns.entries).getD []) } := by
  unfold applyPatch
  cases patched : state.patch with
  | some patch => rfl
  | none =>
    cases state
    cases patched
    rfl

theorem applyPatch_startPatch : state.startPatch.applyPatch = state.applyPatch := by
  have visits : ((some (state.patch.getD {})).map fun patch : Patch => patch.visits.entries).getD [] =
      (state.patch.map fun patch => patch.visits.entries).getD [] := by cases state.patch <;> rfl
  have turns : ((some (state.patch.getD {})).map fun patch : Patch => patch.turns.entries).getD [] =
      (state.patch.map fun patch => patch.turns.entries).getD [] := by cases state.patch <;> rfl
  simp only [applyPatch_eq_update, startPatch, applied_startPatch, visits, turns]

theorem applyPatch_countVisit (address : Address) :
    (state.countVisit address).applyPatch = state.applyPatch.countVisit address := by
  have count := state.visitsOf_applyPatch address
  have unpatched : state.applyPatch.patch = none := by rw [applyPatch_eq_update]
  simp only [countVisit, count]
  cases patched : state.patch with
  | none => simp only [applyPatch_eq_update, patched]; rfl
  | some patch =>
    simp only [applyPatch_eq_update, patched, map_some, getD_some, setVisits,
      insertAll_insert]
    rfl

theorem applyPatch_recordTurn (address : Address) :
    (state.recordTurn address).applyPatch = state.applyPatch.recordTurn address := by
  have unpatched : state.applyPatch.patch = none := by rw [applyPatch_eq_update]
  simp only [recordTurn]
  cases patched : state.patch with
  | none => simp only [applyPatch_eq_update, patched]; rfl
  | some patch =>
    simp only [applyPatch_eq_update, patched, map_some, getD_some, setTurn,
      insertAll_insert]
    rfl

theorem applyPatch_write (name : String) (value : Value) :
    (state.write name value).applyPatch = state.applyPatch.write name value := by
  have counts : (state.globals.set state.patch name value).2.map Patch.counts =
      state.patch.map Patch.counts := congrArg (fun tally => tally.2.2) (state.tally_write name value)
  have visits (patch : Option Patch) : (patch.map fun patch => patch.visits.entries) =
      (patch.map Patch.counts).map fun counts => counts.1.entries := by cases patch <;> rfl
  have turns (patch : Option Patch) : (patch.map fun patch => patch.turns.entries) =
      (patch.map Patch.counts).map fun counts => counts.2.entries := by cases patch <;> rfl
  simp only [applyPatch_eq_update, write, applied_set, set_unpatched, visits, turns,
    counts]

/-- A write commutes with applying the patch. -/
theorem applyPatch_attempt (write : Write) :
    (state.attempt write).map applyPatch = state.applyPatch.attempt write := by
  cases write with
  | visit address => exact congrArg Except.ok (applyPatch_countVisit address)
  | turn address => exact congrArg Except.ok (applyPatch_recordTurn address)
  | global name value =>
    have declared : state.applyPatch.globals.default? name = state.globals.default? name := by
      rw [applyPatch_eq_update]
      exact default?_applied name
    simp only [attempt, setDeclared, declared]
    split
    · exact congrArg Except.ok (applyPatch_write name value)
    · rfl

/-- Writes commute with applying the patch. -/
theorem applyPatch_attemptAll (writes : List Write) :
    (state.attemptAll writes).applyPatch = state.applyPatch.attemptAll writes := by
  induction writes generalizing state with
  | nil => rfl
  | cons write rest ih =>
    have made : ((state.attempt write).toOption.getD state).applyPatch =
        (state.applyPatch.attempt write).toOption.getD state.applyPatch := by
      rw [← applyPatch_attempt]
      cases state.attempt write <;> rfl
    rw [attemptAll, foldl_cons, ← attemptAll, ih, made]
    rfl

/-- With a patch, a write leaves what lies below it. -/
theorem attempt_below {write : Write} {after : State} (patched : state.patch.isSome)
    (made : state.attempt write = .ok after) :
    after.patch.isSome ∧ after.globals.values = state.globals.values ∧
      after.visits = state.visits ∧ after.turns = state.turns := by
  obtain ⟨patch, there⟩ := isSome_iff_exists.mp patched
  cases write with
  | visit address =>
    obtain rfl := Except.ok.inj made
    simp [countVisit, there]
  | turn address =>
    obtain rfl := Except.ok.inj made
    simp [recordTurn, there]
  | global name value =>
    simp only [attempt, setDeclared, there] at made
    split at made
    · obtain rfl := Except.ok.inj made
      simp only [Globals.set]
      cases state.globals.batch <;> simp
    · contradiction

theorem attemptAll_below (patched : state.patch.isSome) (writes : List Write) :
    (state.attemptAll writes).globals.values = state.globals.values ∧
      (state.attemptAll writes).visits = state.visits ∧
      (state.attemptAll writes).turns = state.turns := by
  induction writes generalizing state with
  | nil => exact ⟨rfl, rfl, rfl⟩
  | cons write rest ih =>
    rw [attemptAll, foldl_cons]
    cases made : state.attempt write with
    | error error => exact ih patched
    | ok after =>
      obtain ⟨patched, values, visits, turns⟩ := attempt_below patched made
      obtain ⟨sameValues, sameVisits, sameTurns⟩ := ih patched
      exact ⟨sameValues.trans values, sameVisits.trans visits, sameTurns.trans turns⟩

/-- Writes that are kept apart in a patch, be it a new one or one with earlier writes in it, read at
every point as writes that are made directly, fail where those fail, leave what lies below the patch,
and give the same state once the patch is applied: that of making them with no patch at all. (A state
without a patch is the same with its patch applied.) -/
theorem patched_as_direct (program : Program) (state : State) (writes : List Write) :
    let apart := state.startPatch.attemptAll writes
    let direct := state.attemptAll writes
    let plain := state.applyPatch.attemptAll writes
    (apart.ReadsAs program direct ∧ direct.ReadsAs program plain) ∧
      (∀ write, (apart.attempt write).map applyPatch = (direct.attempt write).map applyPatch ∧
        (direct.attempt write).map applyPatch = plain.attempt write) ∧
      (apart.applyPatch = direct.applyPatch ∧ direct.applyPatch = plain) ∧
      apart.globals.values = state.globals.values ∧ apart.visits = state.visits ∧
      apart.turns = state.turns := by
  intro apart direct plain
  have applied : apart.applyPatch = direct.applyPatch := by
    rw [applyPatch_attemptAll, applyPatch_attemptAll, applyPatch_startPatch]
  have made : direct.applyPatch = plain := applyPatch_attemptAll writes
  have reads : direct.ReadsAs program plain := by
    rw [← made]
    exact (readsAs_applyPatch program direct).symm
  refine ⟨⟨?_, reads⟩, fun write => ?_, ⟨applied, made⟩, ?_⟩
  · have same := (readsAs_applyPatch program apart).symm
    rw [applied, made] at same
    exact same.trans reads.symm
  · rw [applyPatch_attempt, applyPatch_attempt, applied, made]
    exact ⟨rfl, rfl⟩
  · exact attemptAll_below rfl writes

end State

/-! ### Assignments -/

namespace Scope

variable {scope : Scope} {name : String}

/-- The scope with the patch applied. -/
def settled (scope : Scope) : Scope :=
  { scope with globals := scope.globals.applied scope.patch, patch := none }

/-- A global that stands in the patch only. -/
def onlyPatched (scope : Scope) (name : String) : Bool :=
  (scope.globals.stored? scope.patch name).isSome && !scope.globals.has name

/-- The name of which an assignment of a value asks whether a global of it is there: that of the
variable, unless that holds a pointer, or, where a pointer is declared, the one that it points at,
unless it says where that is. -/
def asksFor? (scope : Scope) (assignment : Assignment) (value : Value) : Option String :=
  if assignment.isDeclaration then
    match value with
    | .variablePointer name .unknown => some name
    | _ => none
  else
    match scope.raw? assignment.name .unknown with
    | some (.variablePointer _ _) => none
    | _ => some assignment.name

theorem raw?_settled (name : String) (context : Context) :
    scope.settled.raw? name context = scope.raw? name context := by
  unfold raw? settled
  rw [get?_applied]

theorem pointerLimit_settled : scope.settled.pointerLimit = scope.pointerLimit := by
  unfold pointerLimit settled
  cases scope.patch <;> rfl

theorem chase_settled (limit : Nat) (name : String) (context : Context) :
    scope.settled.chase limit name context = scope.chase limit name context := by
  induction limit generalizing name context with
  | zero => rfl
  | succ limit ih =>
    unfold chase
    rw [raw?_settled]
    split
    · exact ih _ _
    · rfl

theorem resolve_settled (name : String) (context : Context) :
    scope.settled.resolve name context = scope.resolve name context := by
  unfold resolve
  rw [raw?_settled, pointerLimit_settled]
  split
  · exact chase_settled _ _ _
  · rfl

/-- Applying the patch makes the globals known that stand in it only. -/
theorem has_settled (name : String) :
    scope.settled.globals.has name = (scope.globals.has name || scope.onlyPatched name) := by
  have below : scope.globals.values.contains name →
      (scope.globals.stored? scope.patch name).isSome := isSome_stored?
  unfold settled onlyPatched has
  rw [contains_applied, default?_applied]
  revert below
  generalize (scope.globals.stored? scope.patch name).isSome = stored
  generalize scope.globals.values.contains name = there
  generalize (scope.globals.default? name).isSome = declared
  decide +revert

theorem has_settled_of_known (known : scope.onlyPatched name = false) :
    scope.settled.globals.has name = scope.globals.has name := by
  rw [has_settled, known, Bool.or_false]

theorem has_of_onlyPatched (missed : scope.onlyPatched name) :
    scope.globals.has name = false ∧ scope.settled.globals.has name := by
  rw [has_settled, missed, Bool.or_true]
  exact ⟨by simpa using (Bool.and_eq_true_iff.mp missed).2, rfl⟩

/-- An assignment that declares nothing is for the variable that its name leads to, or else for the
global of its name, if that is there. -/
theorem destination_eq (assigns : assignment.isDeclaration = false) (value : Value) :
    scope.destination assignment =
      match scope.asksFor? assignment value with
      | some name => ⟨name, .unknown, scope.globals.has name⟩
      | none =>
        ⟨(scope.resolve assignment.name .unknown).1, (scope.resolve assignment.name .unknown).2,
          (scope.resolve assignment.name .unknown).2 == .global⟩ := by
  unfold destination asksFor?
  simp only [assigns]
  cases found : scope.raw? assignment.name .unknown with
  | none => rfl
  | some value => cases value <;> rfl

theorem pin_unknown (name : String) : scope.pin name .unknown = scope.pin name (scope.contextOf name) := by
  unfold pin contextOf
  cases scope.globals.has name <;> rfl

/-- A declared pointer that does not say where its variable is points at the global of the name, if
that is there, and else into the running frame. -/
theorem assigned_eq (declares : assignment.isDeclaration) :
    scope.assigned assignment value =
      match scope.asksFor? assignment value, value with
      | some name, _ => scope.pin name (scope.contextOf name)
      | none, .variablePointer name context => scope.pin name context
      | none, value => value := by
  unfold assigned asksFor?
  simp only [declares]
  cases value with
  | variablePointer name context =>
    cases context with
    | unknown => exact pin_unknown name
    | _ => rfl
  | _ => rfl

theorem asksFor?_settled (assignment : Assignment) (value : Value) :
    scope.settled.asksFor? assignment value = scope.asksFor? assignment value := by
  unfold asksFor?
  rw [raw?_settled]

theorem pin_settled {context : Context} (placed : context ≠ .unknown) :
    scope.settled.pin name context = scope.pin name context := by
  unfold pin
  cases context with
  | unknown => contradiction
  | _ => simp only [raw?_settled]

theorem contextOf_ne_unknown (name : String) : scope.contextOf name ≠ .unknown := by
  unfold contextOf
  split <;> simp

section Known

variable
  (known : ∀ name, scope.asksFor? assignment value = some name → scope.onlyPatched name = false)

include known

theorem destination_settled :
    scope.settled.destination assignment = scope.destination assignment := by
  cases declares : assignment.isDeclaration with
  | true => simp only [destination, declares, if_true]
  | false =>
    rw [destination_eq declares value, destination_eq declares value, asksFor?_settled,
      resolve_settled]
    cases asks : scope.asksFor? assignment value with
    | none => rfl
    | some name => simp only [has_settled_of_known (known name asks)]

theorem assigned_settled :
    scope.settled.assigned assignment value = scope.assigned assignment value := by
  cases declares : assignment.isDeclaration with
  | false => cases value <;> simp only [assigned, declares]
  | true =>
    rw [assigned_eq declares, assigned_eq declares, asksFor?_settled]
    cases asks : scope.asksFor? assignment value with
    | some name =>
      have same : scope.settled.contextOf name = scope.contextOf name := by
        simp only [contextOf, has_settled_of_known (known name asks)]
        rfl
      simp only [same, pin_settled (contextOf_ne_unknown name)]
    | none =>
      cases value with
      | variablePointer name context =>
        refine pin_settled ?_
        rintro rfl
        simp [asksFor?, declares] at asks
      | _ => rfl

end Known

/-- What an assignment writes, and where. -/
theorem assign_eq (assignment : Assignment) (value : Value) :
    scope.assign assignment value =
      if (scope.destination assignment).isGlobal then
        .ok { scope with
          globals := (scope.globals.set scope.patch (scope.destination assignment).name
            (scope.assigned assignment value)).1
          patch := (scope.globals.set scope.patch (scope.destination assignment).name
            (scope.assigned assignment value)).2 }
      else
        (scope.stack.setTemporary (scope.destination assignment).name
          (scope.assigned assignment value) assignment.isDeclaration
          (scope.destination assignment).context).map fun stack => { scope with stack := stack } := by
  unfold assign
  dsimp only
  split
  · rfl
  · cases scope.stack.setTemporary _ _ _ _ <;> rfl

/-- Whether a patch is there makes no difference to an assignment that does not ask for a global that
stands in the patch only: it fails or succeeds alike, and with the patch applied it leaves the same
globals and temporaries. One that asks for such a global does not find it in the patch, so it is for a
temporary of the running frame, or points into that frame, where with the patch applied it is for the
global. -/
theorem assign_settled (scope : Scope) (assignment : Assignment) (value : Value) :
    ((∀ name, scope.asksFor? assignment value = some name → scope.onlyPatched name = false) →
      (scope.assign assignment value).map settled = scope.settled.assign assignment value) ∧
    ∀ name, scope.asksFor? assignment value = some name → scope.onlyPatched name = true →
      if assignment.isDeclaration then
        scope.assigned assignment value = scope.pin name (.frame scope.stack.height) ∧
          scope.settled.assigned assignment value = scope.pin name .global
      else
        (scope.assign assignment value).map settled =
            (scope.stack.setTemporary name value false .unknown).map (fun stack =>
              { scope.settled with stack := stack }) ∧
          scope.settled.assign assignment value = .ok { scope.settled with
            globals := (scope.settled.globals.set none name value).1 } := by
  refine ⟨fun known => ?_, fun name asks missed => ?_⟩
  · rw [assign_eq, assign_eq, destination_settled known, assigned_settled known]
    split
    · simp only [settled, Except.map, applied_set, set_unpatched]
    · simp only [settled]
      cases scope.stack.setTemporary _ _ _ _ <;> rfl
  · obtain ⟨missing, found⟩ := has_of_onlyPatched missed
    cases declares : assignment.isDeclaration with
    | true =>
      rw [assigned_eq declares, assigned_eq declares, asksFor?_settled, asks]
      have here : scope.contextOf name = .frame scope.stack.height := by simp [contextOf, missing]
      have there : scope.settled.contextOf name = .global := by simp [contextOf, found]
      simp only [here, there, true_and]
      exact pin_settled (by simp)
    | false =>
      have own : scope.assigned assignment value = value ∧
          scope.settled.assigned assignment value = value := by
        cases value <;> simp [assigned, declares]
      rw [assign_eq, assign_eq, destination_eq declares value,
        destination_eq declares value, asksFor?_settled, asks]
      simp only [missing, found, own, declares, if_true]
      refine ⟨?_, ?_⟩
      · cases scope.stack.setTemporary _ _ _ _ <;> rfl
      · simp only [settled, set_unpatched]

/-- Globals, of which one is given a value behind a newline. -/
def aheadOfLine (values : Table String Value) : Scope where
  globals := { values }
  patch := some { globals := single "mood" (.int 5) }
  stack := CallStack.atStart
  lists := {}

/-- The assignment that gives that global another value. -/
def moodAssignment : Assignment := ⟨"mood", false, true⟩

theorem assign_settled_mood :
    let scope := aheadOfLine (single "mood" (.int 4))
    scope.asksFor? moodAssignment (.int 6) = some "mood" ∧ scope.onlyPatched "mood" = false ∧
      (scope.assign moodAssignment (.int 6)).map settled =
        scope.settled.assign moodAssignment (.int 6) := by
  refine ⟨rfl, rfl, (assign_settled _ _ _).1 fun name asks => ?_⟩
  cases asks
  rfl

/-- A global that had no value before the newline is not found behind it. -/
theorem assign_misses_patch :
    let scope := aheadOfLine {}
    scope.assign moodAssignment (.int 6) = .error (.runtime (.unknownTemporary "mood")) ∧
      scope.settled.assign moodAssignment (.int 6) = .ok { scope.settled with
        globals := { values := single "mood" (.int 6), unbatched := ["mood"] } } :=
  ⟨rfl, rfl⟩

end Scope

end InkStory
