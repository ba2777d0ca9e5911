import InkStory.Proofs.HostWrites
import InkStory.Proofs.MatchingFlows

/-! # States that cannot be told apart

Two plays of a story may keep their writes in different places, one of them in a patch and the other
in the tables below it, and still answer alike. The states of such plays match: whatever is looked up
in them is the same. -/

namespace InkStory

open Option Patch Table

variable {after : Option Patch} {name : String} {program : Program} {next choice : Choice}

/-- Which plays are compared, and how closely. -/
structure Comparison where
  program : Program
  /-- Both keep writes apart at the same times. -/
  lockstep : Prop
  /-- Both stopped where they are meant to, or neither did. -/
  exiting : Prop
  /-- Both had the same warnings. -/
  warned : Prop
  /-- Both have their entries in the same order, and note the same changes for observers. -/
  verbatim : Prop
  together : verbatim → lockstep
  /-- No function of the host is taken away. -/
  bound : Prop
  /-- What the hosts had seen before, in that case. -/
  journal : List Event
  otherJournal : List Event

/-- Globals that cannot be told apart, each with the patch that their writes go to. -/
structure Globals.Matches (mode : Comparison) (globals : Globals) (patch : Option Patch)
    (other : Globals) (otherPatch : Option Patch) : Prop where
  stored : ∀ name, globals.stored? patch name = other.stored? otherPatch name
  defaults : globals.defaults = other.defaults
  there : ∀ name, globals.values.contains name = other.values.contains name
  declared : ∀ name, (globals.default? name).isSome = true → globals.values.contains name = true
  /-- Unless writes are kept apart at the same times, only globals are written that are there. -/
  placed : mode.lockstep ∨
    ∀ name, (globals.stored? patch name).isSome = true → globals.values.contains name = true
  apart : mode.lockstep → patch.isSome = otherPatch.isSome
  noted : mode.verbatim →
    globals = other ∧ patch.map uncounted = otherPatch.map uncounted

namespace Globals

variable {globals other : Globals} {patch otherPatch : Option Patch} {mode : Comparison}

theorem get?_current (globals : Globals) (patch : Option Patch) (name : String) :
    (globals.current patch).get? name = globals.stored? patch name := by
  cases patch with
  | none => rfl
  | some patch => exact get?_insertTable _ _ _

theorem contains_set (name : String) (value : Value) (other : String) :
    (globals.set patch name value).1.values.contains other =
      (globals.values.contains other || patch.isNone && other == name) := by
  unfold contains
  cases patch <;> cases batch : globals.batch <;> simp only [set, batch]
  all_goals simp
  all_goals split <;> simp_all

theorem isSome_patch_set (name : String) (value : Value) :
    (globals.set patch name value).2.isSome = patch.isSome := by
  unfold set
  split <;> rfl

theorem stored?_congr (same : after.map Patch.uncounted = patch.map Patch.uncounted) (name : String) :
    globals.stored? after name = globals.stored? patch name := by
  have written := congrArg (Option.bind · fun patch => patch.globals.get? name) same
  simp only [Option.bind_map, Function.comp_def, Patch.uncounted] at written
  unfold stored?
  rw [written]

/-- Declared globals have values where others are loaded. -/
theorem declared_load (globals : Globals) (saved : Table String Value) (name : String)
    (declared : ((globals.load saved).default? name).isSome) :
    (globals.load saved).values.contains name := by
  obtain ⟨value, declared⟩ := isSome_iff_exists.mp declared
  obtain ⟨defaults, there, listed⟩ := bind_eq_some_iff.mp declared
  have there : globals.defaults = some defaults := there
  simp only [load, there, contains, get?_mapWithKey, listed, map_some,
    isSome_some]

/-- The same globals match, with patches that write the same to them. -/
theorem matches_of_patches (placed : mode.lockstep ∨ patch = none)
    (declared : ∀ name, (globals.default? name).isSome →
      globals.values.contains name)
    (same : patch.map uncounted = otherPatch.map uncounted) :
    Matches mode globals patch globals otherPatch where
  stored := stored?_congr same
  defaults := rfl
  there := fun _ => rfl
  declared := declared
  placed := by
    refine placed.imp_right fun unpatched name stored => ?_
    rw [unpatched] at stored
    exact stored
  apart _ := by rw [← isSome_map, same, isSome_map]
  noted := fun _ => ⟨rfl, same⟩

/-- Of a patch a write reads the globals only. -/
theorem set_congr (same : patch.map uncounted = otherPatch.map uncounted) (name : String)
    (value : Value) :
    (globals.set patch name value).1 = (globals.set otherPatch name value).1 ∧
      (globals.set patch name value).2.map uncounted =
        (globals.set otherPatch name value).2.map uncounted := by
  cases patch <;> cases otherPatch
  · exact ⟨rfl, rfl⟩
  · contradiction
  · contradiction
  · next patch otherPatch =>
    have same : patch.uncounted = otherPatch.uncounted := some.inj same
    have written : patch.globals = otherPatch.globals := (congrArg Patch.globals same :)
    have changed : patch.changed = otherPatch.changed := (congrArg Patch.changed same :)
    unfold set
    cases globals.batch <;>
      simp [stored?, uncounted, setGlobal, addChanged, written, changed]
    split <;> simp

theorem stored?_startPatch (name : String) :
    globals.stored? (some (patch.getD {})) name = globals.stored? patch name := by
  cases patch <;> rfl

/-- The globals with the writes of a patch made to them. -/
def applied (globals : Globals) (patch : Option Patch) : Globals :=
  (patch.map globals.applyPatch).getD globals

theorem defaults_applied : (globals.applied patch).defaults = globals.defaults := by
  cases patch <;> rfl

theorem stored?_applied (name : String) :
    (globals.applied patch).stored? none name = globals.stored? patch name := by
  cases patch with
  | none => rfl
  | some patch => exact get?_insertTable _ _ _

theorem contains_applied (name : String) :
    (globals.applied patch).values.contains name = (globals.stored? patch name).isSome :=
  congrArg isSome (stored?_applied name)

theorem default?_applied (name : String) :
    (globals.applied patch).default? name = globals.default? name := by
  unfold default?
  rw [defaults_applied]

theorem applied_congr (same : patch.map uncounted = otherPatch.map uncounted) :
    globals.applied patch = globals.applied otherPatch := by
  cases patch <;> cases otherPatch
  · rfl
  · contradiction
  · contradiction
  · next patch otherPatch =>
    have same : patch.uncounted = otherPatch.uncounted := some.inj same
    exact (congrArg globals.applyPatch same :)

theorem isSome_stored? (there : globals.values.contains name) :
    (globals.stored? patch name).isSome := by
  unfold stored?
  rw [isSome_or]
  exact Bool.or_eq_true_iff.mpr (.inr there)

namespace Matches

section

variable (same : Matches mode globals patch other otherPatch)

include same

theorem default? (name : String) : globals.default? name = other.default? name := by
  unfold Globals.default?
  rw [same.defaults]

theorem get? (name : String) : globals.get? patch name = other.get? otherPatch name := by
  unfold Globals.get?
  rw [same.stored, same.default?]

theorem has (name : String) : globals.has name = other.has name := by
  unfold Globals.has
  rw [same.there, same.default?]

theorem size_current : (globals.current patch).size = (other.current otherPatch).size := by
  apply size_eq
  intro name
  unfold contains
  rw [get?_current, get?_current, same.stored]

/-- What is written in both is the same in both. -/
theorem set (value : Value) (allowed : mode.lockstep ∨ globals.values.contains name) :
    Matches mode (globals.set patch name value).1 (globals.set patch name value).2
      (other.set otherPatch name value).1 (other.set otherPatch name value).2 where
  stored query := by rw [stored?_set, stored?_set, same.stored, same.stored]
  defaults := by rw [defaults_set, defaults_set, same.defaults]
  there query := by
    rw [contains_set, contains_set, same.there]
    rcases allowed with lockstep | there
    · rw [← not_isSome, ← not_isSome, same.apart lockstep]
    · rw [same.there] at there
      by_cases here : query = name
      · rw [here, there, Bool.true_or, Bool.true_or]
      · rw [beq_eq_false_iff_ne.mpr here, Bool.and_false, Bool.and_false]
  declared query declared := by
    rw [default?_set] at declared
    rw [contains_set, same.declared query declared, Bool.true_or]
  placed := by
    rcases same.placed with lockstep | placed
    · exact .inl lockstep
    rcases allowed with lockstep | there
    · exact .inl lockstep
    right
    intro query stored
    rw [contains_set]
    rw [stored?_set] at stored
    split at stored
    · next here => rw [here, there, Bool.true_or]
    · rw [placed query stored, Bool.true_or]
  apart lockstep := by rw [isSome_patch_set, isSome_patch_set, same.apart lockstep]
  noted verbatim := by
    obtain ⟨rfl, samePatch⟩ := same.noted verbatim
    exact set_congr samePatch name value

/-- Of patches only what they write to the globals counts. -/
theorem congr {otherAfter : Option Patch} (left : after.map uncounted = patch.map uncounted)
    (right : otherAfter.map uncounted = otherPatch.map uncounted) :
    Matches mode globals after other otherAfter :=
  { same with
    stored name := by rw [stored?_congr left, stored?_congr right, same.stored]
    placed := by
      refine same.placed.imp_right fun placed name stored => placed name ?_
      rwa [stored?_congr left] at stored
    apart lockstep := by
      rw [← isSome_map, left, isSome_map, same.apart lockstep, ← isSome_map,
        ← right, isSome_map]
    noted verbatim := by
      obtain ⟨rfl, samePatch⟩ := same.noted verbatim
      exact ⟨rfl, left.trans (samePatch.trans right.symm)⟩ }

theorem startPatch :
    Matches mode globals (some (patch.getD {})) other (some (otherPatch.getD {})) :=
  { same with
    stored name := by rw [stored?_startPatch, stored?_startPatch, same.stored]
    placed := by
      refine same.placed.imp_right fun placed name stored => placed name ?_
      rwa [stored?_startPatch] at stored
    apart := fun _ => rfl
    noted verbatim := by
      obtain ⟨rfl, samePatch⟩ := same.noted verbatim
      refine ⟨rfl, ?_⟩
      cases patch <;> cases otherPatch
      · rfl
      · contradiction
      · contradiction
      · exact samePatch }

theorem beginLine : Matches mode globals.beginLine patch other.beginLine otherPatch :=
  { same with
    noted := fun verbatim => (same.noted verbatim).imp_left (congrArg Globals.beginLine) }

theorem endLine : Matches mode globals.endLine patch other.endLine otherPatch :=
  { same with
    noted := fun verbatim => (same.noted verbatim).imp_left (congrArg Globals.endLine) }

theorem forgetOthers :
    Matches mode globals.forgetOthers patch other.forgetOthers otherPatch :=
  { same with
    noted := fun verbatim => (same.noted verbatim).imp_left (congrArg Globals.forgetOthers) }

section

variable (verbatim : mode.verbatim)

include verbatim

/-- The changes of a line are reported alike. -/
theorem lineChanges : globals.lineChanges patch = other.lineChanges otherPatch := by
  obtain ⟨rfl, samePatch⟩ := same.noted verbatim
  cases patch <;> cases otherPatch
  · rfl
  · contradiction
  · contradiction
  · next patch otherPatch =>
    have same : patch.uncounted = otherPatch.uncounted := some.inj samePatch
    exact (congrArg (fun patch => globals.lineChanges (some patch)) same :)

/-- The changes made outside of lines are reported alike. -/
theorem otherChanges : globals.otherChanges patch = other.otherChanges otherPatch := by
  unfold Globals.otherChanges
  simp only [same.get?]
  rw [(same.noted verbatim).1]

theorem load (saved : Table String Value) :
    Matches mode (globals.load saved) patch (other.load saved) otherPatch := by
  obtain ⟨rfl, samePatch⟩ := same.noted verbatim
  exact matches_of_patches (.inl (mode.together verbatim)) (declared_load globals saved)
    samePatch

/-- Writes that were kept apart are forgotten alike. -/
theorem unpatched : Matches mode globals none other none := by
  obtain ⟨rfl, -⟩ := same.noted verbatim
  exact matches_of_patches (.inl (mode.together verbatim)) same.declared rfl

theorem declare : Matches mode globals.declare patch other.declare otherPatch := by
  obtain ⟨rfl, samePatch⟩ := same.noted verbatim
  refine matches_of_patches (.inl (mode.together verbatim)) (fun name declared => ?_) samePatch
  exact declared

end

/-- Globals with the writes of both patches made to them match. -/
theorem applied :
    Matches mode (globals.applied patch) none (other.applied otherPatch) none where
  stored name := by rw [stored?_applied, stored?_applied, same.stored]
  defaults := by rw [defaults_applied, defaults_applied, same.defaults]
  there name := by rw [contains_applied, contains_applied, same.stored]
  declared name declared := by
    rw [default?_applied] at declared
    rw [contains_applied]
    exact isSome_stored? (same.declared name declared)
  placed := by
    right
    intro name stored
    exact stored
  apart := fun _ => rfl
  noted verbatim := by
    obtain ⟨rfl, samePatch⟩ := same.noted verbatim
    exact ⟨applied_congr samePatch, rfl⟩

/-- Where writes need not be kept apart at the same times, they may be made in one of two places. -/
theorem applied_left (free : ¬mode.lockstep) :
    Matches mode (globals.applied patch) none other otherPatch where
  stored name := by rw [stored?_applied, same.stored]
  defaults := by rw [defaults_applied, same.defaults]
  there name := by
    rw [contains_applied, ← same.there]
    exact Bool.eq_iff_iff.mpr ⟨same.placed.resolve_left free name, isSome_stored?⟩
  declared name declared := by
    rw [default?_applied] at declared
    rw [contains_applied]
    exact isSome_stored? (same.declared name declared)
  placed := by
    right
    intro name stored
    exact stored
  apart := fun lockstep => absurd lockstep free
  noted := fun verbatim => absurd (mode.together verbatim) free

theorem applied_right (free : ¬mode.lockstep) :
    Matches mode globals patch (other.applied otherPatch) none :=
  { same with
    stored name := by rw [stored?_applied, same.stored]
    defaults := by rw [defaults_applied, same.defaults]
    there name := by
      rw [contains_applied, ← same.stored]
      exact Bool.eq_iff_iff.mpr ⟨isSome_stored?, same.placed.resolve_left free name⟩
    apart := fun lockstep => absurd lockstep free
    noted := fun verbatim => absurd (mode.together verbatim) free }

theorem startPatch_right (free : ¬mode.lockstep) :
    Matches mode globals patch other (some (otherPatch.getD {})) :=
  { same with
    stored name := by rw [stored?_startPatch, same.stored]
    apart := fun lockstep => absurd lockstep free
    noted := fun verbatim => absurd (mode.together verbatim) free }

end

end Matches

end Globals

/-! ### Variables in scope -/

/-- Scopes that cannot be told apart. -/
structure Scope.Matches (mode : Comparison) (scope other : Scope) : Prop where
  globals : Globals.Matches mode scope.globals scope.patch other.globals other.patch
  stack : scope.stack.Matches mode.program other.stack
  lists : scope.lists = other.lists

namespace Scope.Matches

variable {scope other : Scope} {mode : Comparison}

section

variable (same : Matches mode scope other)

include same

theorem raw? (name : String) (context : Context) :
    scope.raw? name context = other.raw? name context := by
  unfold Scope.raw?
  rw [same.globals.get?, same.lists, same.stack.temporary?]
  cases context with
  | frame height =>
    dsimp only
    rw [same.stack.temporary?]
  | _ => rfl

theorem pointerLimit : scope.pointerLimit = other.pointerLimit := by
  unfold Scope.pointerLimit
  rw [same.globals.size_current, same.globals.defaults, same.stack.current.temporaries]

theorem chase (limit : Nat) (name : String) (context : Context) :
    scope.chase limit name context = other.chase limit name context := by
  induction limit generalizing name context with
  | zero => rfl
  | succ limit ih =>
    unfold Scope.chase
    rw [same.raw?]
    split
    · exact ih _ _
    · rfl

theorem resolve (name : String) (context : Context) :
    scope.resolve name context = other.resolve name context := by
  unfold Scope.resolve
  rw [same.raw?, same.pointerLimit]
  split
  · exact same.chase _ _ _
  · rfl

theorem value? (name : String) (context : Context) :
    scope.value? name context = other.value? name context := by
  unfold Scope.value?
  rw [same.resolve]
  exact same.raw? _ _

theorem contextOf (name : String) : scope.contextOf name = other.contextOf name := by
  unfold Scope.contextOf
  rw [same.globals.has, same.stack.height]

theorem pin (name : String) (context : Context) :
    scope.pin name context = other.pin name context := by
  unfold Scope.pin
  simp only [same.contextOf, same.raw?]

theorem destination (assignment : Assignment) :
    scope.destination assignment = other.destination assignment := by
  unfold Scope.destination
  rw [same.raw?, same.resolve, same.globals.has]

theorem assigned (assignment : Assignment) (value : Value) :
    scope.assigned assignment value = other.assigned assignment value := by
  unfold Scope.assigned
  split
  · exact same.pin _ _
  · rfl

end

end Scope.Matches

/-! ### States -/

/-- The counts of a patch. -/
def Patch.counts (patch : Patch) : Table Address Nat × Table Address Int32 :=
  (patch.visits, patch.turns)

/-- All counts, those of the patch apart. -/
def State.tally (state : State) :
    Table Address Nat × Table Address Int32 × Option (Table Address Nat × Table Address Int32) :=
  (state.visits, state.turns, state.patch.map counts)

/-- How often a container was visited, if it was. -/
def State.visited? (state : State) (address : Address) : Option Nat :=
  (state.patch.bind fun patch => patch.visits.get? address).or (state.visits.get? address)

namespace State

variable (state : State) (name : String) (value : Value) (address : Address)

/-- A write changes no counts. -/
theorem tally_write : (state.write name value).tally = state.tally := by
  unfold tally write Globals.set
  cases state.patch <;> cases state.globals.batch <;>
    simp [counts, setGlobal, addChanged]
  split <;> simp

theorem visited?_eq : state.visited? address =
    (state.tally.2.2.bind fun counts => counts.1.get? address).or (state.tally.1.get? address) := by
  unfold visited? tally
  rw [bind_map]
  rfl

theorem turnOf?_eq : state.turnOf? address =
    (state.tally.2.2.bind fun counts => counts.2.get? address).or
      (state.tally.2.1.get? address) := by
  unfold turnOf? tally
  rw [bind_map]
  rfl

theorem visited?_write : (state.write name value).visited? address = state.visited? address := by
  rw [visited?_eq, tally_write, ← visited?_eq]

theorem turnOf?_write : (state.write name value).turnOf? address = state.turnOf? address := by
  rw [turnOf?_eq, tally_write, ← turnOf?_eq]

theorem applyPatch_eq : ∃ visits turns,
    state.applyPatch =
        { state with
          patch := none, globals := state.globals.applied state.patch, visits := visits,
          turns := turns } ∧
      (∀ address, visits.get? address = state.visited? address) ∧
      ∀ address, turns.get? address = state.turnOf? address := by
  unfold applyPatch visited? turnOf?
  cases patched : state.patch with
  | none =>
    refine ⟨state.visits, state.turns, ?_, fun _ => rfl, fun _ => rfl⟩
    cases state
    cases patched
    rfl
  | some patch =>
    exact ⟨_, _, rfl, get?_insertTable _ _, get?_insertTable _ _⟩

theorem visited?_startPatch : state.startPatch.visited? address = state.visited? address := by
  unfold startPatch visited?
  cases state.patch <;> rfl

theorem turnOf?_startPatch : state.startPatch.turnOf? address = state.turnOf? address := by
  unfold startPatch turnOf?
  cases state.patch <;> rfl

theorem visited?_countVisit (query : Address) :
    (state.countVisit address).visited? query =
      if query = address then some (state.visitsOf address + 1) else state.visited? query := by
  unfold countVisit visited?
  cases state.patch <;> simp [Patch.setVisits]
  split <;> rfl

theorem tally_countVisit : (state.countVisit address).tally =
    match state.tally with
    | (visits, turns, none) => (visits.insert address (state.visitsOf address + 1), turns, none)
    | (visits, turns, some (patched, patchedTurns)) =>
      (visits, turns,
        some (patched.insert address (state.visitsOf address + 1), patchedTurns)) := by
  unfold countVisit tally
  cases state.patch <;> rfl

theorem tally_recordTurn : (state.recordTurn address).tally =
    match state.tally with
    | (visits, turns, none) => (visits, turns.insert address state.turn, none)
    | (visits, turns, some (patched, patchedTurns)) =>
      (visits, turns, some (patched, patchedTurns.insert address state.turn)) := by
  unfold recordTurn tally
  cases state.patch <;> rfl

theorem tally_startPatch : state.startPatch.tally =
    (state.visits, state.turns, some (state.tally.2.2.getD ({}, {}))) := by
  unfold startPatch tally
  cases state.patch <;> rfl

theorem tally_applyPatch : state.applyPatch.tally =
    match state.tally with
    | (visits, turns, none) => (visits, turns, none)
    | (visits, turns, some (patched, patchedTurns)) =>
      (visits.insertAll patched.entries, turns.insertAll patchedTurns.entries, none) := by
  unfold applyPatch tally
  cases patched : state.patch with
  | none =>
    rw [patched]
    rfl
  | some patch => rfl

theorem turnOf?_countVisit (query : Address) :
    (state.countVisit address).turnOf? query = state.turnOf? query := by
  unfold countVisit turnOf?
  cases state.patch <;> rfl

theorem visited?_recordTurn (query : Address) :
    (state.recordTurn address).visited? query = state.visited? query := by
  unfold recordTurn visited?
  cases state.patch <;> rfl

theorem turnOf?_recordTurn (query : Address) :
    (state.recordTurn address).turnOf? query =
      if query = address then some state.turn else state.turnOf? query := by
  unfold recordTurn turnOf?
  cases state.patch <;> simp [Patch.setTurn]
  split <;> rfl

end State

/-- States that cannot be told apart. -/
structure State.Matches (mode : Comparison) (state other : State) : Prop where
  callStack : state.callStack.Matches mode.program other.callStack
  globals : Globals.Matches mode state.globals state.patch other.globals other.patch
  evaluation : state.evaluation = other.evaluation
  output : state.output.Matches other.output
  choices : List.Forall₂ (Choice.Matches mode.program) state.choices other.choices
  visited : ∀ address, state.visited? address = other.visited? address
  turned : ∀ address, state.turnOf? address = other.turnOf? address
  tally : mode.verbatim → state.tally = other.tally
  turn : state.turn = other.turn
  seed : state.seed = other.seed
  previousDraw : state.previousDraw = other.previousDraw
  exited : mode.exiting → state.exitedSafely = other.exitedSafely
  diverted : state.diverted = other.diverted
  errors : state.errors = other.errors
  warnings : mode.warned → state.warnings = other.warnings

namespace State.Matches

variable {state other : State} {mode : Comparison}

section

variable (same : Matches mode state other)

include same

theorem pointer : state.pointer = other.pointer :=
  same.callStack.pointer

theorem evaluating : state.evaluating = other.evaluating :=
  same.callStack.evaluating

theorem canContinue : state.canContinue = other.canContinue := by
  unfold State.canContinue
  rw [same.pointer, same.errors]

theorem scope (program : Program) :
    Scope.Matches mode (state.scope program) (other.scope program) :=
  ⟨same.globals, same.callStack, rfl⟩

theorem lookup? (program : Program) (name : String) :
    state.lookup? program name = other.lookup? program name :=
  (same.scope program).value? name .unknown

theorem visitsOf (address : Address) : state.visitsOf address = other.visitsOf address :=
  congrArg (getD · 0) (same.visited address)

theorem readVisits (program : Program) (address : Address) :
    state.readVisits program address = other.readVisits program address := by
  unfold State.readVisits
  rw [same.visitsOf]

theorem turnsSince (program : Program) (address : Address) :
    state.turnsSince program address = other.turnsSince program address := by
  unfold State.turnsSince
  rw [same.turned, same.turn]

theorem report (program : Program) (kind message : String) :
    state.report program kind message = other.report program kind message := by
  unfold State.report State.path?
  rw [same.pointer]

theorem setPointer (pointer : Option Pointer) :
    Matches mode (state.setPointer pointer) (other.setPointer pointer) :=
  { same with callStack := same.callStack.setPointer pointer }

theorem setEvaluating (evaluating : Bool) :
    Matches mode (state.setEvaluating evaluating) (other.setEvaluating evaluating) :=
  { same with callStack := same.callStack.setEvaluating evaluating }

theorem push (content : Content) : Matches mode (state.push content) (other.push content) :=
  { same with evaluation := congrArg (content :: ·) same.evaluation }

theorem emit (content : Content) : Matches mode (state.emit content) (other.emit content) :=
  have pushed := same.output.push same.callStack content
  { same with output := pushed.1, callStack := pushed.2 }

theorem forceEnd : Matches mode state.forceEnd other.forceEnd :=
  { same with
    callStack := (same.callStack.reset.setPointer none).setPrevious (Program.samePlace_refl _ none)
    choices := .nil
    exited := fun _ => rfl }

theorem exitHostCall : Matches mode state.exitHostCall other.exitHostCall :=
  { same.setPointer none with exited := fun _ => rfl }

theorem warn (program : Program) (warning : Warning) :
    Matches mode (state.warn program warning) (other.warn program warning) :=
  { same with
    warnings warned := by
      simp only [State.warn]
      rw [same.warnings warned, same.report] }

end

/-- Warnings one after another are noted alike. -/
theorem warnAll (warnings : List Warning) (same : Matches mode state other) :
    Matches mode (warnings.foldl (fun state warning => state.warn program warning) state)
      (warnings.foldl (fun state warning => state.warn program warning) other) := by
  induction warnings generalizing state other with
  | nil => exact same
  | cons warning rest ih => exact ih (same.warn program warning)

section

variable (same : Matches mode state other)

include same

theorem fail (program : Program) (error : Error) :
    Matches mode (state.fail program error) (other.fail program error) :=
  { same.forceEnd with
    errors := by
      simp only [State.fail]
      rw [same.errors, same.report] }

theorem leaveFrame (kind : Option FrameKind) :
    Concurs (Matches mode) (state.leaveFrame kind) (other.leaveFrame kind) := by
  have popped := same.callStack.pop kind
  unfold State.leaveFrame
  rw [same.callStack.kind]
  generalize state.callStack.pop kind = result at popped ⊢
  generalize other.callStack.pop kind = otherResult at popped ⊢
  cases popped with
  | error error => exact .error error
  | ok sameStack =>
    refine .ok { same with output := ?_, callStack := sameStack }
    split
    · next isFunction => exact same.output.leaveFunction same.callStack isFunction
    · exact same.output

theorem write (value : Value) (allowed : mode.lockstep ∨ state.globals.values.contains name) :
    Matches mode (state.write name value) (other.write name value) :=
  { same with
    globals := same.globals.set value allowed
    visited address := by rw [visited?_write, visited?_write, same.visited]
    turned address := by rw [turnOf?_write, turnOf?_write, same.turned]
    tally verbatim := by rw [tally_write, tally_write, same.tally verbatim] }

/-- An assignment to a global that is there, or made while writes are kept apart at the same times,
does the same in both states. -/
theorem assign {assignment : Assignment} {value : Value}
    (allowed : mode.lockstep ∨ ∀ name, state.assigned? program
    (.assignment assignment) = some name → state.globals.values.contains name) :
    Concurs (Matches mode) (state.assign program assignment value)
      (other.assign program assignment value) := by
  have scope := same.scope program
  rw [assign_eq, assign_eq, ← scope.destination, ← scope.assigned]
  split
  · next isGlobal =>
    exact .ok (same.write _ (allowed.imp_right fun there => there _ (if_pos isGlobal)))
  · have written := same.callStack.setTemporary ((state.scope program).destination assignment).name
      ((state.scope program).assigned assignment value) assignment.isDeclaration
      ((state.scope program).destination assignment).context
    generalize state.callStack.setTemporary _ _ _ _ = result at written ⊢
    generalize other.callStack.setTemporary _ _ _ _ = otherResult at written ⊢
    cases written with
    | ok sameStack => exact .ok { same with callStack := sameStack }
    | error error => exact .error error

/-! ### Counts -/

/-- Where both states count, and count alike, they match. -/
theorem counted {after next : State} (left : Counted state after) (right : Counted other next)
    (visited : ∀ address, after.visited? address = next.visited? address)
    (turned : ∀ address, after.turnOf? address = next.turnOf? address)
    (tally : mode.verbatim → after.tally = next.tally) : Matches mode after next := by
  obtain ⟨_, _, _, rfl, uncounted⟩ := left
  obtain ⟨_, _, _, rfl, otherUncounted⟩ := right
  exact { same with
    globals := same.globals.congr uncounted otherUncounted
    visited := visited
    turned := turned
    tally := tally }

theorem countVisit (address : Address) :
    Matches mode (state.countVisit address) (other.countVisit address) := by
  apply same.counted (counted_countVisit state address) (counted_countVisit other address)
  · intro query
    rw [visited?_countVisit, visited?_countVisit, same.visited, same.visitsOf]
  · intro query
    rw [turnOf?_countVisit, turnOf?_countVisit, same.turned]
  · intro verbatim
    rw [tally_countVisit, tally_countVisit, same.tally verbatim, same.visitsOf]

theorem recordTurn (address : Address) :
    Matches mode (state.recordTurn address) (other.recordTurn address) := by
  apply same.counted (counted_recordTurn state address) (counted_recordTurn other address)
  · intro query
    rw [visited?_recordTurn, visited?_recordTurn, same.visited]
  · intro query
    rw [turnOf?_recordTurn, turnOf?_recordTurn, same.turned, same.turn]
  · intro verbatim
    rw [tally_recordTurn, tally_recordTurn, same.tally verbatim, same.turn]

theorem visit (program : Program) (address : Address) (atStart : Bool) :
    Matches mode (state.visit program address atStart)
      (other.visit program address atStart) := by
  have counted : Matches mode
      (if (program.container address).counting.visits then state.countVisit address else state)
      (if (program.container address).counting.visits then other.countVisit address else other) :=
    related_ite (same.countVisit address) same
  exact related_ite same (related_ite (counted.recordTurn address) counted)

theorem visitAll (program : Program) (visits : List (Address × Bool)) :
    Matches mode (state.visitAll program visits) (other.visitAll program visits) := by
  induction visits generalizing state other with
  | nil => exact same
  | cons visit rest ih => exact ih (same.visit program visit.1 visit.2)

theorem visitEntered :
    Matches mode (state.visitEntered mode.program)
      (other.visitEntered mode.program) := by
  unfold State.visitEntered
  rw [same.pointer]
  split
  · rw [same.callStack.current.previous.enteredByJump]
    exact same.visitAll _ _
  · exact same

theorem descend (program : Program) (pointer : Pointer) :
    Matches mode (state.descend program pointer) (other.descend program pointer) :=
  (same.visitAll program _).setPointer _

/-! ### Moving on -/

theorem increment (program : Program) :
    Matches mode (state.increment program) (other.increment program) := by
  unfold State.increment
  rw [same.pointer]
  split
  · exact same.setPointer _
  · exact same

theorem returnFromFunction (isFunction : other.callStack.frame.kind = .function) :
    Matches mode state.returnFromFunction other.returnFromFunction := by
  have left : Matches mode
      { state with
        output := state.output.leaveFunction state.callStack, callStack := state.callStack.drop }
      { other with
        output := other.output.leaveFunction other.callStack, callStack := other.callStack.drop } :=
    { same with
      output := same.output.leaveFunction same.callStack isFunction
      callStack := same.callStack.drop }
  unfold State.returnFromFunction
  dsimp only
  rw [left.evaluating]
  exact related_ite (left.push .void) left

theorem unwind? : Option.Rel (Matches mode) state.unwind? other.unwind? := by
  unfold State.unwind?
  rw [same.callStack.canPopKind, same.callStack.canPopThread]
  split
  · next isFunction =>
    obtain ⟨-, kind⟩ := Bool.and_eq_true_iff.mp isFunction
    exact .some (same.returnFromFunction (by simpa using kind))
  · split
    · exact .some { same with callStack := same.callStack.popThread }
    · exact .none

theorem setPrevious :
    Matches mode (state.setPrevious state.pointer) (other.setPrevious other.pointer) := by
  have place : mode.program.SamePlace state.pointer other.pointer := by
    rw [same.pointer]
    exact Program.samePlace_refl _ _
  exact { same with callStack := same.callStack.setPrevious place }

theorem moveOnWithin (limit : Nat) :
    Matches mode (state.moveOnWithin mode.program limit)
      (other.moveOnWithin mode.program limit) := by
  induction limit generalizing state other with
  | zero => exact same
  | succ limit ih =>
    have behind := same.setPrevious
    unfold moveOnWithin
    generalize state.setPrevious state.pointer = state at behind
    generalize other.setPrevious other.pointer = other at behind
    dsimp only
    rw [behind.diverted]
    split
    · have landed : Matches mode { state with diverted := none }
          { other with diverted := none } := { behind with diverted := rfl }
      exact (landed.setPointer _).visitEntered
    · have moved := behind.increment mode.program
      rw [moved.pointer]
      split
      · exact moved
      · have unwound := moved.unwind?
        generalize (state.increment mode.program).unwind? = outer at unwound
        generalize (other.increment mode.program).unwind? = outer' at unwound
        cases unwound with
        | none =>
          rw [moved.callStack.inHostCall]
          exact related_ite moved.exitHostCall moved
        | some out =>
          dsimp only
          rw [out.pointer]
          exact related_ite (ih out) out

theorem moveOn :
    Matches mode (state.moveOn mode.program) (other.moveOn mode.program) := by
  unfold State.moveOn
  rw [same.callStack.frameCount]
  exact same.moveOnWithin _

/-! ### Writes that are kept apart -/

theorem startPatch : Matches mode state.startPatch other.startPatch :=
  { same with
    globals := same.globals.startPatch
    visited address := by rw [visited?_startPatch, visited?_startPatch, same.visited]
    turned address := by rw [turnOf?_startPatch, turnOf?_startPatch, same.turned]
    tally verbatim := by
      have counts := same.tally verbatim
      rw [tally_startPatch, tally_startPatch, show state.visits = other.visits from congrArg (·.1) counts,
        show state.turns = other.turns from congrArg (·.2.1) counts, counts] }

theorem startPatch_right (free : ¬mode.lockstep) :
    Matches mode state other.startPatch :=
  { same with
    globals := same.globals.startPatch_right free
    visited address := by rw [visited?_startPatch, same.visited]
    turned address := by rw [turnOf?_startPatch, same.turned]
    tally := fun verbatim => absurd (mode.together verbatim) free }

theorem applyPatch : Matches mode state.applyPatch other.applyPatch := by
  obtain ⟨visits, turns, applied, visited, turned⟩ := applyPatch_eq state
  obtain ⟨visits', turns', applied', visited', turned'⟩ := applyPatch_eq other
  have counts (verbatim : mode.verbatim) : state.applyPatch.tally = other.applyPatch.tally := by
    rw [tally_applyPatch, tally_applyPatch, same.tally verbatim]
  rw [applied, applied'] at counts ⊢
  exact { same with
    tally := counts
    globals := same.globals.applied
    visited := fun address => (visited address).trans ((same.visited address).trans
      (visited' address).symm)
    turned := fun address => (turned address).trans ((same.turned address).trans
      (turned' address).symm) }

theorem applyPatch_left (free : ¬mode.lockstep) :
    Matches mode state.applyPatch other := by
  obtain ⟨visits, turns, applied, visited, turned⟩ := applyPatch_eq state
  rw [applied]
  exact { same with
    globals := same.globals.applied_left free
    visited := fun address => (visited address).trans (same.visited address)
    turned := fun address => (turned address).trans (same.turned address)
    tally := fun verbatim => absurd (mode.together verbatim) free }

theorem applyPatch_right (free : ¬mode.lockstep) :
    Matches mode state other.applyPatch := by
  obtain ⟨visits, turns, applied, visited, turned⟩ := applyPatch_eq other
  rw [applied]
  exact { same with
    globals := same.globals.applied_right free
    visited := fun address => (same.visited address).trans (visited address).symm
    turned := fun address => (same.turned address).trans (turned address).symm
    tally := fun verbatim => absurd (mode.together verbatim) free }

end

/-- A state cannot be told apart from itself. -/
theorem refl (placed : mode.lockstep ∨ state.patch = none)
    (declared : ∀ name, (state.globals.default? name).isSome →
      state.globals.values.contains name) : Matches mode state state where
  callStack := CallStack.matches_refl _ _
  globals := Globals.matches_of_patches placed declared rfl
  evaluation := rfl
  output := Output.matches_refl _
  choices := List.forall₂_same.mpr fun choice _ => choice.matches_refl _
  visited := fun _ => rfl
  turned := fun _ => rfl
  tally := fun _ => rfl
  turn := rfl
  seed := rfl
  previousDraw := rfl
  exited := fun _ => rfl
  diverted := rfl
  errors := rfl
  warnings := fun _ => rfl

/-! ### Choices -/

theorem offer (same : Matches mode state other) (sameChoice : choice.Matches mode.program next) :
    Matches mode (state.offer choice) (other.offer next) :=
  { same with
    callStack := same.callStack.fork.2
    choices := List.rel_append same.choices (.cons sameChoice .nil) }

theorem take (same : Matches mode state other) (sameChoice : choice.Matches mode.program next) :
    Matches mode (state.take choice) (other.take next) :=
  { same with
    callStack := same.callStack.runOnly sameChoice.thread
    choices := .nil }

theorem visibleChoices (same : Matches mode state other) :
    List.Forall₂ (Choice.Matches mode.program) state.visibleChoices other.visibleChoices := by
  unfold State.visibleChoices
  rw [same.canContinue]
  refine related_ite .nil (forall₂_filter same.choices fun choice next sameChoice => ?_)
  rw [sameChoice.isInvisible]

end State.Matches

end InkStory
