import InkStory.Proofs.Actions

/-! # Globals between writes

The value of a global is what was written last, until the story assigns it, and until a line that
looks ahead goes back behind the write. -/

namespace InkStory

open Globals Operation

variable {state after : State} {name : String} {live old : Option Value} {story : Story}

@[simp]
theorem Patch.globals_setGlobal (patch : Patch) (name : String) (value : Value) :
    (patch.setGlobal name value).globals = patch.globals.insert name value := rfl

@[simp]
theorem Patch.globals_addChanged (patch : Patch) (name : String) :
    (patch.addChanged name).globals = patch.globals := rfl

/-- Only an empty list is stored as something else than itself, and then as an empty list. -/
theorem Value.replacing_eq (value : Value) (old : Option Value) :
    value.replacing old = value ∨ ∃ items lists, items.isEmpty ∧ value = .list items ∧
      value.replacing old = .list { items with remembered := lists } := by
  unfold Value.replacing
  split
  · next items former =>
    unfold ItemSet.replacing
    split
    · next empty => exact .inr ⟨items, _, empty, rfl, rfl⟩
    · exact .inl rfl
  · exact .inl rfl

namespace Globals

variable {globals : Globals} {patch : Option Patch}

theorem defaults_set (name : String) (value : Value) :
    (globals.set patch name value).1.defaults = globals.defaults := by
  unfold set
  split <;> rfl

theorem default?_set (name other : String) (value : Value) :
    (globals.set patch name value).1.default? other = globals.default? other := by
  unfold default?
  rw [defaults_set]

/-- A write is read back, and nothing else changes. -/
theorem stored?_set (name other : String) (value : Value) :
    (globals.set patch name value).1.stored? (globals.set patch name value).2 other =
      if other = name then some (value.replacing (globals.stored? patch name))
      else globals.stored? patch other := by
  by_cases same : other = name
  · subst same
    cases patch <;> cases batch : globals.batch <;> simp only [set, batch]
    all_goals simp [stored?]
    split <;> simp
  · cases patch <;> cases batch : globals.batch <;> simp only [set, batch]
    all_goals simp [stored?, same]
    split <;> simp [same]

theorem get?_set (name other : String) (value : Value) :
    (globals.set patch name value).1.get? (globals.set patch name value).2 other =
      if other = name then some (value.replacing (globals.stored? patch name))
      else globals.get? patch other := by
  rw [get?, stored?_set, default?_set]
  split <;> rfl

end Globals

namespace State

variable {program : Program}

theorem Counted.global?_eq (counted : Counted state after) :
    after.global? name = state.global? name := by
  obtain ⟨visits, turns, patch, rfl, same⟩ := counted
  have written : (patch.bind fun patch => patch.globals.get? name) =
      state.patch.bind fun patch => patch.globals.get? name := by
    have mapped := congrArg (Option.bind · fun patch => patch.globals.get? name) same
    simpa only [Option.bind_map, Function.comp_def, Patch.uncounted] using mapped
  simp only [global?, Globals.get?, Globals.stored?, written]

theorem global?_write (written : String) (value : Value) (other : name ≠ written) :
    (state.write written value).global? name = state.global? name := by
  simp [global?, write, get?_set, other]

/-- What a change does not assign keeps its value. -/
theorem Alters.global?_eq {limits : Limits} (spared : ¬limits.writable name)
    (change : Alters program limits state after) : after.global? name = state.global? name := by
  cases change with
  | visit visits => exact (counted_visitAll program state visits).global?_eq
  | write written value allowed =>
    refine global?_write written value ?_
    rintro rfl
    exact spared allowed
  | _ => rfl

end State

namespace State

theorem global?_applyPatch : state.applyPatch.global? name = state.global? name := by
  unfold applyPatch
  split
  · rfl
  · next patch written =>
    simp [global?, get?, stored?, Globals.applyPatch, default?, written,
      Table.get?_insertTable]

theorem global?_startPatch : state.startPatch.global? name = state.global? name := by
  cases written : state.patch with
  | none => simp [global?, startPatch, written]; rfl
  | some patch => simp [global?, startPatch, written]

end State

namespace Story

variable {writable : String → Prop} {callable : HostCall → Prop} {after : Story}

/-- A global has one value in the state of a story, and another in the one that it may go back
to. -/
structure Holds (name : String) (live old : Option Value) (story : Story) : Prop where
  state : story.state.global? name = live
  snapshot : ∀ snapshot, story.snapshot = some snapshot → snapshot.global? name = old

/-- What becomes of a value that was given to a global where going back gives it an old one: it is
still open which of them stays, or the new one stays for good, or the old one does. -/
inductive Fate (name : String) (live old : Option Value) (story : Story) : Prop where
  | undecided (holds : Holds name live old story)
  | lasting (holds : Holds name live live story)
  | lost (holds : Holds name old old story)

theorem Holds.settle (holds : Holds name live old story) : Holds name live old story.settle := by
  unfold Story.settle
  split
  · exact holds
  · exact ⟨by simpa only [State.global?_applyPatch] using holds.state, holds.snapshot⟩

/-- Going back gives the global its old value, if there is a state to go back to. -/
theorem Holds.rewind (holds : Holds name live old story) : Fate name live old story.rewind := by
  unfold Story.rewind
  split
  · exact .undecided holds
  · next snapshot pending =>
    exact .lost (Holds.settle
      ⟨holds.snapshot snapshot pending, fun _ pending => by simp at pending⟩)

theorem Holds.move (holds : Holds name live old story) (spared : ¬writable name)
    (move : Move writable callable story after) : Fate name live old after := by
  cases move with
  | effect effect =>
    cases effect with
    | change changed =>
      exact .undecided ⟨(changed.global?_eq spared).trans holds.state, holds.snapshot⟩
    | call | defer => exact .undecided ⟨holds.state, holds.snapshot⟩
  | workOut =>
    refine .undecided ⟨holds.state, fun snapshot pending => ?_⟩
    obtain ⟨known, there, rfl⟩ := Option.map_eq_some_iff.mp pending
    exact holds.snapshot known there
  | rewind => exact holds.rewind
  | keepLookahead =>
    exact .lasting
      ⟨holds.settle.state, fun _ pending => by simp [keepLookahead] at pending⟩
  | takeSnapshot settled goesOn =>
    refine .lasting ⟨?_, fun snapshot pending => ?_⟩
    · simp only [takeSnapshot, State.global?_startPatch]
      exact holds.state
    · obtain rfl : story.state = snapshot := by simpa [takeSnapshot] using pending
      exact holds.state

theorem global?_checkEnd (program : Program) (state : State) :
    (checkEnd program state).global? name = state.global? name := by
  unfold checkEnd
  dsimp only
  split
  · rfl
  · split <;> split <;> rfl

theorem Fate.congr (fate : Fate name live old story)
    (same : after.state.global? name = story.state.global? name)
    (pending : after.snapshot = story.snapshot) : Fate name live old after := by
  have kept {live old : Option Value} (holds : Holds name live old story) :
      Holds name live old after :=
    ⟨same.trans holds.state, fun snapshot there => holds.snapshot snapshot (pending ▸ there)⟩
  cases fate with
  | undecided holds => exact .undecided (kept holds)
  | lasting holds => exact .lasting (kept holds)
  | lost holds => exact .lost (kept holds)

theorem Holds.action (holds : Holds name live old story) (spared : ¬writable name)
    (action : Action writable callable story after) : Fate name live old after := by
  cases action with
  | move move => exact holds.move spared move
  | finish => exact holds.rewind.congr (global?_checkEnd _ _) rfl
  | startSaving complete free =>
    exact .undecided
      ⟨by simpa only [State.global?_startPatch] using holds.state, holds.snapshot⟩
  | endSaving =>
    refine .undecided ⟨?_, holds.snapshot⟩
    split
    · simpa only [State.global?_applyPatch] using holds.state
    · exact holds.state
  | _ => exact .undecided ⟨holds.state, holds.snapshot⟩

theorem Fate.holds_of_eq (fate : Fate name live live story) : Holds name live live story := by
  cases fate with
  | undecided holds => exact holds
  | lasting holds => exact holds
  | lost holds => exact holds

/-- What is decided stays so. -/
theorem Fate.action (fate : Fate name live old story) (spared : ¬writable name)
    (action : Action writable callable story after) : Fate name live old after := by
  cases fate with
  | undecided holds => exact holds.action spared action
  | lasting holds => exact .lasting (holds.action spared action).holds_of_eq
  | lost holds => exact .lost (holds.action spared action).holds_of_eq

end Story

namespace Operation

/-- An operation writes a global itself, or replaces all of them. -/
def writes (name : String) : Operation → Bool
  | .setGlobal other _ => other == name
  | .load _ | .reset => true
  | _ => false

/-- An operation leaves a global alone, and so does the story as it carries it out. -/
def Spares (name : String) (story : Story) (operation : Operation) : Prop :=
  operation.writes name = false ∧ ∀ step ∈ operation.steps story, step.assigned? ≠ some name

instance (name : String) (story : Story) (operation : Operation) :
    Decidable (operation.Spares name story) :=
  inferInstanceAs (Decidable (_ ∧ _))

/-- None of some operations, one after another, writes anything to a global. -/
def AllSpare (name : String) : List Operation → Story → Prop
  | [], _ => True
  | operation :: rest, story =>
    operation.Spares name story ∧ AllSpare name rest (operation.after story)

instance decidableAllSpare (name : String) :
    (operations : List Operation) → (story : Story) → Decidable (AllSpare name operations story)
  | [], _ => .isTrue trivial
  | operation :: rest, story =>
    have := decidableAllSpare name rest (operation.after story)
    inferInstanceAs (Decidable (_ ∧ _))

/-- The story behind some operations. -/
def afterAll (operations : List Operation) (story : Story) : Story :=
  operations.foldl (fun story operation => operation.after story) story

end Operation

namespace Operation

/-- An operation that does not write a global decides at most whether a rewind takes it back. -/
theorem fate_after {operation : Operation} (spares : operation.Spares name story)
    (fate : story.Fate name live old) : (operation.after story).Fate name live old := by
  have acts : ∀ before after, Story.Action (· ≠ name) (fun _ => True) before after →
      before.Fate name live old → after.Fate name live old :=
    fun _ _ action fate => fate.action (not_not.mpr rfl) action
  refine holds_after ?_ acts (fun before after setsUp fate => ?_) (fun before fate => ?_)
    (fun before taken => ⟨fun other assigned => ?_, fun _ _ => trivial⟩)
    (fun other value same => ?_) fate
  · cases operation with
    | reset | load _ => exact absurd spares.1 (by simp [writes])
    | _ => rfl
  · cases setsUp
    exact fate.congr rfl rfl
  · exact fate.congr rfl rfl
  · rintro rfl
    exact spares.2 before taken assigned
  · subst same
    simpa [writes] using spares.1

theorem fate_afterAll {operations : List Operation} (spare : AllSpare name operations story)
    (fate : story.Fate name live old) : (afterAll operations story).Fate name live old := by
  induction operations generalizing story with
  | nil => exact fate
  | cons operation rest ih => exact ih spare.2 (fate_after spare.1 fate)

end Operation

namespace Play

variable {value : Value} {written : Story}

theorem holds_setGlobal (done : setGlobal name value story = .ok () written) :
    written.state.global? name =
        some (value.replacing (story.state.globals.stored? story.state.patch name)) ∧
      written.snapshot = story.snapshot := by
  obtain ⟨_, _, ⟨rfl, rfl⟩, done⟩ := bind_eq_ok_iff.mp done
  obtain ⟨changed, middle, declared, done⟩ := bind_eq_ok_iff.mp done
  unfold setDeclared at declared
  split at declared
  · cases declared
    cases done
    exact ⟨(get?_set name name value).trans (if_pos rfl), rfl⟩
  · cases declared

/-- A value that the host gives to a global stays until the next write, unless the story is looking
ahead then. In that case it stays if the story settles for what it did, and the earlier value comes
back if the story goes back. -/
theorem setGlobal_lasts_unless_rewound (done : setGlobal name value story = .ok () written)
    {operations : List Operation} (spare : AllSpare name operations written) :
    ∃ kept, (kept = value ∨ ∃ items lists, items.isEmpty = true ∧ value = .list items ∧
        kept = .list { items with remembered := lists }) ∧
      (story.snapshot = none →
        (afterAll operations written).state.global? name = some kept) ∧
      ∀ snapshot, story.snapshot = some snapshot →
        (afterAll operations written).Fate name (some kept) (snapshot.global? name) := by
  obtain ⟨live, same⟩ := holds_setGlobal done
  refine ⟨value.replacing (story.state.globals.stored? story.state.patch name),
    value.replacing_eq _, fun settled => ?_, fun snapshot pending => ?_⟩
  · refine (fate_afterAll spare (.lasting ⟨live, fun _ pending => ?_⟩)).holds_of_eq.state
    simp [same, settled] at pending
  · refine fate_afterAll spare (.undecided ⟨live, fun other there => ?_⟩)
    rw [same, pending, Option.some.injEq] at there
    rw [there]

/-- Two lines, and a global that the story never assigns. -/
@[irreducible]
def twoLines : Story where
  program :=
    { root := .mk none {}
        [.content (.ofText "Hello"), .content (.ofText "\n"), .content (.ofText "World"),
          .content (.ofText "\n"), .content (.command .done)] [] }
  config := {}
  state :=
    { globals := { values := .single "mood" (.int 5), defaults := some (.single "mood" (.int 5)) } }

theorem setGlobal_lasts_in_a_line :
    ∃ written, setGlobal "mood" (.int 7) (Operation.afterAll [.nextSteps 0] twoLines) =
        .ok () written ∧ written.inLine = true ∧
      (Operation.afterAll [.nextLine] written).state.global? "mood" = some (.int 7) := by
  obtain ⟨written, done, unfinished, spare⟩ :
      ∃ written, setGlobal "mood" (.int 7) (Operation.afterAll [.nextSteps 0] twoLines) =
        .ok () written ∧ written.inLine = true ∧ AllSpare "mood" [.nextLine] written := by
    decide +kernel
  have settled : (Operation.afterAll [.nextSteps 0] twoLines).snapshot.isNone = true := by
    decide +kernel
  obtain ⟨kept, stored, lasting, -⟩ := setGlobal_lasts_unless_rewound done spare
  obtain rfl : kept = .int 7 := by simpa using stored
  exact ⟨written, done, unfinished, lasting (Option.isNone_iff_eq_none.mp settled)⟩

/-- While a line looks ahead, the end of the line can undo what the host writes. -/
theorem setGlobal_lost_by_rewinding :
    ∃ written, setGlobal "mood" (.int 7) (Operation.afterAll [.nextSteps 0, .nextSteps 0] twoLines) =
        .ok () written ∧ AllSpare "mood" [.nextLine] written ∧
      (Operation.afterAll [.nextLine] written).inLine = false ∧
      (Operation.afterAll [.nextLine] written).state.global? "mood" = some (.int 5) := by
  decide +kernel

end Play

end InkStory
