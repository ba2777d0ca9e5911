import InkStory.Proofs.Actions
import InkStory.Proofs.FailedLoad
import InkStory.Proofs.PartialLines

/-! # Operations and lines

An operation of the host evaluates lines and does something else between them. What whole lines keep,
every operation keeps that evaluates no part of a line (`Operation.steady_perform`). -/

namespace InkStory

open Run

variable {story : Story} {operation : Operation} {program : Program} {holds : Story → Prop}

variable {state after : State} {limits : Limits}

namespace Story

theorem snapshot_settle (story : Story) : story.settle.snapshot = story.snapshot := by
  unfold settle
  split <;> rfl

theorem snapshot_rewind (story : Story) : story.rewind.snapshot = none := by
  unfold rewind
  split
  · assumption
  · exact snapshot_settle _

end Story

/-- The evaluation of lines stands where it stood: whether a line is evaluated, what the story may go
back to, whether a call was put off, and whether changes are noted. No change outside of lines is
left to be told, if none was. -/
structure Story.SameLine (story after : Story) : Prop where
  inLine : after.inLine = story.inLine
  snapshot : after.snapshot = story.snapshot
  deferred : after.callDeferred = story.callDeferred
  batch : after.state.globals.batch.isSome = story.state.globals.batch.isSome
  told : story.state.globals.unbatched = [] → after.state.globals.unbatched = []

theorem State.Alters.batch_isSome (change : Alters program limits state after) :
    after.globals.batch.isSome = state.globals.batch.isSome := by
  cases change with
  | visit visits => rw [(counted_visitAll program state visits).eq]
  | write name value =>
    cases patched : state.patch <;> cases begun : state.globals.batch <;>
      simp [State.write, Globals.set, patched, begun]
  | _ => rfl

theorem State.batch_applyPatch (state : State) :
    state.applyPatch.globals.batch.isSome = state.globals.batch.isSome := by
  unfold applyPatch
  split
  · rfl
  · simp [Globals.applyPatch]

theorem State.unbatched_applyPatch (state : State) :
    state.applyPatch.globals.unbatched = state.globals.unbatched := by
  unfold applyPatch
  split <;> rfl

/-- Within lines, or where nothing is written, no change is left to be told by itself. -/
theorem State.Alters.unbatched (change : Alters program limits state after)
    (within : state.globals.batch.isSome ∨ ∀ name, ¬limits.writable name) :
    after.globals.unbatched = state.globals.unbatched := by
  cases change with
  | visit visits => rw [(counted_visitAll program state visits).eq]
  | write name value allowed =>
    rcases within with noted | silent
    · obtain ⟨batch, begun⟩ := Option.isSome_iff_exists.mp noted
      cases patched : state.patch <;> simp [State.write, Globals.set, patched, begun]
    · exact absurd allowed (silent name)
  | _ => rfl

theorem Story.sameLine_of_changes
    (changes : State.Changes program (fun _ => False) story.state state) :
    story.SameLine { story with state := state } := by
  refine ⟨rfl, rfl, rfl, ?_, ?_⟩
  · dsimp only
    induction changes with
    | refl => rfl
    | tail _ change ih => exact change.batch_isSome.trans ih
  · dsimp only
    intro told
    induction changes with
    | refl => exact told
    | tail _ change ih => exact (change.unbatched (.inr fun _ => id)).trans ih

theorem Story.sameLine_written (name : String) (value : Value) (story : Story) :
    story.SameLine (story.written name value) := by
  have change : State.Change story.program (fun _ => True) story.state
      (story.state.write name value) := .write name value trivial
  exact ⟨rfl, rfl, rfl, change.batch_isSome, fun _ => rfl⟩

theorem Story.sameLine_endSaving (story : Story) :
    story.SameLine
      { story with
        state := if story.snapshot.isNone then story.state.applyPatch else story.state
        isSaving := false } := by
  refine ⟨rfl, rfl, rfl, ?_, ?_⟩
  all_goals
    split
  · exact State.batch_applyPatch story.state
  · rfl
  · exact (State.unbatched_applyPatch story.state).trans
  · exact id

namespace Play

open Story

variable {value : Value} {config : Config}

/-! ### What is kept between lines -/

/-- What holds of a story depends on the evaluation of lines only, and is kept by whole lines and
where the host replaces the state between lines. -/
structure Steady (holds : Story → Prop) : Prop where
  congr : ∀ {story after : Story}, story.SameLine after → holds story → holds after
  wholeLine : ∀ story, Keeps (· = .endless) holds wholeLine story
  replace : ∀ (story : Story) {state : State}, story.inLine = false →
    (state.globals.batch.isSome → story.state.globals.batch.isSome) →
    (story.state.globals.unbatched = [] → state.globals.unbatched = []) → holds story →
    holds { story with state := state, snapshot := none }

namespace Steady

variable (steady : Steady holds)

include steady

theorem onState {run : Run α}
    (changing : Changing story.program (fun _ => False) run story.state) :
    Keeps (· = .endless) holds (onState run) story := by
  unfold Changing Leads at changing
  intro start _
  rw [onState_apply]
  cases outcome : run story.state <;> rw [outcome] at changing <;>
    exact steady.congr (sameLine_of_changes changing) start

theorem parts (unbinds : Prop) :
    KeptInParts (· = .endless) (fun _ => True) unbinds holds where
  wholeLine _ := steady.wholeLine _
  setUp setsUp := by
    cases setsUp
    exact steady.congr ⟨rfl, rfl, rfl, rfl, id⟩
  choosePath _ _ := steady.onState (changing_choosePath _ _)
  passArguments _ := steady.onState (calm_passArguments _).changing
  take _ := steady.congr ⟨rfl, rfl, rfl, rfl, id⟩
  forceEnd := steady.congr ⟨rfl, rfl, rfl, rfl, id⟩
  forgetReports := steady.congr ⟨rfl, rfl, rfl, rfl, id⟩
  startSaving _ _ := steady.congr ⟨rfl, rfl, rfl, rfl, id⟩
  endSaving := steady.congr (sameLine_endSaving _)

theorem behind : KeptInDeclarations holds :=
  ⟨steady.congr ⟨rfl, rfl, rfl, rfl, id⟩, steady.congr ⟨rfl, rfl, rfl, rfl, id⟩⟩

theorem load (text : String) : Keeps (· = .endless) holds (load text) story := by
  refine .atLineEnd fun complete => .get_bind ?_
  intro start _
  simp only [bind_apply, onState_apply]
  obtain ⟨batch, unbatched⟩ := notes_load story.program text story.state
  cases outcome : Run.load story.program text story.state with
  | ok value state =>
    rw [outcome, leaves] at batch unbatched
    refine steady.replace story complete (fun noted => ?_) unbatched.trans start
    rwa [batch] at noted
  | error error state =>
    rw [outcome] at batch unbatched
    have same : story.SameLine { story with state := state } :=
      ⟨rfl, rfl, rfl, congrArg Option.isSome batch, unbatched.trans⟩
    exact steady.congr same start

end Steady

theorem inLine_wholeLine {value : Unit} {after : Story} (done : wholeLine story = .ok value after) :
    after.inLine = false := by
  obtain ⟨_, _, -, done⟩ := bind_eq_ok_iff.mp done
  obtain ⟨complete, _, -, done⟩ := bind_eq_ok_iff.mp done
  cases complete with
  | true =>
    cases done
    rfl
  | false => contradiction

/-- A story begins between lines. -/
theorem inLine_start (started : start program config = .ok story) : story.inLine = false := by
  have declared := declares_of_start started
  unfold declareGlobals at declared
  rw [get_bind_apply] at declared
  split at declared
  · obtain ⟨_, _, -, declared⟩ := bind_eq_ok_iff.mp declared
    obtain ⟨_, _, line, declared⟩ := bind_eq_ok_iff.mp declared
    obtain ⟨_, _, moved, declared⟩ := bind_eq_ok_iff.mp declared
    have ended := inLine_wholeLine line
    cases moved
    cases declared
    exact ended
  · cases declared
    rfl

end Play

namespace Play

variable {ready start : Story} {index : Nat} {choice : Choice} {value : Unit}

theorem checkBindings_apply (story : Story) :
    checkBindings story =
      if story.missingFunctions.isEmpty then .ok () { story with bindingsChecked := true }
      else
        .error (.runtime (.missingBindings story.missingFunctions story.config.allowFallbacks))
          story := by
  simp only [checkBindings, bind_apply, get_apply]
  cases story.missingFunctions.isEmpty <;> rfl

/-- What the host's choice does to the state. -/
def takeUp (program : Program) (choice : Choice) : Run Unit := do
  modify fun state => state.take choice
  choosePath program choice.target true

theorem choose_listed (listed : story.state.visibleChoices[index]? = some choice) :
    choose index story = onState (takeUp story.program choice) story := by
  simp only [choose, bind_apply, get_apply, listed, modifyState_apply, onState_apply, takeUp,
    modify_apply]

theorem changing_take {writable : String → Prop}
    (listed : story.state.visibleChoices[index]? = some choice) :
    Changing story.program writable (takeUp story.program choice) story.state :=
  .bind (.modify (.single (.take choice (State.mem_choices_of_visible listed)))) fun _ _ _ =>
    changing_choosePath _ _

/-- Bindings are checked once, which leaves the story as it is but for the mark of it. -/
theorem requireBindings_apply (story : Story) :
    requireBindings story =
      if story.bindingsChecked || story.missingFunctions.isEmpty then
        .ok () { story with bindingsChecked := true }
      else
        .error (.runtime (.missingBindings story.missingFunctions story.config.allowFallbacks))
          story := by
  simp only [requireBindings, bind_apply, get_apply, ite_run, checkBindings_apply]
  cases checked : story.bindingsChecked with
  | false => rfl
  | true =>
    have marked : { story with bindingsChecked := true } = story := by rw [← checked]
    rw [marked]
    rfl

theorem eq_of_requireBindings (required : requireBindings story = .ok value ready) :
    ready = { story with bindingsChecked := true } := by
  rw [requireBindings_apply] at required
  split at required
  · cases required
    rfl
  · contradiction

/-- A line begins, or goes on where it was left, unless the story cannot go on. -/
theorem beginLine_apply (partly : Bool) (story : Story) :
    beginLine partly story =
      if story.inLine then .ok () { story with inLine := partly }
      else if story.canContinue then .ok () (story.begin partly)
      else .error .cannotContinue story := by
  unfold beginLine
  rw [bind_apply, get_apply]
  dsimp only
  split
  · rfl
  · cases story.canContinue <;> rfl

theorem beginLine_eq_ok {partly : Bool} (begun : beginLine partly story = .ok value start) :
    story.inLine ∧ start = { story with inLine := partly } ∨
      story.inLine = false ∧ story.canContinue ∧ start = story.begin partly := by
  rw [beginLine_apply] at begun
  split at begun
  · next unfinished =>
    cases begun
    exact .inl ⟨unfinished, rfl⟩
  · next complete =>
    split at begun
    · next goesOn =>
      cases begun
      exact .inr ⟨by simpa using complete, goesOn, rfl⟩
    · contradiction

end Play

namespace Operation

open Play

variable {after : Story}

/-- An operation that evaluates a line, or a part of one. -/
def continues : Operation → Bool
  | .nextLine | .nextSteps _ => true
  | _ => false

/-- A line takes its steps from where it begins or goes on, and then it ends or is left
unfinished. -/
theorem line_of_perform (continues : operation.continues)
    (run : operation.perform story = .ok () after) :
    ∃ partly more ready start ended last, requireBindings story = .ok () ready ∧
      beginLine partly ready = .ok () start ∧ operation.steps story = stepsFrom more start ∧
      runSteps more start = .ok ended last ∧ after = (if ended then last.endLine else last) ∧
      ended = !after.inLine := by
  cases operation with
  | nextLine =>
    obtain ⟨_, _, next, done⟩ := bind_eq_ok_iff.mp run
    cases done
    obtain ⟨_, ready, required, rest⟩ := bind_eq_ok_iff.mp next
    obtain ⟨_, _, line, done⟩ := bind_eq_ok_iff.mp rest
    cases done
    obtain ⟨_, start, begun, rest⟩ := bind_eq_ok_iff.mp line
    obtain ⟨ended, last, ran, finished⟩ := bind_eq_ok_iff.mp rest
    cases ended with
    | false => contradiction
    | true =>
      cases finished
      refine ⟨false, stepLimit, ready, start, true, last, required, begun, ?_, ran, rfl, rfl⟩
      simp only [steps, lineSteps, begunSteps, required, begun]
  | nextSteps more =>
    obtain ⟨_, ready, required, line⟩ := bind_eq_ok_iff.mp run
    obtain ⟨_, start, begun, rest⟩ := bind_eq_ok_iff.mp line
    obtain ⟨ended, last, ran, finished⟩ := bind_eq_ok_iff.mp rest
    refine ⟨true, more, ready, start, ended, last, required, begun, ?_, ran, ?_⟩
    · simp only [steps, lineSteps, begunSteps, required, begun]
    · cases ended with
      | true =>
        cases finished
        exact ⟨rfl, rfl⟩
      | false =>
        cases finished
        have unfinished : start.inLine := by
          obtain ⟨-, rfl⟩ | ⟨-, -, rfl⟩ := beginLine_eq_ok begun <;> rfl
        rw [(marks_runSteps ran).1, unfinished]
        exact ⟨rfl, rfl⟩
  | _ => contradiction

/-- What an operation does to a story within a line, besides going on with the line. -/
inductive Aside (story : Story) : Operation → Story → Prop where
  /-- It is refused. -/
  | refused {operation : Operation} (error : Error)
      (failed : operation.perform story = .error error story) : Aside story operation story
  | checkBindings : Aside story .checkBindings { story with bindingsChecked := true }
  | choose {index : Nat} {state : State}
      (changed : State.Changes story.program (fun _ => False) story.state state) :
      Aside story (.choose index) { story with state := state }
  | setGlobal {name : String} (value : Value)
      (declared : (story.state.globals.default? name).isSome = true) :
      Aside story (.setGlobal name value) (story.written name value)
  | forgetReports : Aside story .forgetReports (story.modifyState State.forgetReports)
  | endBackgroundSave :
      Aside story .endBackgroundSave
        { story with
          state := if story.snapshot.isNone then story.state.applyPatch else story.state
          isSaving := false }

theorem aside_of_unfinished (pauses : operation.continues = false) (unfinished : story.inLine) :
    Aside story operation (operation.after story) := by
  have refused {α : Type} (activity : String) (next : Unit → Play α) :
      (requireLineEnd activity >>= next) story = .error (.lineUnfinished activity) story := by
    rw [bind_apply, requireLineEnd_apply, unfinished, if_pos rfl]
  have fails {operation : Operation} (error : Error)
      (failed : operation.perform story = .error error story) :
      Aside story operation (operation.after story) := by
    rw [after, failed]
    exact .refused error failed
  have failsToo {α : Type} {play : Play α} {error : Error}
      (failed : play story = .error error story) :
      (do let _ ← play : Play Unit) story = .error error story := by
    rw [bind_apply, failed]
  cases operation with
  | nextLine | nextSteps => contradiction
  | allLines | observe | removeObserver | startBackgroundSave =>
    exact fails _ (failsToo (refused _ _))
  | goTo | bind | bindAll | unbind | reset | resetCallStack | load => exact fails _ (refused _ _)
  | callFunction name arguments =>
    have entering : enterCall name arguments story = .error _ story := refused _ _
    have calling : Play.callFunction name arguments story =
        .error (.lineUnfinished "evaluate a function") story := by
      simp only [Play.callFunction, bind_apply, get_apply, entering]
    exact fails _ (failsToo calling)
  | forgetReports => exact .forgetReports
  | endBackgroundSave => exact .endBackgroundSave
  | checkBindings =>
    rw [after, perform, checkBindings_apply]
    split
    · exact .checkBindings
    · next missing =>
      apply Aside.refused
      rw [perform, checkBindings_apply, if_neg missing]
  | choose index =>
    cases listed : story.state.visibleChoices[index]? with
    | none =>
      refine fails (.choiceOutOfRange index story.state.visibleChoices.length) ?_
      simp only [perform, Play.choose, bind_apply, get_apply, listed, throw_apply]
    | some choice =>
      have changes : Changing story.program (fun _ => False)
          (takeUp story.program choice) story.state := changing_take listed
      unfold Changing Leads at changes
      rw [after, perform, choose_listed listed, onState_apply]
      cases outcome : takeUp story.program choice story.state <;>
        rw [outcome] at changes <;> exact .choose changes
  | setGlobal name value =>
    by_cases declared : (story.state.globals.default? name).isSome
    · rw [after, perform, setGlobal_declared declared]
      exact .setGlobal value declared
    · refine fails (.undeclaredVariable name) ?_
      simp only [perform, Play.setGlobal, bind_apply, get_apply, Globals.setDeclared,
        if_neg declared, ofExcept_error]

end Operation

namespace Operation

open Play Story

/-- What whole lines keep, every operation keeps that evaluates no part of a line. -/
theorem steady_perform (steady : Steady holds) (whole : ∀ more, operation ≠ .nextSteps more) :
    Keeps (· = .endless) holds operation.perform story := by
  refine keeps_perform (steady.parts _) (fun _ _ => trivial) fun intervenes => ?_
  cases operation with
  | nextSteps more => exact absurd rfl (whole more)
  | callFunction name arguments =>
    exact .bind ((steady.parts False).callFunction (fun changing => steady.onState (changing _))
      (fun _ => steady.congr ⟨rfl, rfl, rfl, rfl, id⟩)
      (fun _ => steady.congr ⟨rfl, rfl, rfl, rfl, id⟩) fun _ _ => trivial) fun _ _ _ => .pure _
  | setGlobal name value => exact keeps_setGlobal (steady.congr (sameLine_written _ _ _))
  | reset =>
    refine (steady.parts False).reset steady.behind (fun complete => ?_) fun _ _ => trivial
    exact steady.replace _ complete nofun fun _ => rfl
  | load text => exact steady.load text
  | _ => contradiction

end Operation

end InkStory
