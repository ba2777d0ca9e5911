import InkStory.Proofs.ItemOrder
import InkStory.Proofs.MatchingRuns

/-! # Stories that cannot be told apart

Stories match whose states do, those at the end of a line too, and whose hosts answer alike. In such
stories steps, lines and operations of the host do the same. -/

namespace InkStory

open Agrees Run

variable {other story : Story} {mode : Comparison} {state next : State}

/-- Functions of the host that answer alike from now on. -/
structure Binding.Matches (binding other : Binding) : Prop where
  lookaheadSafe : binding.lookaheadSafe = other.lookaheadSafe
  answers : ∀ calls arguments, binding.function (calls ++ binding.history) arguments =
    other.function (calls ++ other.history) arguments

theorem Binding.Matches.note {binding other : Binding} (same : binding.Matches other)
    (call : HostCall) : (binding.note call).Matches (other.note call) where
  lookaheadSafe := same.lookaheadSafe
  answers calls arguments := by
    have answers := same.answers (calls ++ [call]) arguments
    simpa [Binding.note] using answers

/-- Within a line it counts whether a story stopped where it is meant to. -/
def Comparison.within (mode : Comparison) : Comparison := { mode with exiting := True }

theorem State.Matches.exits {other : State} (same : Matches mode state other) {exiting : Prop}
    (exits : exiting → state.exitedSafely = other.exitedSafely) :
    Matches { mode with exiting := exiting } state other :=
  { same with
    globals := { same.globals with }
    exited := exits }

/-- Stories that cannot be told apart. -/
structure Story.Matches (mode : Comparison) (story other : Story) : Prop where
  program : story.program = mode.program
  otherProgram : other.program = mode.program
  config : story.config = other.config
  state : State.Matches mode story.state other.state
  snapshot : Option.Rel (State.Matches mode.within) story.snapshot other.snapshot
  bindings : ∀ name,
    Option.Rel Binding.Matches (story.bindings.get? name) (other.bindings.get? name)
  /-- The functions of the host are looked for once, in both stories or with success. -/
  checked : story.bindingsChecked = other.bindingsChecked ∨
    mode.bound ∧ story.missingFunctions = []
  inLine : story.inLine = other.inLine
  callDeferred : story.callDeferred = other.callDeferred
  saving : mode.lockstep → story.isSaving = other.isSaving
  observers : mode.verbatim →
    story.observers = other.observers ∧ story.nextObserver = other.nextObserver
  journal : mode.verbatim → ∃ events,
    story.journal = mode.journal ++ events ∧ other.journal = mode.otherJournal ++ events

theorem Story.missingFunctions_congr (program : story.program = other.program)
    (config : story.config = other.config)
    (bindings : ∀ name, story.bindings.contains name = other.bindings.contains name) :
    story.missingFunctions = other.missingFunctions := by
  unfold Story.missingFunctions Story.hasFunctionFor
  simp only [program, config, bindings]

theorem ItemSet.distinct_eq_nil_iff {names : List String} :
    ItemSet.distinct names = [] ↔ names = [] := by
  simp only [List.eq_nil_iff_forall_not_mem, mem_distinct]

theorem Story.missingFunctions_eq_nil_iff :
    story.missingFunctions = [] ↔
      ∀ function ∈ story.program.externals, story.hasFunctionFor function := by
  unfold missingFunctions
  rw [ItemSet.distinct_eq_nil_iff, List.filter_eq_nil_iff]
  simp only [Bool.not_eq_true', Bool.not_eq_false]

/-- Functions that were found are there as long as none is taken away. -/
theorem Story.Retains.missingFunctions {after : Story} (retains : Retains story after)
    (found : story.missingFunctions = []) : after.missingFunctions = [] := by
  rw [missingFunctions_eq_nil_iff] at found ⊢
  intro function called
  rw [retains.program] at called
  have known := found function called
  unfold hasFunctionFor at known ⊢
  rw [retains.program, retains.config]
  rw [Bool.or_eq_true] at known ⊢
  exact known.imp_left (retains.bindings function)

theorem isSome_eq_of_rel {α : Type u} {β : Type v} {related : α → β → Prop} {first : Option α}
    {second : Option β} (rel : Option.Rel related first second) : first.isSome = second.isSome := by
  cases rel <;> rfl

namespace Story.Matches

section

variable (same : Matches mode story other)

include same

theorem canContinue : story.canContinue = other.canContinue := same.state.canContinue

theorem text : story.text = other.text :=
  same.state.output.text

theorem tags : story.tags = other.tags :=
  same.state.output.tags

theorem contains_bindings (name : String) :
    story.bindings.contains name = other.bindings.contains name :=
  isSome_eq_of_rel (same.bindings name)

theorem missingFunctions : story.missingFunctions = other.missingFunctions :=
  missingFunctions_congr (same.program.trans same.otherProgram.symm) same.config
    same.contains_bindings

/-- Whatever is done to both states, the stories match as the states do. -/
theorem withState (sameState : State.Matches mode state next) :
    Matches mode { story with state := state } { other with state := next } :=
  { same with state := sameState }

theorem close (sameState : State.Matches mode state next) :
    Matches mode { story with inLine := false, callDeferred := false, state := state }
      { other with inLine := false, callDeferred := false, state := next } :=
  { same with state := sameState, inLine := rfl, callDeferred := rfl }

/-! ### Looking ahead -/

theorem workOutText : Matches mode story.workOutText other.workOutText :=
  { same with
    state := { same.state with output := same.state.output.known }
    snapshot := by
      have snapshot := same.snapshot
      unfold Story.workOutText
      generalize story.snapshot = first at snapshot
      generalize other.snapshot = second at snapshot
      cases snapshot with
      | none => exact .none
      | some sameSnapshot => exact .some { sameSnapshot with output := sameSnapshot.output.known } }

theorem changeSince {snapshot otherSnapshot : State}
    (sameSnapshot : State.Matches mode.within snapshot otherSnapshot) :
    story.changeSince snapshot = other.changeSince otherSnapshot := by
  unfold Story.changeSince
  rw [sameSnapshot.output.text, sameSnapshot.output.tags, same.text, same.tags]

theorem takeSnapshot (exiting : mode.exiting) :
    Matches mode story.takeSnapshot other.takeSnapshot :=
  { same with
    state := same.state.startPatch
    snapshot := .some (same.state.exits fun _ => same.state.exited exiting) }

/-- The writes of patches are made in both stories, or need not be at the same times. -/
theorem settle : Matches mode story.settle other.settle := by
  have settled (story : Story) (saving : Bool) (free : story.isSaving = saving) :
      story.settle = if saving then story else { story with state := story.state.applyPatch } := by
    unfold Story.settle
    rw [free]
  by_cases lockstep : mode.lockstep
  · rw [settled story _ (same.saving lockstep)]
    exact related_ite same { same with state := same.state.applyPatch }
  · unfold Story.settle
    split <;> split
    · exact same
    · exact { same with state := same.state.applyPatch_right lockstep }
    · exact { same with state := same.state.applyPatch_left lockstep }
    · exact { same with state := same.state.applyPatch }

theorem rewind : Matches mode story.rewind other.rewind := by
  have snapshot := same.snapshot
  unfold Story.rewind
  generalize story.snapshot = first at snapshot
  generalize other.snapshot = second at snapshot
  cases snapshot with
  | none => exact same
  | some sameSnapshot =>
    have sameState : State.Matches mode _ _ :=
      sameSnapshot.exits fun _ => sameSnapshot.exited trivial
    exact settle { same with
      snapshot := .none
      state := { sameState with errors := same.state.errors, warnings := same.state.warnings } }

theorem keepLookahead : Matches mode story.keepLookahead other.keepLookahead :=
  { same.settle with snapshot := .none }

theorem notify {changes others : List (String × Value)}
    (sameChanges : mode.verbatim → changes = others) :
    Matches mode (story.notify changes) (other.notify others) :=
  { same with
    journal verbatim := by
      obtain ⟨events, first, second⟩ := same.journal verbatim
      simp only [Story.notify, (same.observers verbatim).1, sameChanges verbatim, first, second,
        List.append_assoc]
      exact ⟨_, rfl, rfl⟩ }

end

end Story.Matches

/-! ### Calls of the host's functions -/

namespace Play

open Story

/-- An operation does the same in stories that match. -/
abbrev Blind (mode : Comparison) (play : Play α) : Prop :=
  Respects (Matches mode) play

theorem agrees_onState {first second : Run α} (same : Matches mode story other)
    (agrees : Agrees Eq (State.Matches mode) (first story.state) (second other.state)) :
    Agrees Eq (Matches mode) (onState first story) (onState second other) := by
  rw [onState_apply, onState_apply]
  generalize first story.state = reached at agrees
  generalize second other.state = matched at agrees
  cases agrees with
  | ok answers left => exact .ok answers (same.withState left)
  | error error left => exact .error error (same.withState left)

theorem respects_onState {run : Run α} (respects : Run.Blind mode run) :
    Blind mode (onState run) := by
  intro story other same
  exact agrees_onState same (respects _ _ same.state)

theorem respects_modifyState {change : State → State}
    (respects : ∀ state next, State.Matches mode state next →
      State.Matches mode (change state) (change next)) :
    Blind mode (modifyState change) :=
  .modify fun _ _ same => same.withState (respects _ _ same.state)

theorem respects_fault (found : Fault) :
    Blind mode (fault found : Play α) := .throw _

theorem respects_callFallback (name : String) :
    Blind mode (callFallback name) := by
  refine .read (fun story other same => ?_) fun story => ?_
  · simp only [same.config, same.program, same.otherProgram]
  · dsimp only
    split
    · exact .throw_bind _
    · split
      · exact .bind (respects_onState (respects_pushFrame _)) fun _ =>
          respects_modifyState fun _ _ same => { same with diverted := rfl }
      · exact respects_fault _

theorem respects_popArguments (name : String) (count : Nat) :
    Run.Blind mode (popArguments name count) :=
  .bind (respects_popMany count) fun _ => respects_ofFault _

theorem noted_bindings (same : Matches mode story other) (call : HostCall) (name : String) :
    Option.Rel Binding.Matches ((story.bindings.map (Binding.note call)).get? name)
      ((other.bindings.map (Binding.note call)).get? name) := by
  have bindings := same.bindings name
  unfold Table.map
  rw [Table.get?_mapWithKey, Table.get?_mapWithKey]
  generalize story.bindings.get? name = first at bindings
  generalize other.bindings.get? name = second at bindings
  cases bindings with
  | none => exact .none
  | some sameBinding => exact .some (sameBinding.note call)

theorem agrees_callBinding (same : Matches mode story other) (name : String)
    {binding next : Binding} (sameBinding : binding.Matches next) (arguments : List Value) :
    Agrees Eq (Matches mode) (callBinding name binding arguments story)
      (callBinding name next arguments other) := by
  have answer : binding.answer arguments = next.answer arguments :=
    sameBinding.answers [] arguments
  unfold callBinding
  rw [answer]
  have called : Matches mode
      { story with
        bindings := story.bindings.map (Binding.note ⟨name, arguments⟩)
        journal := story.journal ++ [.called ⟨name, arguments⟩] }
      { other with
        bindings := other.bindings.map (Binding.note ⟨name, arguments⟩)
        journal := other.journal ++ [.called ⟨name, arguments⟩] } :=
    { same with
      bindings := noted_bindings same _
      checked := by
        refine same.checked.imp_right fun ⟨bound, found⟩ => ⟨bound, ?_⟩
        rw [← found]
        exact missingFunctions_congr rfl rfl fun _ => Table.contains_map _ _ _
      journal verbatim := by
        obtain ⟨events, first, second⟩ := same.journal verbatim
        simp only [first, second, List.append_assoc]
        exact ⟨_, rfl, rfl⟩ }
  cases next.answer arguments with
  | error reason => exact respects_fault _ _ _ called
  | ok answer =>
    cases answer with
    | some value => exact respects_onState (respects_pushValue value) _ _ called
    | none => exact respects_onState (respects_push .void) _ _ called

theorem respects_callHost (name : String) (count : Nat) :
    Blind mode (callHost name count) := by
  intro story other same
  apply get_bind
  have bindings := same.bindings name
  generalize story.bindings.get? name = first at bindings
  generalize other.bindings.get? name = second at bindings
  cases bindings with
  | none => exact respects_callFallback name story other same
  | some sameBinding =>
    dsimp only
    rw [sameBinding.lookaheadSafe, isSome_eq_of_rel same.snapshot]
    split
    · exact .ok rfl { same with callDeferred := rfl }
    · exact (respects_onState (respects_popArguments name count) story other same).andThen
        fun arguments _ _ same => agrees_callBinding same name sameBinding arguments

/-! ### Steps -/

/-- The object that stands at a place does the same, if it assigns only globals that are there. -/
theorem agrees_evaluate (same : Matches mode story other) (place : Place)
    {content : Content}
    (allowed : mode.lockstep ∨ ∀ name,
      story.state.assigned? mode.program content = some name →
        story.state.globals.values.contains name) :
    AgreesOn (Matches mode) (evaluate place content) story other := by
  apply get_bind
  rw [same.program, same.otherProgram]
  have performed := agrees_onState same (agrees_performContent place same.state allowed)
  refine performed.andThen fun request story other same => ?_
  have finished : Blind mode
      (onState (finishContent mode.program place content)) :=
    respects_onState (respects_finishContent place content)
  cases request with
  | none => exact finished story other same
  | some request =>
    exact (respects_callHost request.function request.arguments story other same).andThen
      fun _ story other same => finished story other same

/-- A step does the same in stories that match, if it assigns only globals that are there. -/
theorem agrees_step (same : Matches mode story other)
    (allowed : mode.lockstep ∨ ∀ name, story.assigned? = some name →
      story.state.globals.values.contains name) :
    AgreesOn (Matches mode) step story other := by
  apply get_bind
  apply get_bind
  rw [same.program, same.otherProgram]
  cases standing : story.state.pointer with
  | none =>
    rw [← same.state.pointer, standing]
    exact .pure rfl same
  | some start =>
    rw [← same.state.pointer, standing]
    have descended := same.withState (same.state.descend mode.program start)
    apply modify_bind
    apply get_bind
    unfold Story.modifyState
    rw [← descended.state.pointer]
    cases reached : (story.state.descend mode.program start).pointer with
    | none => exact .pure rfl descended
    | some pointer =>
      dsimp only
      cases object : mode.program.objectAt? pointer with
      | none => exact .modify (descended.withState descended.state.moveOn)
      | some found =>
        refine agrees_evaluate descended found.1 (allowed.imp_right fun there name target => ?_)
        rw [(State.counted_descend ..).eq]
        apply there
        unfold Story.assigned?
        simp only [standing, same.program, Option.bind_some, reached, object]
        exact target

theorem respects_followInvisibleChoice :
    Blind mode followInvisibleChoice := by
  intro story other same
  apply get_bind
  have choices := same.state.choices
  have hidden : story.state.choices.all Choice.isInvisible =
      other.state.choices.all Choice.isInvisible := by
    apply all_eq_of_forall₂ choices
    intro choice next sameChoice
    exact sameChoice.isInvisible
  rw [hidden, same.program, same.otherProgram, isSome_eq_of_rel same.snapshot]
  generalize story.state.choices = first at choices
  generalize other.state.choices = second at choices
  cases choices with
  | nil => exact .pure rfl same
  | cons sameChoice _ =>
    dsimp only
    split
    · rw [sameChoice.target]
      have taken := same.state.take sameChoice
      refine modify_bind (respects_onState (respects_choosePath _ _) _ _ ?_)
      exact same.withState (related_ite
        { taken with callStack := taken.callStack.renumber } taken)
    · exact .pure rfl same

/-- In stories that match, the line is compared alike with the one at the newline. -/
theorem respects_compareWithSnapshot :
    Blind mode compareWithSnapshot := by
  intro story other same
  apply modify_bind
  apply get_bind
  have same := same.workOutText
  generalize story.workOutText = story at same
  generalize other.workOutText = other at same
  have snapshot := same.snapshot
  cases first : story.snapshot <;> cases second : other.snapshot <;> rw [first, second] at snapshot
  · exact .pure rfl same
  · contradiction
  · contradiction
  · cases snapshot with
    | some sameSnapshot =>
      dsimp only
      rw [same.changeSince sameSnapshot, same.callDeferred]
      split
      · exact .ok rfl same.rewind
      · split
        · exact .ok rfl same.keepLookahead
        · exact .pure rfl same

theorem respects_markNewline (exiting : mode.exiting) :
    Blind mode markNewline := by
  refine .modify fun story other same => ?_
  rw [same.state.output.endsInNewline, same.canContinue]
  refine related_ite same (related_ite same.keepLookahead ?_)
  have pending := isSome_eq_of_rel same.snapshot
  rw [← Option.not_isSome, ← Option.not_isSome, pending]
  exact related_ite (same.takeSnapshot exiting) same

theorem respects_leaveDeadEnd : Blind mode leaveDeadEnd := by
  refine .read (fun story other same => ?_) fun story => ?_
  · simp only [same.state.canContinue, same.state.callStack.inHostCall]
  · dsimp only
    split
    · exact respects_followInvisibleChoice
    · exact .pure _

theorem respects_checkLine (exiting : mode.exiting) :
    Blind mode checkLine := by
  refine .read (fun story other same => ?_) fun story => ?_
  · rw [same.state.output.inString, isSome_eq_of_rel same.snapshot]
  · dsimp only
    split
    · exact .pure _
    · split
      · refine .bind respects_compareWithSnapshot fun wentBack => ?_
        split
        · exact .pure _
        · exact .bind (respects_markNewline exiting) fun _ => .pure _
      · exact .bind (respects_markNewline exiting) fun _ => .pure _

theorem agrees_singleStep (same : Matches mode story other)
    (exiting : mode.exiting)
    (allowed : mode.lockstep ∨ ∀ name, story.assigned? = some name →
      story.state.globals.values.contains name) :
    AgreesOn (Matches mode) singleStep story other := by
  refine (agrees_step same allowed).andThen fun _ story other same => ?_
  refine (respects_leaveDeadEnd story other same).andThen fun _ story other same => ?_
  exact respects_checkLine exiting story other same

theorem agrees_reportFailure {play : Play Bool}
    (agrees : Agrees Eq (Matches mode) (play story) (play other)) :
    AgreesOn (Matches mode) (reportFailure play) story other := by
  unfold AgreesOn reportFailure
  generalize play story = first at agrees
  generalize play other = second at agrees
  cases agrees with
  | ok answers left => exact .ok answers left
  | error error left =>
    refine .ok rfl (left.withState ?_)
    rw [left.program, left.otherProgram]
    exact left.state.fail _ _

end Play

end InkStory
