import InkStory.Proofs.CarryingOut
import InkStory.Proofs.FailedCalls
import InkStory.Proofs.FatalErrors
import InkStory.Proofs.HostWrites
import InkStory.Proofs.ProgramText

/-! # Dead ends

The player cannot take an invisible choice. Where a story has nothing more to evaluate and all of
its choices are invisible, it takes the first of them by itself. It looks for such a dead end behind
every step, unless the host waits for the running frame. No object that was read pushes a frame of
that kind, and there is content to evaluate where a story goes back to. Therefore a story that is
played from its beginning never stops at a dead end (`Operation.onCourse_afterAll`). -/

namespace InkStory

open List State

variable {program : Program} {story : Story} {text : String}

/-! ### Frames of the host -/

/-- The host waits for no frame of a thread. -/
def Thread.Unhosted (thread : Thread) : Prop := FrameKind.hostCall ∉ thread.frames.map Frame.kind

theorem Thread.unhosted_atStart : Thread.atStart.Unhosted := by
  unfold Unhosted
  decide

theorem Thread.unhosted_modifyAt {thread : Thread} {height : Nat} {change : Frame → Frame}
    (unhosted : thread.Unhosted) (keeps : ∀ frame, (change frame).kind = frame.kind) :
    (thread.modifyAt height change).Unhosted := by
  have kinds (frames : List Frame) :
      (frames.modify height change).map Frame.kind = frames.map Frame.kind := by
    refine ext_getElem? fun position => ?_
    simp only [getElem?_map, getElem?_modify]
    split <;> cases frames[position]? <;> simp [keeps]
  have frames := congrArg (map Frame.kind) (thread.frames_modifyAt height change)
  rw [kinds, map_reverse, map_reverse, reverse_inj] at frames
  rwa [Unhosted, frames]

namespace CallStack

variable {stack after : CallStack}

theorem Still.unhosted (still : stack.Still after) (unhosted : stack.current.Unhosted) :
    after.current.Unhosted := by
  have kinds := congrArg (map Frame.kind) still.frames
  rw [map_map, map_map] at kinds
  exact fun hosted => unhosted (kinds ▸ hosted)

theorem unhosted_setTemporary {name : String} {value : Value} {declare : Bool} {context : Context}
    (assigned : stack.setTemporary name value declare context = .ok after)
    (unhosted : stack.current.Unhosted) :
    after.current.Unhosted ∧ after.waiting = stack.waiting := by
  simp only [setTemporary] at assigned
  split at assigned
  · split at assigned
    · contradiction
    · cases assigned
      exact ⟨Thread.unhosted_modifyAt unhosted fun _ => rfl, rfl⟩
  · contradiction

end CallStack

/-- Anything may be done but to push frames for which the host waits. -/
abbrev Limits.unhosted : Limits := ⟨fun _ => True, (· ≠ .hostCall), True⟩

namespace State

/-- The host waits for no frame, and for none in which the story goes on behind a choice. -/
structure Unhosted (state : State) : Prop where
  current : state.callStack.current.Unhosted
  waiting : ∀ thread ∈ state.callStack.waiting, thread.Unhosted
  offered : ∀ choice ∈ state.choices, choice.thread.Unhosted

variable {state after : State}

theorem Unhosted.congr (unhosted : state.Unhosted) (stack : after.callStack = state.callStack)
    (choices : after.choices = state.choices) : after.Unhosted := by
  refine ⟨?_, ?_, ?_⟩
  · rw [stack]
    exact unhosted.current
  · rw [stack]
    exact unhosted.waiting
  · rw [choices]
    exact unhosted.offered

theorem unhosted_of_alone (current : state.callStack.current.Unhosted)
    (waiting : state.callStack.waiting = []) (choices : state.choices = []) : state.Unhosted := by
  refine ⟨current, ?_, ?_⟩
  · rw [waiting]
    exact forall_mem_nil _
  · rw [choices]
    exact forall_mem_nil _

theorem unhosted_forceEnd (state : State) : state.forceEnd.Unhosted :=
  unhosted_of_alone Thread.unhosted_atStart rfl rfl

theorem unhosted_atStart (config : Config) : (atStart config).Unhosted :=
  unhosted_of_alone Thread.unhosted_atStart rfl rfl

/-- Unless a frame of the host is pushed, there is none. -/
theorem Unhosted.alters (unhosted : state.Unhosted)
    (alters : Alters program .unhosted state after) : after.Unhosted := by
  obtain ⟨current, waiting, offered⟩ := unhosted
  cases alters with
  | emit content plain =>
    have still : state.callStack.Still (state.emit content).callStack := Output.still_push
    refine ⟨still.unhosted current, ?_, offered⟩
    rw [still.waiting]
    exact waiting
  | visit visits =>
    rw [(counted_visitAll program state visits).eq]
    exact ⟨current, waiting, offered⟩
  | dropChoices => exact ⟨current, waiting, forall_mem_nil _⟩
  | offer origin point choice holds thread =>
    refine ⟨current, waiting, fun other member => ?_⟩
    rcases mem_append.mp member with former | new
    · exact offered other former
    · rw [mem_singleton.mp new, thread]
      exact current
  | take choice there => exact unhosted_of_alone (offered choice there) rfl rfl
  | pushFrame kind stackHeight outputLength allowed =>
    exact ⟨not_mem_cons_of_ne_of_not_mem allowed.symm current, waiting, offered⟩
  | dropFrame =>
    refine ⟨?_, ?_, offered⟩ <;> dsimp only [CallStack.drop] <;> split
    · next next below beneath =>
      refine fun hosted => current (mem_cons_of_mem _ ?_)
      rw [beneath]
      exact hosted
    · exact current
    · exact waiting
    · exact waiting
  | pushThread =>
    exact ⟨current, forall_mem_cons.mpr ⟨current, waiting⟩, offered⟩
  | popThread =>
    refine ⟨?_, ?_, offered⟩ <;> dsimp only [CallStack.popThread] <;> split
    · next next others waits => exact waiting next (waits ▸ mem_cons_self)
    · exact current
    · next next others waits =>
      exact fun thread member => waiting thread (waits ▸ mem_cons_of_mem _ member)
    · exact waiting
  | forceEnd => exact unhosted_forceEnd state
  | temporary assigned =>
    obtain ⟨unhosted, same⟩ := CallStack.unhosted_setTemporary assigned current
    refine ⟨unhosted, ?_, offered⟩
    rw [same]
    exact waiting
  | stack | trim | endString | endTag | evaluating | point | advance | down | depart | divert | land | warn
  | beginTurn | draw | exitSafely | renumber | write => exact ⟨current, waiting, offered⟩

/-! ### Dead ends -/

/-- There is nothing to evaluate, and of the choices none is shown. -/
structure DeadEnd (state : State) : Prop where
  stopped : state.pointer = none
  offered : state.choices ≠ []
  hidden : ∀ choice ∈ state.choices, choice.isInvisible = true

theorem not_deadEnd_of_choices (none : state.choices = []) : ¬state.DeadEnd :=
  fun dead => dead.offered none

theorem not_deadEnd_of_pointer (stands : state.pointer.isSome) : ¬state.DeadEnd := by
  intro dead
  rw [dead.stopped] at stands
  contradiction

theorem pointer_of_canContinue (goesOn : state.canContinue) : state.pointer.isSome :=
  (Bool.and_eq_true_iff.mp goesOn).1

theorem DeadEnd.congr (dead : after.DeadEnd) (stack : after.callStack = state.callStack)
    (choices : after.choices = state.choices) : state.DeadEnd where
  stopped := by
    rw [pointer, ← stack]
    exact dead.stopped
  offered := choices ▸ dead.offered
  hidden := choices ▸ dead.hidden

end State

theorem Run.choices_choosePath (program : Program) (path : Path) (beginsTurn : Bool)
    (state : State) : (leaves (choosePath program path beginsTurn state)).choices = [] := by
  have entered (state : State) : (state.visitEntered program).choices = state.choices := by
    rw [(counted_visitEntered program state).eq]
  simp only [choosePath, bind_apply, pointerAt_apply]
  cases program.pointerAt path with
  | error found => rfl
  | ok landing =>
    obtain ⟨pointer, _ | place⟩ := landing <;> cases beginsTurn <;> exact entered _

namespace Story

/-- No object of the program pushes a frame for which the host waits, there is none, and what the
story may go back to has content to evaluate. -/
structure Unhosted (story : Story) : Prop where
  program : ∀ place content, story.program.Holds place content → content.pushes? ≠ some .hostCall
  state : story.state.Unhosted
  newline : ∀ newline, story.snapshot = some newline →
    newline.Unhosted ∧ newline.pointer.isSome = true

/-- A story that does not stand at a dead end, and leaves the next one by itself. -/
structure OnCourse (story : Story) : Prop extends Unhosted story where
  passes : ¬story.state.DeadEnd

variable {callable : HostCall → Prop} {after : Story}

theorem Unhosted.affects (unhosted : story.Unhosted)
    (affects : Affects .unhosted callable story after) : after.Unhosted := by
  cases affects with
  | change changed => exact ⟨unhosted.program, unhosted.state.alters changed, unhosted.newline⟩
  | call | defer => exact ⟨unhosted.program, unhosted.state, unhosted.newline⟩

theorem Unhosted.forceEnd (unhosted : story.Unhosted) :
    (story.modifyState State.forceEnd).OnCourse where
  program := unhosted.program
  state := unhosted_forceEnd story.state
  newline := unhosted.newline
  passes := not_deadEnd_of_choices rfl

/-- Only where the story stands matters, and what it may go back to. -/
theorem OnCourse.congr (course : story.OnCourse) (program : after.program = story.program)
    (stack : after.state.callStack = story.state.callStack)
    (choices : after.state.choices = story.state.choices)
    (newline : after.snapshot = story.snapshot) : after.OnCourse where
  program := program ▸ course.program
  state := course.state.congr stack choices
  newline := newline ▸ course.newline
  passes dead := course.passes (dead.congr stack choices)

/-- A failure ends the story, and leaves no choices. -/
theorem Unhosted.fail (unhosted : story.Unhosted) (error : Error) :
    (story.modifyState fun state => state.fail story.program error).OnCourse :=
  unhosted.forceEnd.congr rfl rfl rfl rfl

/-- A story that does not look ahead is on course where it stands at no dead end. -/
theorem onCourse_of_settled (settled : story.snapshot = none)
    (program : ∀ place content, story.program.Holds place content →
      content.pushes? ≠ some .hostCall)
    (state : story.state.Unhosted) (passes : ¬story.state.DeadEnd) : story.OnCourse := by
  refine ⟨⟨program, state, fun newline pending => ?_⟩, passes⟩
  rw [settled] at pending
  contradiction

section

variable (course : story.OnCourse)

include course

theorem OnCourse.workOutText : story.workOutText.OnCourse where
  program := course.program
  state := course.state.congr rfl rfl
  newline newline pending := by
    obtain ⟨former, there, rfl⟩ := Option.map_eq_some_iff.mp pending
    obtain ⟨unhosted, stands⟩ := course.newline former there
    exact ⟨unhosted.congr rfl rfl, stands⟩
  passes dead := course.passes (dead.congr rfl rfl)

theorem OnCourse.keepLookahead : story.keepLookahead.OnCourse := by
  obtain ⟨stack, choices, -⟩ := settle_flow story
  have same : story.keepLookahead.program = story.program := program_settle story
  exact onCourse_of_settled rfl (same ▸ course.program) (course.state.congr stack choices)
    fun dead => course.passes (dead.congr stack choices)

/-- There is content to evaluate where the story goes back to. -/
theorem OnCourse.rewind : story.rewind.OnCourse := by
  cases pending : story.snapshot with
  | none => rwa [rewind_settled pending]
  | some newline =>
    obtain ⟨stack, choices, -⟩ := rewind_flow pending
    obtain ⟨unhosted, stands⟩ := course.newline newline pending
    have same : story.rewind.program = story.program := Play.program_endLine story
    refine onCourse_of_settled (snapshot_rewind story) (same ▸ course.program)
      (unhosted.congr stack choices) (not_deadEnd_of_pointer ?_)
    rw [pointer, stack]
    exact stands

theorem OnCourse.takeSnapshot (goesOn : story.canContinue) :
    story.takeSnapshot.OnCourse where
  program := course.program
  state := course.state.congr rfl rfl
  newline newline taken := by
    cases taken
    exact ⟨course.state, pointer_of_canContinue goesOn⟩
  passes dead := course.passes (dead.congr rfl rfl)

/-- A line that stops where it may not ends the story. -/
theorem OnCourse.endLine : story.endLine.OnCourse := by
  have back := course.rewind
  have ended : (story.rewind.modifyState (checkEnd story.rewind.program)).OnCourse := by
    unfold modifyState
    rw [checkEnd_eq]
    split
    · exact back
    · exact back.fail _
  exact ended.congr rfl rfl rfl rfl

end

end Story

namespace Play

open Story

/-! ### Lines -/

theorem Affecting.unhosted {play : Play α}
    (affecting : Affecting .unhosted (fun _ => True) play story) (unhosted : story.Unhosted) : (leaves (play story)).Unhosted :=
  affecting.invariant (fun _ _ affects held => held.affects affects) unhosted

theorem unhosted_step (unhosted : story.Unhosted) : (leaves (step story)).Unhosted := by
  refine Affecting.unhosted (affecting_step (fun _ _ => trivial) FrameKind.noConfusion trivial
    (fun _ _ => trivial) fun place content kind holds pushes hosts => ?_) unhosted
  exact unhosted.program place content holds (hosts ▸ pushes)

theorem unhosted_leaveDeadEnd (unhosted : story.Unhosted) :
    (leaves (leaveDeadEnd story)).Unhosted :=
  Affecting.unhosted evaluating_leaveDeadEnd unhosted

/-- To go to a path is to leave all choices, even where it cannot be found. -/
theorem choices_choosePath (program : Program) (path : Path) (beginsTurn : Bool) :
    (leaves (onState (Run.choosePath program path beginsTurn) story)).state.choices = [] := by
  have none := Run.choices_choosePath program path beginsTurn story.state
  rw [onState_apply]
  cases outcome : Run.choosePath program path beginsTurn story.state <;> rwa [outcome] at none

/-- The story takes an invisible choice, and with it leaves all the others, or there is one that is
shown. -/
theorem not_deadEnd_followInvisibleChoice :
    ¬(leaves (followInvisibleChoice story)).state.DeadEnd := by
  cases offered : story.state.choices with
  | nil =>
    simp only [followInvisibleChoice, bind_apply, get_apply, offered]
    exact not_deadEnd_of_choices offered
  | cons choice others =>
    simp only [followInvisibleChoice, bind_apply, get_apply, offered]
    split
    · exact not_deadEnd_of_choices (choices_choosePath _ choice.target false)
    · next shown =>
      intro dead
      exact shown (all_eq_true.mpr (offered ▸ dead.hidden))

/-- Unless the host waits, a story does not stay at a dead end. -/
theorem not_deadEnd_leaveDeadEnd (unhosted : story.Unhosted) :
    ¬(leaves (leaveDeadEnd story)).state.DeadEnd := by
  simp only [leaveDeadEnd, bind_apply, get_apply]
  split
  · exact not_deadEnd_followInvisibleChoice
  · next stays =>
    have free : story.state.callStack.inHostCall = false := by
      rw [CallStack.inHostCall, beq_eq_false_iff_ne]
      exact fun hosted => unhosted.state.current (hosted ▸ mem_cons_self)
    have goesOn : story.state.canContinue := by simpa [free] using stays
    exact not_deadEnd_of_pointer (pointer_of_canContinue goesOn)

/-- A step that does not fail leaves the dead end that it comes to. -/
theorem onCourse_singleStep (unhosted : story.Unhosted) :
    match singleStep story with
    | .ok _ after => after.OnCourse
    | .error _ left => left.Unhosted := by
  have stepped := unhosted_step unhosted
  simp only [singleStep, bind_apply]
  cases taken : step story with
  | error error left => rwa [taken] at stepped
  | ok _ middle =>
    rw [taken] at stepped
    have behind : (leaves (leaveDeadEnd middle)).OnCourse :=
      ⟨unhosted_leaveDeadEnd stepped, not_deadEnd_leaveDeadEnd stepped⟩
    dsimp only
    cases left : leaveDeadEnd middle with
    | error error left' =>
      rw [left] at behind
      exact behind.toUnhosted
    | ok _ next =>
      rw [left] at behind
      have checking : Leads (fun before after : Story => before.OnCourse → after.OnCourse)
          checkLine next :=
        leads_checkLine (fun _ => OnCourse.workOutText) (fun _ => OnCourse.rewind)
          (fun _ => OnCourse.keepLookahead) fun _ _ goesOn course => course.takeSnapshot goesOn
      have checked := checking.invariant (fun _ _ kept => kept) behind
      dsimp only
      cases outcome : checkLine next with
      | ok wentBack after => rwa [outcome] at checked
      | error error after =>
        rw [outcome] at checked
        exact checked.toUnhosted

theorem onCourse_lines : KeptInLines (fun _ => True) OnCourse where
  step {story} _ course := by
    have stepped := onCourse_singleStep course.toUnhosted
    unfold reportFailure
    cases outcome : singleStep story with
    | ok wentBack after => rwa [outcome] at stepped
    | error error left =>
      rw [outcome] at stepped
      exact stepped.fail error
  begin _ _ course := course.congr rfl rfl rfl rfl
  resume _ _ course := course.congr rfl rfl rfl rfl
  finish := OnCourse.endLine

theorem onCourse_parts (unbinds : Prop) :
    KeptInParts (fun _ => False) (fun _ => True) unbinds OnCourse where
  wholeLine := onCourse_lines.wholeLine
  setUp setsUp course := by
    cases setsUp
    exact course.congr rfl rfl rfl rfl
  choosePath {story} path beginsTurn course _ :=
    ⟨Affecting.unhosted (evaluating_onState (Run.changing_choosePath path beginsTurn))
        course.toUnhosted,
      not_deadEnd_of_choices (choices_choosePath story.program path beginsTurn)⟩
  passArguments arguments course _ := by
    rw [onState_apply]
    rcases Value.passable_cases arguments with passable | ⟨_, _, _, rfl, passable, unpassable⟩
    · rw [Run.passArguments_passable passable]
      exact course.congr rfl rfl rfl rfl
    · rw [Run.passArguments_unpassable passable unpassable]
      exact course.congr rfl rfl rfl rfl
  take {story choice} offered course := by
    have takes : Affects .unhosted (fun _ => True) story
        (story.modifyState fun state => state.take choice) := .change (.take choice offered)
    exact ⟨course.toUnhosted.affects takes, not_deadEnd_of_choices rfl⟩
  forceEnd course := course.toUnhosted.forceEnd
  forgetReports course := course.congr rfl rfl rfl rfl
  startSaving _ _ course := course.congr rfl rfl rfl rfl
  endSaving {story} course := by
    have flow : story.state.applyPatch.callStack = story.state.callStack ∧
        story.state.applyPatch.choices = story.state.choices := by
      unfold applyPatch
      split <;> exact ⟨rfl, rfl⟩
    split
    · exact course.congr rfl flow.1 flow.2 rfl
    · exact course.congr rfl rfl rfl rfl

/-- Behind the declarations of the globals the story goes back to its start. -/
theorem onCourse_declarations : KeptInDeclarations OnCourse where
  position course :=
    ⟨⟨course.program, ⟨course.state.current, course.state.waiting, course.state.offered⟩,
      course.newline⟩, not_deadEnd_of_pointer rfl⟩
  declare course := course.congr rfl rfl rfl rfl

end Play

namespace Operation

open Play

/-- An operation comes between the steps of a story: it plays a function in a frame for which the
host waits, or puts another state in place of the one that was reached. -/
def interferes : Operation → Bool
  | .callFunction _ _ | .load _ => true
  | _ => false

theorem onCourse_after {operation : Operation} (plays : operation.interferes = false)
    (course : story.OnCourse) : (operation.after story).OnCourse := by
  refine (keeps_perform (onCourse_parts _) (fun _ _ => trivial) fun intervenes => ?_).still course
  cases operation with
  | nextSteps more => exact (onCourse_parts False).nextSteps onCourse_lines fun _ _ => trivial
  | setGlobal name value => exact keeps_setGlobal fun course => course.congr rfl rfl rfl rfl
  | reset =>
    refine (onCourse_parts False).reset onCourse_declarations (fun _ course => ?_) fun _ _ => trivial
    exact Story.onCourse_of_settled rfl course.program (unhosted_atStart _)
      (not_deadEnd_of_choices rfl)
  | _ => contradiction

theorem onCourse_afterAll {operations : List Operation}
    (plays : ∀ operation ∈ operations, operation.interferes = false) (course : story.OnCourse) :
    (afterAll operations story).OnCourse := by
  induction operations generalizing story with
  | nil => exact course
  | cons operation rest ih =>
    obtain ⟨first, others⟩ := forall_mem_cons.mp plays
    exact ih others (onCourse_after first course)

end Operation

/-! ### Stories that are read -/

/-- No object that was read pushes a frame for which the host waits. -/
theorem Program.unhosted_of_read (read : Program.read text = .ok program) {place : Place}
    {content : Content} (holds : program.Holds place content) :
    content.pushes? ≠ some .hostCall := by
  have asRead := asRead_of_holds read holds
  cases content with
  | divert jump => exact asRead.pushes
  | _ => exact nofun

theorem Story.onCourse_of_read {config : Config} {fresh : Story}
    (read : Story.read text config = .ok fresh) : fresh.OnCourse := by
  unfold Story.read at read
  cases parsed : Program.read text with
  | error error =>
    rw [parsed] at read
    contradiction
  | ok program =>
    rw [parsed] at read
    have begins : OnCourse { program, config, state := atStart config } :=
      onCourse_of_settled rfl (fun _ _ => Program.unhosted_of_read parsed) (unhosted_atStart config)
        (not_deadEnd_of_choices rfl)
    exact ((Play.onCourse_parts False).declareGlobals Play.onCourse_declarations rfl
      fun _ _ => trivial).still_ok begins (Play.declares_of_start read)

/-- However a story that was read is played, where it stops without errors it has no choices, or
shows one at least: it never stops where all its choices are invisible. -/
theorem Operation.shows_choice_where_stopped {text : String} {config : Config} {fresh : Story}
    {operations : List Operation} (read : Story.read text config = .ok fresh)
    (plays : ∀ operation ∈ operations, operation.interferes = false)
    (stops : (afterAll operations fresh).canContinue = false)
    (flawless : (afterAll operations fresh).state.errors = []) :
    (afterAll operations fresh).state.choices = [] ∨
      (afterAll operations fresh).state.visibleChoices ≠ [] := by
  have course := onCourse_afterAll plays (Story.onCourse_of_read read)
  generalize afterAll operations fresh = story at stops flawless course
  have stopped : story.state.pointer = none := by
    simpa [Story.canContinue, canContinue, flawless] using stops
  refine or_iff_not_imp_left.mpr fun offered hidden => course.passes ⟨stopped, offered, ?_⟩
  have stops : ¬story.state.canContinue = true := by simpa [Story.canContinue] using stops
  rw [visibleChoices, if_neg stops, filter_eq_nil_iff] at hidden
  exact fun choice member => by simpa using hidden choice member

/-- A story whose first choice is invisible, and leads to one that is and one that is not. -/
def lobbySource : String :=
  "\x7b\"inkVersion\":21,\"root\":[[\"^Wait.\",\"\\n\",\x7b\"*\":\".^.c-0\",\"flg\":8\x7d," ++
    "\x7b\"c-0\":[\"^In.\",\"\\n\",\"ev\",\"str\",\"^Go\",\"/str\",\"/ev\"," ++
    "\x7b\"*\":\".^.c-0\",\"flg\":4\x7d,\x7b\"*\":\".^.c-1\",\"flg\":8\x7d,\"done\"," ++
    "\x7b\"c-0\":[\"end\",null],\"c-1\":[\"end\",null]\x7d]\x7d],\"done\",null]," ++
    "\"listDefs\":\x7b\x7d\x7d"

theorem Operation.shows_choice_in_lobby :
    ∃ fresh, Story.read lobbySource {} = .ok fresh ∧
      (afterAll [.allLines] fresh).canContinue = false ∧
      (afterAll [.allLines] fresh).state.errors = [] ∧
      (afterAll [.allLines] fresh).state.choices.length = 2 ∧
      ((afterAll [.allLines] fresh).state.choices = [] ∨
        (afterAll [.allLines] fresh).state.visibleChoices ≠ []) := by
  obtain ⟨fresh, read, stops, flawless, offered⟩ :
      ∃ fresh, Story.read lobbySource {} = .ok fresh ∧
        (afterAll [.allLines] fresh).canContinue = false ∧
        (afterAll [.allLines] fresh).state.errors = [] ∧
        (afterAll [.allLines] fresh).state.choices.length = 2 := by
    decide +kernel
  exact ⟨fresh, read, stops, flawless, offered,
    shows_choice_where_stopped read (by decide) stops flawless⟩

end InkStory
