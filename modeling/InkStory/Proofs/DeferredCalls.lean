import InkStory.Proofs.FatalErrors
import InkStory.Proofs.HostWrites

/-! # Calls that are put off

A function of the host that is not to be called while the story looks ahead is called where no
newline may be gone back to. Where it would be called behind one, the story goes back to the newline,
as soon as it builds no string (`Operation.unsafe_calls_wait`). -/

namespace InkStory

open List Option Play

variable {story after last : Story} {newline : State} {writable : String → Prop}
  {callable : HostCall → Prop} {more : Nat} {before behind : List Story} {operation : Operation}

namespace State

/-- A state stands where another does: they differ in reports and in how writes are kept at most. -/
structure BackAt (newline state : State) : Prop where
  callStack : state.callStack = newline.callStack
  evaluation : state.evaluation = newline.evaluation
  output : state.output.stream = newline.output.stream
  text : state.output.text = newline.output.text
  tags : state.output.tags = newline.output.tags
  choices : state.choices = newline.choices
  turn : state.turn = newline.turn
  seed : state.seed = newline.seed
  previousDraw : state.previousDraw = newline.previousDraw
  diverted : state.diverted = newline.diverted
  globals : ∀ name, state.global? name = newline.global? name
  visits : ∀ address, state.visitsOf address = newline.visitsOf address
  turns : ∀ address, state.turnOf? address = newline.turnOf? address

theorem visitsOf_applyPatch (state : State) (address : Address) :
    state.applyPatch.visitsOf address = state.visitsOf address := by
  unfold applyPatch
  split
  · rfl
  · next patch written => simp [visitsOf, written, Table.get?_insertTable]

theorem turnOf?_applyPatch (state : State) (address : Address) :
    state.applyPatch.turnOf? address = state.turnOf? address := by
  unfold applyPatch
  split
  · rfl
  · next patch written => simp [turnOf?, written, Table.get?_insertTable]

theorem BackAt.applyPatch {state : State} (back : BackAt newline state) :
    BackAt newline state.applyPatch := by
  have same : state.applyPatch =
      { state with
        globals := state.applyPatch.globals, visits := state.applyPatch.visits,
        turns := state.applyPatch.turns, patch := state.applyPatch.patch } := by
    unfold State.applyPatch
    split <;> rfl
  have globals name : state.applyPatch.global? name = newline.global? name :=
    global?_applyPatch.trans (back.globals name)
  have visits address := (visitsOf_applyPatch state address).trans (back.visits address)
  have turns address := (turnOf?_applyPatch state address).trans (back.turns address)
  rw [same] at globals visits turns ⊢
  exact { back with globals, visits, turns }

end State

namespace Story

open State

/-- The call of the host that the next step of a story comes to. -/
def request? (story : Story) : Option HostRequest :=
  story.state.pointer.bind fun start =>
    let state := story.state.descend story.program start
    state.pointer.bind fun pointer =>
      (story.program.objectAt? pointer).bind fun object =>
        match Run.performContent story.program object.1 object.2 state with
        | .ok request _ => request
        | .error _ _ => none

/-- A call was put off behind a newline. -/
structure Waits (newline : State) (story : Story) : Prop where
  deferred : story.callDeferred = true
  snapshot : story.snapshot = some newline

theorem Waits.effect (waits : story.Waits newline) (effect : Effect writable callable story after) :
    after.Waits newline := by
  cases effect with
  | change | call => exact ⟨waits.deferred, waits.snapshot⟩
  | defer => exact ⟨rfl, waits.snapshot⟩

/-- The story goes back to where it stood. -/
theorem backAt_rewind {snapshot : State} (pending : story.snapshot = some snapshot)
    (known : snapshot.output = newline.output ∨ snapshot.output = newline.output.known)
    (same : snapshot = { newline with output := snapshot.output }) :
    BackAt newline story.rewind.state := by
  have text : snapshot.output.text = newline.output.text := by
    rcases known with known | known
    · rw [known]
    · rw [known]
      rfl
  have tags : snapshot.output.tags = newline.output.tags := by
    rcases known with known | known
    · rw [known]
    · rw [known]
      rfl
  have stream : snapshot.output.stream = newline.output.stream := by
    rcases known with known | known
    · rw [known]
    · rw [known]
      rfl
  have back : BackAt newline
      { snapshot with errors := story.state.errors, warnings := story.state.warnings } := by
    rw [same]
    exact ⟨rfl, rfl, stream, text, tags, rfl, rfl, rfl, rfl, rfl, fun _ => rfl, fun _ => rfl,
      fun _ => rfl⟩
  simp only [rewind, pending, settle]
  split
  · exact back
  · exact back.applyPatch

theorem Waits.backAt (waits : story.Waits newline) : BackAt newline story.rewind.state :=
  backAt_rewind waits.snapshot (.inl rfl) rfl

theorem Waits.backAt_workOutText (waits : story.Waits newline) :
    BackAt newline story.workOutText.rewind.state := by
  have known : story.workOutText.snapshot = some { newline with output := newline.output.known } := by
    simp only [workOutText, waits.snapshot, map_some]
  exact backAt_rewind known (.inr rfl) rfl

end Story

namespace Play

open State Story

variable {request : HostRequest} {wentBack : Bool}

/-- Where a call was put off, the check of the line goes back to the newline, unless a string is
being built. -/
theorem checkLine_waits (waits : story.Waits newline) :
    checkLine story =
      if story.state.output.inString then .ok false story
      else .ok true story.workOutText.rewind := by
  have pending : story.snapshot.isSome := by rw [waits.snapshot]; rfl
  have known : story.workOutText.snapshot = some { newline with output := newline.output.known } := by
    simp only [workOutText, waits.snapshot, map_some]
  have deferred : story.workOutText.callDeferred := waits.deferred
  have compares : compareWithSnapshot story = .ok true story.workOutText.rewind := by
    simp only [compareWithSnapshot, bind_apply, modify_apply, get_apply, known, deferred, or_true]
    rfl
  simp only [checkLine, bind_apply, get_apply, ite_run, pure_apply, pending, if_true, compares]

/-- A step behind which a call is put off goes back to the newline, unless it fails or a string is
being built. -/
theorem singleStep_waits (waits : (leaves (step story)).Waits newline) :
    (∃ middle : Story, singleStep story = .ok true middle.workOutText.rewind ∧
        middle.Waits newline) ∨
      (∃ middle : Story, singleStep story = .ok false middle ∧ middle.Waits newline ∧
        middle.state.output.inString) ∨
      ∃ error failed, singleStep story = .error error failed ∧ failed.Waits newline := by
  cases stepped : step story with
  | error error failed =>
    rw [stepped] at waits
    refine .inr (.inr ⟨error, failed, ?_, waits⟩)
    simp only [singleStep, bind_apply, stepped]
  | ok value behind =>
    rw [stepped] at waits
    have leaving : Evaluating (fun _ => True) (fun _ => True) leaveDeadEnd behind :=
      evaluating_leaveDeadEnd
    have still : (leaves (leaveDeadEnd behind)).Waits newline :=
      leaving.invariant (fun _ _ effect waits => waits.effect effect) waits
    cases left : leaveDeadEnd behind with
    | error error failed =>
      rw [left] at still
      refine .inr (.inr ⟨error, failed, ?_, still⟩)
      simp only [singleStep, bind_apply, stepped, left]
    | ok value middle =>
      rw [left] at still
      have checked := checkLine_waits still
      dsimp only [leaves] at still checked
      have whole : singleStep story = checkLine middle := by
        simp only [singleStep, bind_apply, stepped, left]
      rw [whole, checked]
      by_cases building : middle.state.output.inString
      · exact .inr (.inl ⟨middle, if_pos building, still, building⟩)
      · exact .inl ⟨middle, if_neg building, still⟩

/-- A step that comes to a call makes it or puts it off, and then moves on. -/
theorem step_of_request (asks : story.request? = some request) :
    ∃ place content state,
      step story =
        (do
          callHost request.function request.arguments
          onState (Run.finishContent story.program place content)) { story with state := state } := by
  obtain ⟨start, here, asks⟩ := bind_eq_some_iff.mp asks
  obtain ⟨pointer, there, asks⟩ := bind_eq_some_iff.mp asks
  obtain ⟨⟨place, content⟩, object, asks⟩ := bind_eq_some_iff.mp asks
  split at asks
  · next found state performed =>
    subst asks
    refine ⟨place, content, state, ?_⟩
    simp only [step, bind_apply, get_apply, here, modifyState_apply, there, object, evaluate,
      onState_apply, performed]
  · contradiction

theorem exists_binding {name : String} (careful : story.isUnsafe name) :
    ∃ binding, story.bindings.get? name = some binding ∧ binding.lookaheadSafe = false := by
  unfold isUnsafe at careful
  cases bound : story.bindings.get? name with
  | none => simp [bound] at careful
  | some binding => exact ⟨binding, rfl, by simpa [bound] using careful⟩

/-- A call that is not to be made while the story looks ahead is put off then. -/
theorem waits_of_request (asks : story.request? = some request)
    (careful : story.isUnsafe request.function) (pending : story.snapshot = some newline) :
    (leaves (step story)).Waits newline := by
  obtain ⟨place, content, state, stepped⟩ := step_of_request asks
  obtain ⟨binding, bound, notSafe⟩ := exists_binding careful
  have defers : callHost request.function request.arguments { story with state := state } =
      .ok () { story with state := state, callDeferred := true } := by
    simp only [callHost, bind_apply, get_apply, bound, notSafe, pending]
    rfl
  simp only [stepped, bind_apply, defers, onState_apply]
  cases Run.finishContent story.program place content state <;> exact ⟨rfl, pending⟩

theorem journal_onState (run : Run α) (story : Story) :
    (leaves (onState run story)).journal = story.journal := by
  rw [onState_apply]
  cases run story.state <;> rfl

theorem journal_callBinding (name : String) (binding : Binding) (arguments : List Value)
    (story : Story) :
    (leaves (callBinding name binding arguments story)).journal =
      story.journal ++ [.called ⟨name, arguments⟩] := by
  simp only [callBinding, bind_apply]
  rcases binding.answer arguments with reason | _ | value
  · rfl
  · exact journal_onState _ _
  · exact journal_onState _ _

/-- Operations in a row leave the journal of the first, where the second leaves it as it is. -/
theorem journal_bind_onState {first : Play α} {run : α → Run β} (story : Story) :
    (leaves ((first >>= fun value => onState (run value)) story)).journal =
      (leaves (first story)).journal := by
  rw [bind_apply]
  cases first story with
  | ok value middle => exact journal_onState _ _
  | error error left => rfl

theorem journal_singleStep (story : Story) :
    (leaves (step story)).journal <+: (leaves (singleStep story)).journal := by
  unfold singleStep
  rw [bind_apply]
  cases step story with
  | error error left => exact prefix_rfl
  | ok value middle =>
    have moving : Moving (fun _ => True) (fun _ => True) (do leaveDeadEnd; checkLine) middle :=
      .bind (moving_of_evaluating evaluating_leaveDeadEnd) fun _ _ _ => moving_checkLine
    obtain ⟨calls, journal, -, -⟩ := calls_of_moves moving
    exact ⟨_, journal.symm⟩

/-- A call is made where no newline may be gone back to, unless its arguments are not there. -/
theorem call_of_request (asks : story.request? = some request)
    (careful : story.isUnsafe request.function) (settled : story.snapshot = none)
    (succeeds : story.failure? = none) :
    ∃ arguments, ⟨request.function, arguments⟩ ∈ story.newCalls := by
  obtain ⟨place, content, state, stepped⟩ := step_of_request asks
  obtain ⟨binding, bound, notSafe⟩ := exists_binding careful
  have calls : callHost request.function request.arguments { story with state := state } =
      (onState (popArguments request.function request.arguments) >>=
        callBinding request.function binding) { story with state := state } := by
    simp only [callHost, bind_apply, get_apply, bound, notSafe, settled]
    rfl
  cases popped : popArguments request.function request.arguments state with
  | error error left =>
    have fails : singleStep story = .error error { story with state := left } := by
      simp only [singleStep, bind_apply, stepped, calls, onState_apply, popped]
    simp [failure?, fails] at succeeds
  | ok arguments left =>
    have made : (leaves (step story)).journal =
        story.journal ++ [.called ⟨request.function, arguments⟩] := by
      rw [stepped, journal_bind_onState, calls]
      simp only [bind_apply, onState_apply, popped]
      exact journal_callBinding _ _ _ _
    obtain ⟨others, whole⟩ := journal_singleStep story
    refine ⟨arguments, ?_⟩
    rw [newCalls, ← whole, made, append_assoc, drop_left]
    exact mem_cons_self

/-- A call that was put off stays so while the next object is evaluated. -/
theorem waits_step (waits : story.Waits newline) : (leaves (step story)).Waits newline := by
  have stepping : Evaluating (fun _ => True) (fun _ => True) step story :=
    evaluating_step (fun _ _ => trivial) fun _ _ => trivial
  exact stepping.invariant (fun _ _ effect waits => waits.effect effect) waits

/-- Once a call was put off, a line goes on only while a string is being built. -/
theorem stepsFrom_waits (waits : (leaves (step story)).Waits newline) :
    ∃ behind, stepsFrom more story = story :: behind ∧
      ∀ later ∈ behind, later.Waits newline ∧ later.state.output.inString := by
  induction more generalizing story with
  | zero => exact ⟨[], rfl, fun later member => absurd member not_mem_nil⟩
  | succ more ih =>
    refine ⟨_, rfl, fun later member => ?_⟩
    obtain ⟨middle, back, -⟩ | ⟨middle, goesOn, still, building⟩ | ⟨error, failed, fails, -⟩ :=
      singleStep_waits waits
    · simp [reportFailure, back] at member
    · simp only [reportFailure, goesOn] at member
      split at member
      · contradiction
      · obtain ⟨behind, steps, others⟩ := ih (waits_step still)
        rw [steps] at member
        rcases mem_cons.mp member with rfl | member
        · exact ⟨still, building⟩
        · exact others later member
    · -- a story with an error does not go on
      have stops : (failed.modifyState fun state =>
          state.fail failed.program error).canContinue = false := by
        apply not_canContinue_of_errors
        simp [Story.modifyState, errors_fail]
      simp [reportFailure, fails, stops] at member

/-- Behind the last step of a line a call is still put off, or the line goes back to the newline
behind which it was, unless the step fails. -/
theorem last_waits (waits : (leaves (step story)).Waits newline)
    (taken : reportFailure singleStep story = .ok wentBack last) :
    (story.failure? = none ∧ BackAt newline last.rewind.state ∧
        (wentBack = false → last.Waits newline)) ∨
      last.canContinue = false ∧ ∃ report, story.failure? = some (report, some newline) := by
  obtain ⟨middle, back, still⟩ | ⟨middle, goesOn, still, -⟩ | ⟨error, failed, fails, still⟩ :=
    singleStep_waits waits
  · simp only [reportFailure, back] at taken
    cases taken
    refine .inl ⟨by simp [failure?, back], ?_, Bool.noConfusion⟩
    rw [rewind_settled (snapshot_rewind _)]
    exact still.backAt_workOutText
  · simp only [reportFailure, goesOn] at taken
    cases taken
    exact .inl ⟨by simp [failure?, goesOn], still.backAt, fun _ => still⟩
  · simp only [reportFailure, fails] at taken
    cases taken
    refine .inr ⟨?_, failed.state.report failed.program "ERROR" error.message, ?_⟩
    · apply not_canContinue_of_errors
      simp [Story.modifyState, errors_fail]
    · simp only [failure?, fails, still.snapshot]

/-- A step that does not fail notes no error. -/
theorem errors_of_succeeds (succeeds : story.failure? = none)
    (taken : reportFailure singleStep story = .ok wentBack last) :
    last.state.errors = story.state.errors := by
  have kept := errors_singleStep story
  unfold failure? at succeeds
  unfold reportFailure at taken
  cases outcome : singleStep story with
  | ok value next =>
    rw [outcome] at taken kept
    cases taken
    exact kept
  | error error failed =>
    rw [outcome] at succeeds
    contradiction

/-- The steps behind one of a line are those that a line takes from it. -/
theorem stepsFrom_suffix {step : Story} (steps : stepsFrom more story = before ++ step :: behind) :
    ∃ fewer, stepsFrom fewer step = step :: behind ∧ runSteps fewer step = runSteps more story := by
  induction more generalizing story before with
  | zero =>
    cases before with
    | nil =>
      cases steps
      exact ⟨0, rfl, rfl⟩
    | cons _ rest => simp [stepsFrom] at steps
  | succ more ih =>
    cases before with
    | nil =>
      obtain rfl : story = step := by
        exact (cons.inj steps).1
      exact ⟨more + 1, steps, rfl⟩
    | cons first rest =>
      have tail := (cons.inj steps).2
      cases taken : reportFailure singleStep story with
      | error error left => simp [taken] at tail
      | ok wentBack next =>
        rw [taken] at tail
        by_cases stops : (wentBack || !next.canContinue)
        · simp [stops] at tail
        · obtain ⟨fewer, from_, same⟩ := ih (by simpa [stops] using tail)
          refine ⟨fewer, from_, same.trans ?_⟩
          simp only [runSteps, bind_apply, taken, get_apply, if_neg stops]

end Play

namespace Story

/-- A story can go on from where it may go back to. -/
def LooksOn (story : Story) : Prop :=
  ∀ newline, story.snapshot = some newline → newline.canContinue = true

theorem looksOn_of_none (settled : story.snapshot = none) : story.LooksOn := by
  intro newline pending
  rw [settled] at pending
  contradiction

theorem LooksOn.congr {other : Story} (looksOn : story.LooksOn)
    (same : other.snapshot = story.snapshot) : other.LooksOn := by
  intro newline pending
  rw [same] at pending
  exact looksOn newline pending

theorem LooksOn.move (looksOn : story.LooksOn) (move : Move writable callable story after) :
    after.LooksOn := by
  cases move with
  | effect effect => exact looksOn.congr effect.kept.2
  | workOut =>
    intro newline pending
    obtain ⟨snapshot, there, rfl⟩ := map_eq_some_iff.mp pending
    exact looksOn snapshot there
  | rewind => exact looksOn_of_none (snapshot_rewind story)
  | keepLookahead => exact looksOn_of_none rfl
  | takeSnapshot settled goesOn =>
    intro newline pending
    cases pending
    exact goesOn

theorem LooksOn.action (looksOn : story.LooksOn) (action : Action writable callable story after) :
    after.LooksOn := by
  cases action with
  | move move => exact looksOn.move move
  | finish => exact looksOn_of_none (snapshot_rewind story)
  | _ => exact looksOn.congr rfl

theorem LooksOn.deed (looksOn : story.LooksOn) (deed : Deed unbinds callable story after) :
    after.LooksOn := by
  cases deed with
  | act action => exact looksOn.action action
  | restart | load => exact looksOn_of_none rfl
  | _ => exact looksOn.congr rfl

theorem Reachable.looksOn (reachable : story.Reachable) : story.LooksOn :=
  reachable.invariant (fun _ _ => looksOn_of_none rfl) fun deed looksOn => looksOn.deed deed

theorem looksOn_stepsFrom (looksOn : story.LooksOn) :
    ∀ step ∈ Play.stepsFrom more story, step.LooksOn := by
  refine stepsFrom_invariant (fun before wentBack next looksOn taken _ => ?_) looksOn
  have acting : Acting (fun _ => True) (fun _ => True)
      (reportFailure singleStep) before :=
    acting_reportFailure (moving_singleStep (fun _ _ => trivial) fun _ _ => trivial)
  have left := acting.invariant (fun _ _ action looksOn => looksOn.action action) looksOn
  rwa [taken] at left

/-- The journal grew, by no calls of the host but those that are allowed. -/
def Adds (callable : HostCall → Prop) (story after : Story) : Prop :=
  ∃ events, after.journal = story.journal ++ events ∧
    ∀ call, .called call ∈ events → callable call

theorem Adds.of_eq (same : after.journal = story.journal) : story.Adds callable after :=
  ⟨[], by rw [same, append_nil], fun call member => absurd member not_mem_nil⟩

theorem Adds.trans {middle : Story} (first : story.Adds callable middle)
    (second : middle.Adds callable after) : story.Adds callable after := by
  obtain ⟨events, journal, allowed⟩ := first
  obtain ⟨latest, longer, made⟩ := second
  refine ⟨events ++ latest, ?_, fun call member => ?_⟩
  · rw [longer, journal, append_assoc]
  · exact (mem_append.mp member).elim (allowed call) (made call)

/-- An operation adds to the journal what observers are told, and calls of the host that are
allowed. -/
theorem Deed.adds (deed : Deed unbinds callable story after) : story.Adds callable after := by
  have tells (story : Story) (changes : List (String × Value)) :
      story.Adds callable (story.notify changes) := by
    refine ⟨_, rfl, fun call member => ?_⟩
    obtain ⟨change, -, member⟩ := mem_flatMap.mp member
    obtain ⟨observer, -, told⟩ := mem_map.mp member
    cases told
  cases deed with
  | act action =>
    cases action with
    | move move =>
      obtain ⟨calls, journal, made, -⟩ := move.calls
      refine ⟨_, journal, fun call member => made call ?_⟩
      obtain ⟨other, listed, same⟩ := mem_map.mp member
      cases same
      exact listed
    | notify changes => exact tells story changes
    | finish => exact (Adds.of_eq (journal_rewind story)).trans (tells _ _)
    | _ => exact .of_eq rfl
  | _ => exact .of_eq rfl

end Story

namespace Operation

variable {operations : List Operation}

open Play Story State

/-- A story comes to a call behind a newline that is not to be made there. -/
def PutsOff (newline : State) (story : Story) : Prop :=
  story.snapshot = some newline ∧
    ∃ request, story.request? = some request ∧ story.isUnsafe request.function = true

/-- How calls wait that are not to be made while the story looks ahead. -/
structure CallsWait (operation : Operation) (story : Story) : Prop where
  /-- An operation calls the host in its steps, and only where no newline may be gone back to. -/
  made : ∃ events, (operation.after story).journal = story.journal ++ events ∧
    ∀ call, .called call ∈ events → ∃ step ∈ operation.steps story, call ∈ step.newCalls ∧
      (step.isUnsafe call.function = true → step.snapshot = none)
  /-- Where none may, the call is made, unless the step fails. -/
  reached : ∀ step ∈ operation.steps story, ∀ request, step.request? = some request →
    step.isUnsafe request.function = true → step.snapshot = none → step.failure? = none →
    ∃ arguments, ⟨request.function, arguments⟩ ∈ step.newCalls
  /-- Where one may, the line goes on only while a string is being built. -/
  deferred : operation.continues = true → ∀ before step behind newline,
    operation.steps story = before ++ step :: behind → PutsOff newline step →
    ∀ later ∈ behind, later.snapshot = some newline ∧ later.state.output.inString = true
  /-- A call that was put off in a line stays so while the host does something else. -/
  aside : operation.continues = false → story.inLine = true → ∀ newline, story.Waits newline →
    (operation.after story).inLine = true ∧ (operation.after story).Waits newline
  /-- A line in which a call was put off goes back to the newline. No error was noted behind it and
  the story can go on from there, unless the last step failed. -/
  back : operation.continues = true → story.state.errors = [] → ∀ newline after,
    operation.perform story = .ok () after →
    (story.inLine = true ∧ story.Waits newline ∨
      ∃ step ∈ operation.steps story, PutsOff newline step) →
    ∃ last, (operation.steps story).getLast? = some last ∧
      if after.inLine then after.Waits newline
      else if last.failure?.isNone then
        BackAt newline after.state ∧ after.state.errors = [] ∧ after.canContinue = true
      else ∃ report, last.failure? = some (report, some newline)

section Lines

theorem calls_of_steps (operation : Operation) (story : Story) :
    story.Adds (fun call => ∃ step ∈ operation.steps story, call ∈ step.newCalls ∧
      (step.isUnsafe call.function → step.snapshot = none)) (operation.after story) := by
  refine deeds_after (fun step taken call made => ⟨step, taken, made, ?_⟩)
    (fun before after deed grown => grown.trans deed.adds) (.of_eq rfl)
  exact (moving_newCalls fun _ _ => trivial).2.1 call made

theorem waits_of_putsOff (putsOff : PutsOff newline story) : (leaves (step story)).Waits newline := by
  obtain ⟨pending, request, asks, careful⟩ := putsOff
  exact waits_of_request asks careful pending

/-- The steps of a line are taken from where it begins or goes on. -/
theorem steps_of_continues (story : Story) (continues : operation.continues) :
    operation.steps story = [] ∨
      ∃ more start, operation.steps story = stepsFrom more start ∧
        start.snapshot = story.snapshot ∧ start.state.errors = story.state.errors := by
  have taken (partly : Bool) (more : Nat) : lineSteps partly more story = [] ∨
      ∃ more_ start, lineSteps partly more story = stepsFrom more_ start ∧
        start.snapshot = story.snapshot ∧ start.state.errors = story.state.errors := by
    unfold lineSteps begunSteps
    split
    · next ready required =>
      obtain rfl := eq_of_requireBindings required
      split
      · next start begun =>
        refine .inr ⟨more, start, rfl, ?_⟩
        obtain ⟨-, rfl⟩ | ⟨-, -, rfl⟩ := beginLine_eq_ok begun <;> exact ⟨rfl, rfl⟩
      · exact .inl rfl
    · exact .inl rfl
  cases operation with
  | nextLine => exact taken _ _
  | nextSteps more => exact taken _ _
  | _ => contradiction

/-- Every step of a line looks on and begins without errors, if the line does. -/
theorem steps_looksOn_clean (continues : operation.continues) (looksOn : story.LooksOn)
    (clean : story.state.errors = []) :
    ∀ step ∈ operation.steps story, step.LooksOn ∧ step.state.errors = [] := by
  intro step member
  obtain none | ⟨more, start, taken, pending, errors⟩ := steps_of_continues story continues
  · rw [none] at member
    contradiction
  · rw [taken] at member
    exact ⟨looksOn_stepsFrom (looksOn.congr pending) step member,
      clean_stepsFrom (errors.trans clean) step member⟩

theorem waits_behind (continues : operation.continues) {step : Story}
    (steps : operation.steps story = before ++ step :: behind) (putsOff : PutsOff newline step) :
    ∀ later ∈ behind, later.snapshot = some newline ∧ later.state.output.inString := by
  obtain none | ⟨more, start, taken, -⟩ := steps_of_continues story continues
  · rw [none] at steps
    exact absurd steps.symm (by simp)
  · obtain ⟨fewer, suffix, -⟩ := stepsFrom_suffix (taken.symm.trans steps)
    obtain ⟨others, same, waits⟩ := stepsFrom_waits (waits_of_putsOff putsOff)
    obtain rfl : behind = others := (cons.inj (suffix.symm.trans same)).2
    exact fun later member => ⟨(waits later member).1.snapshot, (waits later member).2⟩

theorem aside_waits (pauses : operation.continues = false) (unfinished : story.inLine)
    (waits : story.Waits newline) :
    (operation.after story).inLine ∧ (operation.after story).Waits newline := by
  have aside := aside_of_unfinished pauses unfinished
  generalize operation.after story = after at aside
  cases aside <;> exact ⟨unfinished, waits.deferred, waits.snapshot⟩

/-- A line that goes back without errors ends at its newline. -/
theorem backAt_endLine (back : BackAt newline last.rewind.state) (clean : last.state.errors = [])
    (goesOn : newline.canContinue) :
    BackAt newline last.endLine.state ∧ last.endLine.state.errors = [] ∧
      last.endLine.canContinue := by
  have errors : last.rewind.state.errors = [] := (errors_rewind last).trans clean
  have still : last.rewind.state.canContinue := by
    rw [State.canContinue, Bool.and_eq_true] at goesOn
    rw [State.canContinue, pointer, back.callStack, errors]
    exact (Bool.and_true _).trans goesOn.1
  have stays : checkEnd last.rewind.program last.rewind.state = last.rewind.state := by
    rw [checkEnd_eq, still, Bool.true_or, if_pos rfl]
  have same : last.endLine.state =
      { last.rewind.state with
        exitedSafely := false, globals := last.rewind.state.globals.endLine } := by
    simp only [endLine, notify, stays]
  rw [Story.canContinue, same]
  refine ⟨?_, errors, still⟩
  exact { back with globals := back.globals, visits := back.visits, turns := back.turns }

/-- The last step of a line in which a call was put off finds it so. -/
theorem last_of_line (continues : operation.continues)
    (run : operation.perform story = .ok () after)
    (waits : story.inLine ∧ story.Waits newline ∨
      ∃ step ∈ operation.steps story, PutsOff newline step) :
    ∃ final last wentBack, (operation.steps story).getLast? = some final ∧
      (leaves (step final)).Waits newline ∧
      reportFailure singleStep final = .ok wentBack last ∧
      after = (if after.inLine then last else last.endLine) ∧
      (!after.inLine) = (wentBack || !last.canContinue) := by
  obtain ⟨partly, more, ready, start, ended, last, required, begun, steps, ran, same, stops⟩ :=
    line_of_perform continues run
  -- the line goes on from where the call was put off, or from where it is found so
  obtain ⟨fewer, first, putOff, suffix, ran⟩ : ∃ fewer first, (leaves (step first)).Waits newline ∧
      (stepsFrom fewer first).getLast? = (operation.steps story).getLast? ∧
      runSteps fewer first = .ok ended last := by
    obtain ⟨unfinished, waits⟩ | ⟨step, taken, putsOff⟩ := waits
    · refine ⟨more, start, waits_step ?_, by rw [steps], ran⟩
      obtain rfl := eq_of_requireBindings required
      obtain ⟨-, rfl⟩ | ⟨complete, -, -⟩ := beginLine_eq_ok begun
      · exact ⟨waits.deferred, waits.snapshot⟩
      · rw [show story.inLine = false from complete] at unfinished
        contradiction
    · rw [steps] at taken
      obtain ⟨before, behind, split⟩ := append_of_mem taken
      obtain ⟨fewer, suffix, rest⟩ := stepsFrom_suffix split
      refine ⟨fewer, step, waits_of_putsOff putsOff, ?_, rest.trans ran⟩
      rw [steps, suffix, split, getLast?_append_cons]
  obtain ⟨final, wentBack, listed, taken, complete⟩ := runSteps_last ran
  obtain ⟨behind, only, others⟩ := stepsFrom_waits putOff
  refine ⟨final, last, wentBack, suffix.symm.trans listed, ?_, taken, ?_, ?_⟩
  · have member := mem_of_getLast? listed
    rw [only] at member
    rcases mem_cons.mp member with rfl | member
    · exact putOff
    · exact waits_step (others final member).1
  · rw [stops] at same
    cases inLine : after.inLine <;> rw [inLine] at same <;> exact same
  · exact stops.symm.trans complete

/-- Functions that are not to be called while the story looks ahead are called where no newline may
be gone back to. Behind a newline they are put off: the line ends there and the story goes on from
the newline, unless it fails while it builds a string or leaves a dead end. -/
theorem unsafe_calls_wait (reachable : story.Reachable) : operation.CallsWait story where
  made := calls_of_steps operation story
  reached := fun _ _ _ asks careful settled succeeds =>
    call_of_request asks careful settled succeeds
  deferred := fun continues _ _ _ _ steps putsOff => waits_behind continues steps putsOff
  aside := fun pauses unfinished _ waits => aside_waits pauses unfinished waits
  back := fun continues clean newline after run waits => by
    have steps := steps_looksOn_clean continues reachable.looksOn clean
    have goesOn : newline.canContinue = true := by
      obtain ⟨-, waits⟩ | ⟨step, taken, pending, -⟩ := waits
      · exact reachable.looksOn newline waits.snapshot
      · exact (steps step taken).1 newline pending
    obtain ⟨final, last, wentBack, listed, putOff, taken, same, stops⟩ :=
      last_of_line continues run waits
    refine ⟨final, listed, ?_⟩
    obtain ⟨succeeds, back, still⟩ | ⟨stopped, report, fails⟩ := last_waits putOff taken
    · cases unfinished : after.inLine with
      | true =>
        rw [unfinished] at same stops
        obtain rfl : after = last := same
        cases wentBack with
        | false => exact still rfl
        | true => contradiction
      | false =>
        rw [unfinished] at same
        obtain rfl : after = last.endLine := same
        have kept : last.state.errors = [] :=
          (errors_of_succeeds succeeds taken).trans (steps final (mem_of_getLast? listed)).2
        rw [succeeds]
        exact backAt_endLine back kept goesOn
    · rw [stopped, Bool.not_false, Bool.or_true, Bool.not_eq_true'] at stops
      rw [stops, fails]
      exact ⟨report, rfl⟩

end Lines

/-- Operations one after another, up to one that fails. -/
def performAll : List Operation → Play Unit
  | [] => pure ()
  | operation :: rest => do
    operation.perform
    performAll rest

/-- What operations keep that succeed, all of them keep. -/
theorem performAll_invariant {holds : Story → Prop}
    (kept : ∀ operation ∈ operations, ∀ before next, operation.perform before = .ok () next →
      holds before → holds next)
    (done : performAll operations story = .ok () after) (held : holds story) : holds after := by
  induction operations generalizing story with
  | nil =>
    cases done
    exact held
  | cons operation rest ih =>
    obtain ⟨first, others⟩ := forall_mem_cons.mp kept
    obtain ⟨_, next, run, done⟩ := bind_eq_ok_iff.mp done
    exact ih others done (first story next run held)

theorem reachable_perform {next : Story} (run : operation.perform story = .ok () next)
    (reachable : story.Reachable) :
    next.Reachable := by
  have further : (operation.after story).Reachable := by
    refine .after reachable operation fun left => ?_
    rw [run]
    exact nofun
  rwa [after, run] at further

theorem reachable_performAll (done : performAll operations story = .ok () after)
    (reachable : story.Reachable) :
    after.Reachable :=
  performAll_invariant (fun _ _ _ _ => reachable_perform) done reachable

/-- A program of a line and something behind its newline. -/
def lineAnd (behind : List Content) : Program where
  root := .mk none {} ((.ofText "Hello" :: .ofText "\n" :: behind).map .content) []

/-- The host has a function that is not to be called while the story looks ahead. -/
def bindCareful : Operation := .bind "host" (.ofConstant "host" (.int 41)) false

/-- Where a step comes to a call behind a newline that is not to be made there, it puts it off. -/
theorem exists_putsOff {steps : List Story}
    (found : ∃ step ∈ steps, step.snapshot.isSome ∧
      step.request?.any fun request => step.isUnsafe request.function) :
    ∃ newline, ∃ step ∈ steps, PutsOff newline step := by
  obtain ⟨step, taken, pending, asks⟩ := found
  obtain ⟨newline, pending⟩ := isSome_iff_exists.mp pending
  obtain ⟨request, asks, careful⟩ := (Option.any_eq_true _ _).mp asks
  exact ⟨newline, step, taken, pending, request, asks, careful⟩

/-- A call in a line of its own. -/
@[irreducible]
def callBehindNewline : Program :=
  lineAnd [.command .beginEvaluation, .divert { target := .external "host" 0 },
    .command .outputValue, .command .endEvaluation, .ofText "\n", .command .done]

theorem putOff_callBehindNewline :
    ∃ story newline after, story.Reachable ∧ (∃ step ∈ nextLine.steps story, PutsOff newline step) ∧
      nextLine.perform story = .ok () after ∧
      BackAt newline after.state ∧ after.state.errors = [] ∧ after.canContinue = true := by
  obtain ⟨fresh, started, story, bound, clean, found, succeeds, after, run, complete⟩ :
      ∃ fresh, start callBehindNewline {} = .ok fresh ∧
        ∃ story, performAll [bindCareful] fresh = .ok () story ∧ story.state.errors = [] ∧
          (∃ step ∈ nextLine.steps story, step.snapshot.isSome ∧
            step.request?.any fun request => step.isUnsafe request.function) ∧
          (nextLine.steps story).getLast?.bind failure? = none ∧
          ∃ after, nextLine.perform story = .ok () after ∧ after.inLine = false := by
    decide +kernel
  have reachable := reachable_performAll bound (.start started)
  obtain ⟨newline, found⟩ := exists_putsOff found
  obtain ⟨last, listed, back⟩ :=
    (unsafe_calls_wait reachable).back rfl clean newline after run (.inr found)
  rw [listed, bind_some] at succeeds
  rw [complete, succeeds] at back
  exact ⟨story, newline, after, reachable, found, run, back⟩

/-- A call within a string, whose answer is added to. -/
@[irreducible]
def callInString : Program :=
  lineAnd [.command .beginEvaluation, .command .beginString, .command .beginEvaluation,
    .divert { target := .external "host" 0 }, .value (.int 1), .operator .add,
    .command .outputValue, .command .endEvaluation, .command .endString, .command .outputValue,
    .command .endEvaluation, .ofText "\n", .command .done]

/-- Behind a call that was put off within a string the line goes on, and notes errors. -/
theorem errors_behind_putOff_call :
    ∃ story newline after, story.Reachable ∧ story.state.errors = [] ∧
      (∃ step ∈ nextLine.steps story, PutsOff newline step) ∧
      nextLine.perform story = .ok () after ∧
      after.state.errors =
        ["RUNTIME ERROR: (7): trying to pop too many objects (2 of 1)",
          "RUNTIME ERROR: (2): ran out of content. Do you need a '-> DONE' or '-> END'?"] ∧
      after.canContinue = false := by
  obtain ⟨fresh, started, story, bound, clean, found, after, run, fails⟩ :
      ∃ fresh, start callInString {} = .ok fresh ∧
        ∃ story, performAll [bindCareful] fresh = .ok () story ∧ story.state.errors = [] ∧
          (∃ step ∈ nextLine.steps story, step.snapshot.isSome ∧
            step.request?.any fun request => step.isUnsafe request.function) ∧
          ∃ after, nextLine.perform story = .ok () after ∧
            after.state.errors =
              ["RUNTIME ERROR: (7): trying to pop too many objects (2 of 1)",
                "RUNTIME ERROR: (2): ran out of content. Do you need a '-> DONE' or '-> END'?"] ∧
            after.canContinue = false := by
    decide +kernel
  obtain ⟨newline, found⟩ := exists_putsOff found
  exact ⟨story, newline, after, reachable_performAll bound (.start started), clean, found, run,
    fails⟩

end Operation

end InkStory
