import InkStory.Proofs.TextOrder
import InkStory.Proofs.Walks

/-! # Calls and returns

A divert that calls pushes a frame, and the return command of its kind pops it. In between, the frames
beneath it are kept, and behind the return the story goes on with the object that follows the divert in
the text (`Story.Walks.call_discipline`). -/

namespace InkStory

open Play Program Thread

namespace Story

open CallStack

variable {story next last : Story} {steps : List Story} {pointer : Pointer} {index : Nat}
  {object : Place × Content} {caller : Story}

/-! ### Calls -/

/-- The next step is a call: its divert pushes a frame of a kind on the running thread. -/
structure Calls (story : Story) (address : Address) (position : Nat) (divert : Divert)
    (kind : FrameKind) : Prop where
  object : story.object? = some (.content address position, .divert divert)
  waiting : story.carriedOut.state.callStack.waiting.length = story.state.callStack.waiting.length
  pushed : story.carriedOut.state.callStack.height = story.state.callStack.height + 1
  kind : story.carriedOut.state.callStack.frame.kind = kind

variable {address : Address} {position : Nat} {divert : Divert} {kind : FrameKind}

section

variable (takes : story.Takes next)

include takes

section

variable (calls : story.Calls address position divert kind)

include calls

/-- A call goes on where its divert leads. -/
theorem Takes.pushed_of_calls :
    ∃ stack outputLength, story.descended.state.callStack.Still stack ∧
      story.carriedOut.state.callStack = stack.push kind 0 outputLength ∧
      ∃ pointer, story.carriedOut.state.diverted = some pointer := by
  have goesOn : story.forcesEnd = false := by simp [forcesEnd, calls.object]
  have height : story.descended.state.callStack.height = story.state.callStack.height :=
    story.quiet_descended.length_below
  have waiting := story.quiet_descended.waiting
  have pushed := calls.pushed
  cases takes.carried_cases calls.object goesOn with
  | quiet quiet =>
    have same : story.carriedOut.state.callStack.height =
        story.descended.state.callStack.height := quiet.length_below
    omega
  | @call other kindToo outputLength stack isDivert still push diverted =>
    have kinds : kindToo = kind := by
      rw [← calls.kind, push]
      rfl
    rw [kinds] at push
    exact ⟨stack, outputLength, still, push, Option.isSome_iff_exists.mp diverted⟩
  | back left =>
    have lower := height_drop_le story.descended.state.callStack
    rw [← left] at lower
    omega
  | join joined =>
    have threads := calls.waiting
    rw [joined, ← waiting] at threads
    rw [joined] at pushed
    unfold popThread at threads pushed
    split at threads
    · next first others waits =>
      rw [waits] at threads
      simp at threads
    · next waits =>
      rw [waits] at pushed
      dsimp only at pushed
      omega
  | assign assigned reaches =>
    have same := height_setTemporary assigned
    omega

/-- Behind the moment of the call nothing happens but in the pushed frame. -/
theorem Takes.quiet_call : story.carriedOut.state.callStack.Quiet next.state.callStack := by
  obtain ⟨stack, outputLength, still, pushed, pointer, diverted⟩ := takes.pushed_of_calls calls
  obtain ⟨here, stands, -⟩ := Option.bind_eq_some_iff.mp calls.object
  have goes : story.carriedOut.state.pointer.isNone = false := by
    have same : story.carriedOut.state.pointer = story.descended.state.pointer := by
      rw [State.pointer, pushed]
      exact still.frame.pointer
    rw [same, stands]
    rfl
  have starts : story.startsThread = false := by simp [startsThread, calls.object]
  have moved : next.state = story.carriedOut.state.moveOn story.program := by
    rw [takes.state, movedOn, goes, starts]
    rfl
  rw [moved]
  exact State.moveOn_of_diverted diverted

/-- Behind a call the pushed frame runs. -/
theorem Takes.called :
    next.state.callStack.waiting.length = story.state.callStack.waiting.length ∧
      next.state.callStack.height = story.state.callStack.height + 1 ∧
      next.state.callStack.frame.kind = kind := by
  have quiet := takes.quiet_call calls
  have height : next.state.callStack.height = story.carriedOut.state.callStack.height :=
    quiet.length_below
  refine ⟨?_, height.trans calls.pushed, quiet.kind.trans calls.kind⟩
  rw [quiet.waiting]
  exact calls.waiting

/-- At the moment of the call the caller stands at the divert, beneath the pushed frame. -/
theorem Takes.caller_frame :
    ∃ frame, story.carriedOut.state.callStack.current.frameAt? story.state.callStack.height =
        some frame ∧
      story.descended.state.callStack.frame.Keeps frame := by
  obtain ⟨stack, outputLength, still, pushed, -⟩ := takes.pushed_of_calls calls
  have height : story.descended.state.callStack.height = story.state.callStack.height :=
    story.quiet_descended.length_below
  have heightToo : stack.height = story.descended.state.callStack.height := still.quiet.length_below
  have more : (stack.push kind 0 outputLength).current.frames.reverse =
      stack.current.frames.reverse ++ [(stack.push kind 0 outputLength).frame] := List.reverse_cons
  have top : stack.current.frameAt? story.state.callStack.height = some stack.frame := by
    rw [← height, ← heightToo]
    exact frameAt?_top _
  obtain ⟨frame, there⟩ := exists_frameAt?
    (calls.pushed ▸ Nat.le_succ _ :
      story.state.callStack.height ≤ story.carriedOut.state.callStack.height)
  have same : frame = stack.frame := by
    rw [pushed] at there
    exact agree_of_append more top there
  exact ⟨frame, there, same ▸ still.frame⟩

theorem Takes.stays_called :
    Stays (fun _ _ => False) next.state.callStack.waiting.length next.state.callStack.height
      story.carriedOut.state.callStack next.state.callStack := by
  have quiet := takes.quiet_call calls
  have running (stack : CallStack) : (stack.frameAt? stack.waiting.length stack.height).isSome := by
    rw [frameAt?_running, height, frameAt?_top]
    rfl
  have before := running story.carriedOut.state.callStack
  rw [← quiet.waiting, show story.carriedOut.state.callStack.height = next.state.callStack.height from
    quiet.length_below.symm] at before
  exact (quiet.steady.stays before (running _)).mono fun _ _ reached => reached.1

end

end

/-! ### Returns -/

/-- The kind of the frame that the next step leaves, if it is a return command. -/
def returns? (story : Story) : Option FrameKind := story.object?.bind fun object => object.2.returns?

/-- The next step returns from a tunnel that is told to go on elsewhere than behind its call. -/
def overridesReturn (story : Story) : Bool :=
  story.object?.any fun object => story.descended.state.overridesReturn object.2

/-- A return command pops one frame, of its kind, unless the host waits for the running one. -/
theorem Takes.returned (takes : story.Takes next) (returns : story.returns? = some kind)
    (runs : story.state.callStack.inHostCall = false) :
    story.state.callStack.frame.kind = kind ∧
      story.carriedOut.state.callStack.waiting = story.state.callStack.waiting ∧
      story.carriedOut.state.callStack.height + 1 = story.state.callStack.height ∧
      story.carriedOut.state.callStack = story.descended.state.callStack.drop ∧
      (story.overridesReturn = false → story.carriedOut.state.diverted = story.state.diverted) := by
  obtain ⟨⟨place, content⟩, object, returns⟩ := Option.bind_eq_some_iff.mp returns
  have quiet := story.quiet_descended
  have runsToo : story.descended.state.callStack.inHostCall = false := by
    rw [inHostCall, quiet.kind]
    exact runs
  rcases Play.return_carryOut (holds_of_object object) returns (takes.carried object) with
    ⟨waits, -⟩ | ⟨-, pops, left, goesOn⟩
  · rw [runsToo] at waits
    contradiction
  · simp only [canPopKind, canPop, Bool.and_eq_true, Bool.not_eq_true', beq_iff_eq] at pops
    obtain ⟨canPop, matches_⟩ := pops
    obtain ⟨first, below, frames⟩ :=
      List.exists_cons_of_ne_nil (List.isEmpty_eq_false_iff.mp canPop)
    have dropped : story.descended.state.callStack.drop.waiting = story.state.callStack.waiting ∧
        story.descended.state.callStack.drop.height + 1 = story.state.callStack.height := by
      have same := quiet.length_below
      rw [frames] at same
      unfold drop
      rw [frames]
      exact ⟨quiet.waiting, same⟩
    refine ⟨quiet.kind.symm.trans matches_, ?_, ?_, left, fun plain => ?_⟩
    · rw [left]
      exact dropped.1
    · rw [left]
      exact dropped.2
    · rw [goesOn (by simpa [overridesReturn, object] using plain)]
      exact story.kept_descended.1

/-- What a return command leaves running is the frame beneath the one that it pops. -/
theorem Takes.keeps_caller (takes : story.Takes next) (returns : story.returns? = some kind)
    (runs : story.state.callStack.inHostCall = false) {height : Nat} {frame : Frame}
    (beneath : story.state.callStack.height = height + 1)
    (there : story.state.callStack.current.frameAt? height = some frame) :
    frame.Keeps story.carriedOut.state.callStack.frame := by
  obtain ⟨-, -, lower, left, -⟩ := takes.returned returns runs
  have quiet := story.quiet_descended
  have within : height < story.state.callStack.current.below.length := by
    rw [CallStack.height] at beneath
    omega
  have top : story.descended.state.callStack.current.frameAt? height =
      some story.carriedOut.state.callStack.frame := by
    have below := quiet.length_below
    rw [left]
    unfold drop
    split
    · next first others frames =>
      rw [frames] at below
      rw [Thread.frameAt?_of_lt (by rw [frames, below]; exact within), frames, List.reverse_cons,
        List.getElem?_append_right (by simp at below ⊢; rw [CallStack.height] at beneath; omega)]
      have last : height - others.reverse.length = 0 := by
        simp at below ⊢
        omega
      rw [last]
      rfl
    · next frames =>
      rw [frames] at below
      simp at below
      omega
  exact (quiet.beneath within there top).1

/-! ### The next object -/

/-- The next object that a story evaluates: it comes to it by steps that evaluate nothing. -/
inductive Comes (object : Place × Content) : Story → Story → Prop where
  | here {story : Story} (next : story.object? = some object) : Comes object story story
  | passes {story next later : Story} (nothing : story.object? = none)
      (taken : step story = .ok () next) (rest : Comes object next later) :
      Comes object story later

/-- Without diverts a story comes to the first object that lies ahead, and evaluates expressions as
before. -/
theorem comes_of_stops {stops : List Pointer} (here : story.state.pointer = some pointer)
    (position : pointer.index = some index)
    (within : index < (story.program.container pointer.container).size)
    (landed : story.state.diverted = none)
    (ahead : story.program.stopsFrom pointer.container index = stops)
    (first : (stops.filterMap story.program.objectAt?).head? = some object) :
    ∃ later, Comes object story later ∧ later.state.evaluating = story.state.evaluating := by
  induction stops generalizing story pointer index with
  | nil => contradiction
  | cons stop rest ih =>
    have start : pointer = ⟨pointer.container, some index⟩ := by rw [← position]
    obtain ⟨stopIndex, stands, split⟩ := stop_descend within
    rw [ahead, ← start] at split
    rw [← start] at stands
    obtain ⟨same, behind⟩ := List.cons.inj split
    have there := descended_of_pointer here
    rw [← same] at there stands behind
    cases found : story.program.objectAt? stop with
    | some object =>
      rw [List.filterMap_cons, found] at first
      cases first
      refine ⟨story, .here ?_, rfl⟩
      rw [object?, there]
      exact found
    | none =>
      -- an empty container is passed, and the stops behind it lie ahead
      rw [List.filterMap_cons, found] at first
      have nothing : story.object? = none := by
        rw [object?, there]
        exact found
      have follows : ∃ pointer, story.program.next? stop = some pointer := by
        cases following : story.program.next? stop with
        | some pointer => exact ⟨pointer, rfl⟩
        | none =>
          rw [Program.next?, stands] at following
          rw [behind, stopsFrom_of_following_none following] at first
          contradiction
      obtain ⟨next, follows⟩ := follows
      obtain ⟨diverted, evaluating, -⟩ := story.kept_descended
      have moved := State.moveOn_of_next (diverted.trans landed) there follows
      rw [Program.next?, stands] at follows
      obtain ⟨nextIndex, nextPosition, nextWithin, same⟩ :=
        stopsFrom_following follows
      have program := story.program_descended
      have onward : ∃ later,
          Comes object (story.descended.modifyState fun state => state.moveOn story.program)
            later ∧
          later.state.evaluating =
            (story.descended.state.moveOn story.program).evaluating := by
        refine ih (congrArg State.pointer moved) nextPosition ?_ State.diverted_moveOn ?_ ?_
        · exact program.symm ▸ nextWithin
        · rw [behind, ← same]
          exact program ▸ rfl
        · exact program.symm ▸ first
      obtain ⟨later, comes, kept⟩ := onward
      exact ⟨later, .passes nothing (step_of_nothing here nothing) comes,
        kept.trans ((congrArg State.evaluating moved).trans evaluating)⟩

/-- Where the text goes on behind a position, so does a story that stands there. -/
theorem next_of_objects {program : Program} (position : pointer.index = some index)
    (first : (program.objectsFrom pointer.container (index + 1)).head? = some object) :
    ∃ next nextIndex, program.next? pointer = some next ∧ next.index = some nextIndex ∧
      nextIndex < (program.container next.container).size ∧
      program.objectsFrom next.container nextIndex =
        program.objectsFrom pointer.container (index + 1) := by
  cases following : program.next? pointer with
  | none =>
    rw [Program.next?, position] at following
    rw [Program.objectsFrom, stopsFrom_of_following_none following] at first
    contradiction
  | some next =>
    rw [Program.next?, position] at following
    obtain ⟨nextIndex, nextPosition, within, same⟩ := stopsFrom_following following
    exact ⟨next, nextIndex, rfl, nextPosition, within, by rw [Program.objectsFrom, same]; rfl⟩

/-- Behind a return command the story comes to the object that follows where the frame beneath
stands. -/
theorem Takes.comes_behind (takes : story.Takes next) (returns : story.returns? = some kind)
    (runs : story.state.callStack.inHostCall = false) (plain : story.overridesReturn = false)
    (landed : story.Landed) (stands : story.carriedOut.state.pointer = some pointer)
    (position : pointer.index = some index)
    (first : (story.program.objectsFrom pointer.container (index + 1)).head? = some object) :
    ∃ later, next.Comes object later ∧
      later.state.evaluating = story.carriedOut.state.evaluating := by
  obtain ⟨-, -, -, -, goesOn⟩ := takes.returned returns runs
  obtain ⟨⟨place, content⟩, object, returns⟩ := Option.bind_eq_some_iff.mp returns
  have running : story.state.pointer ≠ none := by
    intro stopped
    rw [object?, descended, stopped] at object
    rw [stopped] at object
    contradiction
  have diverted : story.carriedOut.state.diverted = none :=
    (goesOn plain).trans (landed.resolve_right running)
  have starts : story.startsThread = false := by
    have other : content ≠ .command .startThread := by
      rintro rfl
      contradiction
    simp [startsThread, object, other]
  have moved : next.state = story.carriedOut.state.moveOn story.program := by
    rw [takes.state, movedOn, stands, starts]
    rfl
  obtain ⟨behind, nextIndex, follows, nextPosition, within, same⟩ := next_of_objects position first
  rw [State.moveOn_of_next diverted stands follows] at moved
  have program := takes.program
  obtain ⟨later, comes, kept⟩ := comes_of_stops (congrArg State.pointer moved) nextPosition
    (program.symm ▸ within) ((congrArg State.diverted moved).trans diverted) rfl
    (by rw [program]; exact same.symm ▸ first)
  rw [moved] at kept
  exact ⟨later, comes, kept⟩

/-! ### Calls and returns along a walk -/

/-- How calls and returns are kept apart along a walk from a story to another. -/
structure CallDiscipline (story : Story) (steps : List Story) (last : Story) : Prop where
  /-- While a frame is there, the frames beneath it on its thread are kept, but for variables that
  steps assign through pointers while the thread runs. -/
  frames : ∀ position height,
    (∀ moment ∈ trail steps last, (moment.frameAt? position height).isSome) →
    Stays (fun name lower => ∃ step ∈ steps, step.Reaches name lower ∧
        position = step.state.callStack.waiting.length) position height
      story.state.callStack last.state.callStack
  /-- The same holds from the moment at which a divert pushes the frame. -/
  called : ∀ caller address position divert kind, caller.Calls address position divert kind →
    Play.step caller = .ok () story →
    (∀ moment ∈ trail steps last, (moment.frameAt? story.state.callStack.waiting.length
      story.state.callStack.height).isSome) →
    Stays (fun name lower => ∃ step ∈ steps, step.Reaches name lower ∧
        story.state.callStack.waiting.length = step.state.callStack.waiting.length)
      story.state.callStack.waiting.length story.state.callStack.height
      caller.carriedOut.state.callStack last.state.callStack
  /-- A thread is kept while another runs behind it. -/
  threads : ∀ position, (∀ moment ∈ trail steps last, position + 1 < moment.threads.length) →
    last.state.callStack.threads[position]? = story.state.callStack.threads[position]?
  /-- A return command pops one frame, of its kind; where the host waits for the running frame it
  pops none. -/
  returns : ∀ kind after, last.returns? = some kind → last.state.callStack.inHostCall = false →
    Play.step last = .ok () after →
    last.state.callStack.frame.kind = kind ∧
      last.carriedOut.state.callStack.waiting = last.state.callStack.waiting ∧
      last.carriedOut.state.callStack.height + 1 = last.state.callStack.height
  /-- The frame that a return command pops is of the kind that a divert pushed it as. Unless a tunnel
  is told to go on elsewhere, the next object is the one that follows the divert in the text, and it
  is evaluated as an expression if the divert was. -/
  resumes : ∀ caller address position divert kind returned after, caller.Calls address position divert kind →
    Play.step caller = .ok () story →
    (∀ moment ∈ trail steps last, (moment.frameAt? story.state.callStack.waiting.length
      story.state.callStack.height).isSome) →
    last.state.callStack.waiting.length = story.state.callStack.waiting.length →
    last.state.callStack.height = story.state.callStack.height →
    last.returns? = some returned → last.state.callStack.inHostCall = false →
    Play.step last = .ok () after →
    returned = kind ∧
      (last.overridesReturn = false →
        (∃ before, story.program.textAround (.content address position) =
          before ++ (.content address position, .divert divert) ::
            story.program.objectsFrom address (position + 1)) ∧
        ∀ object ∈ (story.program.objectsFrom address (position + 1)).head?,
          ∃ later, after.Comes object later ∧
            later.state.evaluating = caller.state.evaluating)

/-- From the moment at which a divert pushes a frame, those beneath it are kept. -/
theorem Walks.stays_called (walk : story.Walks steps last) {caller : Story}
    (calls : caller.Calls address position divert kind) (taken : Play.step caller = .ok () story)
    (there : ∀ moment ∈ trail steps last, (moment.frameAt? story.state.callStack.waiting.length
      story.state.callStack.height).isSome) :
    Stays (fun name lower => ∃ step ∈ steps, step.Reaches name lower ∧
        story.state.callStack.waiting.length = step.state.callStack.waiting.length)
      story.state.callStack.waiting.length story.state.callStack.height
      caller.carriedOut.state.callStack last.state.callStack :=
  (((takes_of_step taken).stays_called calls).mono fun _ _ => False.elim).trans
    (walk.stays there)

/-- Where the frame that a divert pushed is on top again, its kind is the one it was pushed as, and
beneath it the caller stands at the divert and evaluates as it did. -/
theorem Walks.caller_kept (walk : story.Walks steps last)
    (calls : caller.Calls address position divert kind) (taken : Play.step caller = .ok () story)
    (there : ∀ moment ∈ trail steps last, (moment.frameAt? story.state.callStack.waiting.length story.state.callStack.height).isSome)
    (waiting : last.state.callStack.waiting.length = story.state.callStack.waiting.length)
    (height : last.state.callStack.height = story.state.callStack.height) :
    last.state.callStack.frame.kind = kind ∧
      ∃ frame, last.state.callStack.current.frameAt? caller.state.callStack.height = some frame ∧
        caller.descended.state.callStack.frame.Keeps frame := by
  have takes := takes_of_step taken
  obtain ⟨threads, deeper, kinds⟩ := takes.called calls
  have stays := walk.stays_called calls taken there
  have quiet := takes.quiet_call calls
  constructor
  · obtain ⟨frame, later, found, foundLater, same, -⟩ := stays.own
    rw [← waiting, ← height, frameAt?_running, CallStack.height, frameAt?_top] at foundLater
    rw [quiet.waiting, frameAt?_running, CallStack.height, quiet.length_below,
      frameAt?_top] at found
    cases found
    cases foundLater
    exact same.trans calls.kind
  · obtain ⟨frame, stands, keeps⟩ := takes.caller_frame calls
    obtain ⟨found, later, here, there, kept, -⟩ :=
      stays.beneath caller.state.callStack.height (by omega)
    rw [quiet.waiting, frameAt?_running, stands] at here
    cases here
    rw [← waiting, frameAt?_running] at there
    exact ⟨later, there, keeps.trans kept⟩

/-- Calls and returns follow their discipline along every walk. -/
theorem Walks.call_discipline (walk : story.Walks steps last) :
    story.CallDiscipline steps last where
  frames _ _ there := walk.stays there
  called _ _ _ _ _ calls taken there := walk.stays_called calls taken there
  threads position waits := walk.waits fun moment member => by
    have runs := waits moment member
    rw [length_threads] at runs
    omega
  returns kind after returns runs taken := by
    obtain ⟨kinds, waiting, height, -⟩ := (takes_of_step taken).returned returns runs
    exact ⟨kinds, waiting, height⟩
  resumes caller address position divert kind returned after calls taken there waiting height returns runs
      back := by
    have takes := takes_of_step back
    obtain ⟨pushedKind, frame, stands, keeps⟩ := walk.caller_kept calls taken there waiting height
    obtain ⟨kinds, -⟩ := takes.returned returns runs
    refine ⟨kinds.symm.trans pushedKind, fun plain => ?_⟩
    have called := (takes_of_step taken).called calls
    have resumed := keeps.trans
      (takes.keeps_caller returns runs (height.trans called.2.1) stands)
    obtain ⟨pointer, here, object⟩ := Option.bind_eq_some_iff.mp calls.object
    obtain ⟨rfl, text⟩ := textAround_of_objectAt object
    have program : story.program = caller.program := (takes_of_step taken).program
    rw [program]
    refine ⟨text, fun object first => ?_⟩
    have landed : last.Landed := walk.landed (takes_of_step taken).landed
    obtain ⟨later, comes, evaluating⟩ := takes.comes_behind returns runs plain landed
      (resumed.pointer.trans here) rfl (by rw [walk.program_eq, program]; exact first)
    exact ⟨later, comes, evaluating.trans (resumed.evaluating.trans caller.kept_descended.2.1)⟩

/-- The divert of a call of a function. -/
def lendingCall : Divert := { target := .path (Path.parse "f"), pushes := some .function }

/-- A story that lends a variable of its own to a function, which assigns it and returns; an empty
container stands behind the call. -/
def lendingProgram : Program where
  root :=
    .mk none {}
      [.content (.command .beginEvaluation), .content (.value (.int 3)),
        .content (.assignment ⟨"x", true, false⟩), .content (.value (.variablePointer "x" .unknown)),
        .content (.divert lendingCall), .container (.mk none {} [] []),
        .content (.command .outputValue), .content (.command .endEvaluation),
        .content (.command .done)]
      [("f",
        .mk (some "f") {}
          [.content (.assignment ⟨"r", true, false⟩), .content (.command .beginEvaluation),
            .content (.value (.int 5)), .content (.assignment ⟨"r", false, false⟩),
            .content (.value (.int 7)), .content (.command .endEvaluation),
            .content (.command .returnFromFunction)] [])]

instance (story : Story) (address : Address) (position : Nat) (divert : Divert) (kind : FrameKind) :
    Decidable (story.Calls address position divert kind) :=
  decidable_of_iff
    (story.object? = some (.content address position, .divert divert) ∧
      story.carriedOut.state.callStack.waiting.length = story.state.callStack.waiting.length ∧
      story.carriedOut.state.callStack.height = story.state.callStack.height + 1 ∧
      story.carriedOut.state.callStack.frame.kind = kind)
    ⟨fun ⟨object, waiting, pushed, kind⟩ => ⟨object, waiting, pushed, kind⟩,
      fun calls => ⟨calls.object, calls.waiting, calls.pushed, calls.kind⟩⟩

set_option synthInstance.maxSize 200 in
theorem lending_call_discipline :
    ∃ caller story steps last after, caller.Calls [] 4 lendingCall .function ∧
      Play.step caller = .ok () story ∧ story.Walks steps last ∧ Play.step last = .ok () after ∧
      ((story.state.callStack.frameAt? 0 0).bind fun frame => frame.temporaries.get? "x") =
        some (.int 3) ∧
      ((last.state.callStack.frameAt? 0 0).bind fun frame => frame.temporaries.get? "x") =
        some (.int 5) ∧
      (∃ step ∈ steps, step.Reaches "x" 0) ∧
      ∃ later, after.Comes (.content [] 6, .command .outputValue) later ∧
        later.state.evaluating = true := by
  obtain ⟨⟨_, caller⟩, -, calls, evaluating, story, called, before, waiting, height, ⟨steps, last⟩,
      walked, behind, there, waitingToo, heightToo, returns, runs, plain, first, after, returned, -⟩ :
      ∃ first ∈ walk? { program := lendingProgram, config := {}, state := .atStart {} } 4,
        first.2.Calls [] 4 lendingCall .function ∧ first.2.state.evaluating = true ∧
        ∃ story, Play.step first.2 = .ok () story ∧
          ((story.state.callStack.frameAt? 0 0).bind fun frame => frame.temporaries.get? "x") =
            some (.int 3) ∧
          story.state.callStack.waiting.length = 0 ∧ story.state.callStack.height = 1 ∧
          ∃ walk ∈ story.walk? 6,
            ((walk.2.state.callStack.frameAt? 0 0).bind fun frame =>
              frame.temporaries.get? "x") = some (.int 5) ∧
            (∀ moment ∈ trail walk.1 walk.2, (moment.frameAt? 0 1).isSome) ∧
            walk.2.state.callStack.waiting.length = 0 ∧ walk.2.state.callStack.height = 1 ∧
            walk.2.returns? = some .function ∧ walk.2.state.callStack.inHostCall = false ∧
            walk.2.overridesReturn = false ∧
            (story.program.objectsFrom [] 5).head? =
              some (.content [] 6, .command .outputValue) ∧
            ∃ after, Play.step walk.2 = .ok () after ∧ after.inLine = false := by
    decide +kernel
  have walk := walks_of_walk? walked
  have discipline := walk.call_discipline
  refine ⟨caller, story, steps, last, after, calls, called, walk, returned, before, behind, ?_, ?_⟩
  · obtain ⟨frame, later, here, thereToo, -, reached⟩ :=
      (discipline.frames 0 1 there).beneath 0 (by decide)
    rw [here] at before
    rw [thereToo] at behind
    have assigned : later.temporaries.get? "x" ≠ frame.temporaries.get? "x" := by
      intro same
      rw [Option.bind_some] at before behind
      rw [before, behind] at same
      exact absurd same (by decide)
    obtain ⟨step, member, reaches, -⟩ := reached "x" assigned
    exact ⟨step, member, reaches⟩
  · obtain ⟨-, resumes⟩ := discipline.resumes caller [] 4 lendingCall .function .function after calls
      called (by rw [waiting, height]; exact there) (waitingToo.trans waiting.symm)
      (heightToo.trans height.symm) returns runs returned
    obtain ⟨later, comes, mode⟩ := (resumes plain).2 _ first
    exact ⟨later, comes, mode.trans evaluating⟩

end Story

end InkStory
