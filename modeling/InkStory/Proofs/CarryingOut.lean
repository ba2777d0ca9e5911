import InkStory.Proofs.Frames
import InkStory.Proofs.Moves

/-! # What an object does to the frames

A step carries out an object and moves on (`Play.takes_of_step`). Carrying it out shifts frames once at
most (`Play.carried_carryOut`): most objects leave them alone, a divert may call, a return command
leaves a frame of its kind (`Play.return_carryOut`), the end of a thread goes back to the one that
waits, and an assignment writes one temporary variable. -/

namespace InkStory

open CallStack Option Output Story

variable {scope : Scope} {name : String} {assignment : Assignment} {stack : CallStack}
  {after state : State} {content : Content} {program : Program} {kind : FrameKind}
  {story next : Story} {place : Place} {pointer : Pointer}

/-- The kind of the frame that a return command leaves. -/
def Content.returns? : Content → Option FrameKind
  | .command .returnFromFunction => some .function
  | .command .returnFromTunnel => some .tunnel
  | _ => none

/-- A tunnel is told to go on elsewhere than behind its call. -/
def State.overridesReturn (state : State) : Content → Bool
  | .command .returnFromTunnel =>
    match state.evaluation with
    | .value (.divertTarget _) :: _ => true
    | _ => false
  | _ => false

/-- From a variable, pointers lead to another, one after another. -/
inductive Scope.Follows (scope : Scope) : String → Context → String → Context → Prop where
  | last {name target : String} {context targetContext : Context}
      (points : scope.raw? name context = some (.variablePointer target targetContext)) :
      Follows scope name context target targetContext
  | next {name middle target : String} {context middleContext targetContext : Context}
      (points : scope.raw? name context = some (.variablePointer middle middleContext))
      (rest : Follows scope middle middleContext target targetContext) :
      Follows scope name context target targetContext

theorem Scope.follows_chase {target : String} {context targetContext : Context} (limit : Nat)
    (points : scope.raw? name context = some (.variablePointer target targetContext)) :
    scope.Follows name context (scope.chase limit target targetContext).1
      (scope.chase limit target targetContext).2 := by
  induction limit generalizing name context target targetContext with
  | zero => exact .last points
  | succ limit ih =>
    rw [chase]
    split
    · next further => exact .next points (ih further)
    · exact .last points

/-- An assignment to a frame that is named follows a pointer to a variable there. -/
theorem Scope.follows_destination {height : Nat}
    (named : (scope.destination assignment).context = .frame height) :
    assignment.isDeclaration = false ∧
      scope.Follows assignment.name .unknown (scope.destination assignment).name (.frame height) := by
  unfold destination at named ⊢
  split at named
  · contradiction
  · next declares =>
    refine ⟨by simpa using declares, ?_⟩
    rw [if_neg declares]
    split at named
    · next target context points =>
      have follows := follows_chase scope.pointerLimit points
      have resolved : scope.resolve assignment.name .unknown =
          scope.chase scope.pointerLimit target context := by rw [resolve, points]
      rw [← resolved] at follows
      rw [← named]
      exact follows
    · contradiction

/-- An object assigns a temporary variable of the frame at a height: its assignment declares nothing
and follows pointers to that variable, of which the last names the frame. -/
def State.Reaches (program : Program) (state : State) (content : Content) (name : String)
    (height : Nat) : Prop :=
  ∃ assignment, content = .assignment assignment ∧ assignment.isDeclaration = false ∧
    (state.scope program).Follows assignment.name .unknown name (.frame height)

/-! ### Objects that leave the frames alone -/

namespace CallStack

variable {middle after : CallStack}

/-- The frames of the running thread are as they were, but for the marks of where output begins. -/
structure Still (stack after : CallStack) : Prop where
  waiting : after.waiting = stack.waiting
  frames : after.current.frames.map Frame.unmarked = stack.current.frames.map Frame.unmarked

theorem Still.refl (stack : CallStack) : stack.Still stack := ⟨rfl, rfl⟩

theorem Still.trans (first : stack.Still middle) (second : middle.Still after) : stack.Still after :=
  ⟨second.waiting.trans first.waiting, second.frames.trans first.frames⟩

/-- The running frame is as it was. -/
theorem Still.frame (still : stack.Still after) : stack.frame.Keeps after.frame :=
  (Frame.Keeps.of_unmarked (List.cons.inj still.frames).1).1

theorem Still.quiet (still : stack.Still after) : stack.Quiet after :=
  ⟨still.waiting, (List.cons.inj still.frames).2, still.frame.kind, still.frame.stackHeight⟩

theorem Still.of_eq (same : after = stack) : stack.Still after := same ▸ .refl stack

theorem quiet_setPointer (pointer : Option Pointer) : stack.Quiet (stack.setPointer pointer) :=
  ⟨rfl, rfl, rfl, rfl⟩

theorem map_stopTrimming (frames : List Frame) :
    (stopTrimming frames).map Frame.unmarked = frames.map Frame.unmarked := by
  induction frames with
  | nil => rfl
  | cons frame below ih =>
    rw [stopTrimming]
    split
    · rw [List.map_cons, ih]
      rfl
    · rfl

theorem still_stopFunctionTrimming : stack.Still (stopFunctionTrimming stack) := by
  have same := map_stopTrimming stack.current.frames
  unfold stopFunctionTrimming
  split
  · next top below trimmed =>
    rw [trimmed] at same
    exact ⟨rfl, same⟩
  · exact .refl stack

end CallStack

namespace Output

variable {output : Output}

/-- Output changes nothing about the frames but the marks of where it begins. -/
theorem still_push : stack.Still (output.push stack content).2 := by
  refine push_invariant (P := fun reached => stack.Still reached.2) ?_ (.refl stack)
  rintro piece before after - (_ | ⟨-, rfl | rfl⟩) still
  · exact still
  · exact still
  · exact still.trans still_stopFunctionTrimming

end Output

namespace State

theorem Calm.still (calm : Calm program state after) : state.callStack.Still after.callStack := by
  cases calm with
  | emit content plain => exact still_push
  | _ => exact ⟨rfl, rfl⟩

end State

namespace Run

variable {α : Type} {divert : Divert} {origin : Place}

theorem Calming.still {run : Run α} {value : α} (calm : Calming program run state)
    (done : run state = .ok value after) : state.callStack.Still after.callStack := by
  have calms : Relation.ReflTransGen (State.Calm program) state after := by
    rw [Calming, Leads, done] at calm
    exact calm
  clear done
  induction calms with
  | refl => exact .refl _
  | tail _ last ih => exact ih.trans last.still

/-! ### Objects that shift frames -/

/-- What carrying out an object does to the frames. A call goes on where its divert leads. -/
inductive Carried (reaches : String → Nat → Prop) (content : Content) (state after : State) :
    Prop where
  | quiet (quiet : state.callStack.Quiet after.callStack)
  | call {divert : Divert} {kind : FrameKind} {outputLength : Nat} {stack : CallStack}
      (object : content = .divert divert) (still : state.callStack.Still stack)
      (pushed : after.callStack = stack.push kind 0 outputLength)
      (diverted : after.diverted.isSome)
  | back (left : after.callStack = state.callStack.drop)
  | join (joined : after.callStack = state.callStack.popThread)
  | assign {name : String} {value : Value} {declare : Bool} {context : Context}
      (assigned : state.callStack.setTemporary name value declare context = .ok after.callStack)
      (reached : ∀ height < state.callStack.height, context = .frame height → reaches name height)

variable {reaches : String → Nat → Prop} {request : Option HostRequest}

theorem finishJump_eq_ok (run : finishJump divert state = .ok request after) :
    request = none ∧
      (after.callStack = state.callStack ∨
        ∃ kind outputLength, after.callStack = state.callStack.push kind 0 outputLength ∧
          after.diverted.isSome) := by
  have rest {state : State} (run :
      (do
        if (← get).diverted.isNone then fault (.unresolvedDivert divert.description)
        return (none : Option HostRequest) : Run (Option HostRequest)) state = .ok request after) :
      request = none ∧ after = state ∧ after.diverted.isSome := by
    obtain ⟨known, run⟩ := of_refused run
    cases run
    exact ⟨rfl, rfl, by simpa [isSome_iff_ne_none] using known⟩
  unfold finishJump at run
  cases pushes : divert.pushes with
  | none =>
    rw [pushes] at run
    obtain ⟨rfl, rfl, -⟩ := rest run
    exact ⟨rfl, .inl rfl⟩
  | some kind =>
    rw [pushes] at run
    obtain ⟨_, middle, pushed, run⟩ := bind_eq_ok_iff.mp run
    cases pushed
    obtain ⟨rfl, rfl, diverted⟩ := rest run
    exact ⟨rfl, .inr ⟨kind, _, rfl, diverted⟩⟩

theorem carried_jump {start : State} (still : state.callStack.Still start.callStack)
    (run : jump program origin divert start = .ok request after) :
    (request = none ∧ Carried reaches (.divert divert) state after) ∨
      state.callStack.Still after.callStack := by
  have finish {middle : State} (still : state.callStack.Still middle.callStack)
      (run : finishJump divert middle = .ok request after) :
      (request = none ∧ Carried reaches (.divert divert) state after) ∨
        state.callStack.Still after.callStack := by
    obtain ⟨rfl, same | ⟨kind, outputLength, pushed, diverted⟩⟩ := finishJump_eq_ok run
    · rw [same]
      exact .inr still
    · exact .inl ⟨rfl, .call rfl still pushed diverted⟩
  unfold jump at run
  cases target : divert.target with
  | external function arguments =>
    rw [target] at run
    cases run
    exact .inr still
  | «variable» name =>
    rw [target] at run
    obtain ⟨_, middle, diverted, run⟩ := bind_eq_ok_iff.mp run
    exact finish (still.trans (Calming.still (calm_divertToVariable _) diverted)) run
  | path path =>
    rw [target] at run
    obtain ⟨_, middle, diverted, run⟩ := bind_eq_ok_iff.mp run
    cases diverted
    refine finish ?_ run
    exact still

/-- A divert calls, or leaves the frames alone. -/
theorem carried_performDivert
    (run : performDivert program origin divert state = .ok request after) :
    (request = none ∧ Carried reaches (.divert divert) state after) ∨
      state.callStack.Still after.callStack := by
  unfold performDivert at run
  split at run
  · obtain ⟨holds, middle, popped, run⟩ := bind_eq_ok_iff.mp run
    have calm : Calming program popCondition state := popping_popCondition.calm
    have still := calm.still popped
    split at run
    · cases run
      exact .inr still
    · exact carried_jump still run
  · exact carried_jump (.refl _) run

theorem divertTo_eq_ok {path : Path} (run : divertTo program path state = .ok () after) :
    after.callStack = state.callStack := by
  obtain ⟨pointer, middle, found, set⟩ := bind_eq_ok_iff.mp run
  cases set
  rw [pointerAt_apply] at found
  split at found
  · contradiction
  · cases found
    split <;> rfl

/-- A return leaves a frame of its kind, unless the host waits for the running one. -/
theorem returnFrom_eq_ok {target : Option Path}
    (run : returnFrom program kind target state = .ok () after) :
    (state.callStack.inHostCall ∧ after = state.exitHostCall) ∨
      (state.callStack.inHostCall = false ∧ state.callStack.canPopKind kind ∧
        ∃ middle, state.leaveFrame none = .ok middle ∧
          (do if let some path := target then divertTo program path : Run Unit) middle =
            .ok () after) := by
  unfold returnFrom at run
  rw [get_bind_apply] at run
  split at run
  · next waits =>
    cases run
    exact .inl ⟨waits, rfl⟩
  · next runs =>
    split at run
    · contradiction
    · next matches_ =>
      refine .inr ⟨by simpa using runs, by simpa using matches_, ?_⟩
      rw [get_bind_apply] at run
      obtain ⟨_, middle, left, run⟩ := bind_eq_ok_iff.mp run
      exact ⟨middle, ofState_eq_ok left, run⟩

/-- What a return command does: it drops a frame of its kind, unless the host waits for the running
one. -/
def Returned (kind : FrameKind) (content : Content) (state after : State) : Prop :=
  (state.callStack.inHostCall = true ∧ state.callStack.Quiet after.callStack ∧
      after.pointer = none) ∨
    (state.callStack.inHostCall = false ∧ state.callStack.canPopKind kind = true ∧
      after.callStack = state.callStack.drop ∧
      (state.overridesReturn content = false → after.diverted = state.diverted))

theorem return_performContent (returns : content.returns? = some kind)
    (run : performContent program origin content state = .ok request after) :
    request = none ∧ Returned kind content state after := by
  have ends {start : State} {target : Option Path}
      (same : start.callStack = state.callStack ∧ start.diverted = state.diverted)
      (told : state.overridesReturn content = false → target = none)
      (run : returnFrom program kind target start = .ok () after) :
      Returned kind content state after := by
    obtain ⟨stack, diverted⟩ := same
    rcases returnFrom_eq_ok run with ⟨waits, rfl⟩ | ⟨runs, matches_, middle, left, goes⟩
    · refine .inl ⟨stack ▸ waits, ?_, rfl⟩
      rw [← stack]
      exact quiet_setPointer none
    · obtain rfl := leaveFrame_eq_ok left
      rw [stack] at runs matches_
      refine .inr ⟨runs, matches_, ?_, fun plain => ?_⟩
      · cases target with
        | none =>
          cases goes
          rw [stack]
        | some path => rw [divertTo_eq_ok goes, stack]
      · cases told plain
        cases goes
        exact diverted
  unfold Content.returns? at returns
  split at returns
  · cases returns
    obtain ⟨_, middle, left, ended⟩ := bind_eq_ok_iff.mp run
    cases ended
    exact ⟨rfl, ends ⟨rfl, rfl⟩ (fun _ => rfl) left⟩
  · cases returns
    obtain ⟨_, middle, left, ended⟩ := bind_eq_ok_iff.mp run
    cases ended
    obtain ⟨target, start, found, left⟩ := bind_eq_ok_iff.mp left
    obtain ⟨top, _, popped, told⟩ := bind_eq_ok_iff.mp found
    obtain ⟨rest, stack, rfl⟩ := pop_eq_ok popped
    have same : start = { state with evaluation := rest } ∧
        (state.overridesReturn (.command .returnFromTunnel) = false → target = none) := by
      unfold State.overridesReturn
      rw [stack]
      cases top with
      | void =>
        cases told
        exact ⟨rfl, fun _ => rfl⟩
      | value value =>
        cases value with
        | divertTarget path =>
          cases told
          exact ⟨rfl, nofun⟩
        | _ => contradiction
      | _ => contradiction
    obtain ⟨rfl, goesBack⟩ := same
    refine ⟨rfl, ends ?_ goesBack left⟩
    exact ⟨rfl, rfl⟩
  · contradiction

/-- An assignment changes the call stack by writing a temporary variable at most. -/
theorem callStack_assign {value : Value}
    (assigned : state.assign program assignment value = .ok after) :
    after.callStack = state.callStack ∨
      ∃ value declare, state.callStack.setTemporary
        ((state.scope program).destination assignment).name value declare
        ((state.scope program).destination assignment).context = .ok after.callStack := by
  rw [State.assign_eq] at assigned
  split at assigned
  · cases assigned
    exact .inl rfl
  · obtain ⟨stack, temporary, rfl⟩ := exists_of_map assigned
    exact .inr ⟨_, _, temporary⟩

theorem carried_assign (run : assign program assignment state = .ok () after) :
    Carried (state.Reaches program (.assignment assignment)) content state after := by
  obtain ⟨top, middle, popped, run⟩ := bind_eq_ok_iff.mp run
  obtain ⟨rest, -, rfl⟩ := pop_eq_ok popped
  obtain ⟨value, _, checked, run⟩ := bind_eq_ok_iff.mp run
  obtain ⟨-, rfl⟩ := ofFault_eq_ok checked
  rcases callStack_assign (ofState_eq_ok run) with same | ⟨value, declare, temporary⟩
  · exact .quiet (Still.of_eq same).quiet
  · exact .assign temporary fun height _ named => ⟨assignment, rfl, Scope.follows_destination named⟩

theorem quiet_done_or_join (run : done state = .ok () after) :
    state.callStack.Quiet after.callStack ∨ after.callStack = state.callStack.popThread := by
  cases run
  dsimp only
  split
  · exact .inr rfl
  · exact .inl (quiet_setPointer none)

/-- The commands that choose between the evaluation stack and the output change the running frame. -/
theorem quiet_setEvaluating (state : State) (evaluating : Bool) :
    state.callStack.Quiet (state.setEvaluating evaluating).callStack := ⟨rfl, rfl, rfl, rfl⟩

theorem carried_perform {command : Command} (goesOn : command ≠ .finish)
    (run : perform program command state = .ok () after) :
    Carried reaches (.command command) state after := by
  have returned (kind : FrameKind) (returns : (Content.command command).returns? = some kind) :
      Carried reaches (.command command) state after := by
    have performed : performContent program default (.command command) state = .ok none after := by
      rw [performContent, bind_apply, run]
      rfl
    rcases return_performContent returns performed with ⟨-, ⟨-, quiet, -⟩ | ⟨-, -, left, -⟩⟩
    · exact .quiet quiet
    · exact .back left
  by_cases calm : command.isCalm
  · exact .quiet (Calming.still (@calm_perform program state command calm) run).quiet
  · cases command with
    | beginEvaluation =>
      obtain ⟨-, run⟩ := of_refused run
      cases run
      exact .quiet (quiet_setEvaluating state true)
    | endEvaluation =>
      obtain ⟨-, run⟩ := of_refused run
      cases run
      exact .quiet (quiet_setEvaluating state false)
    | returnFromFunction => exact returned .function rfl
    | returnFromTunnel => exact returned .tunnel rfl
    | beginString =>
      obtain ⟨-, run⟩ := of_refused run
      obtain ⟨_, middle, emitted, run⟩ := bind_eq_ok_iff.mp run
      cases run
      cases emitted
      have still (content : Content) : state.callStack.Still (state.emit content).callStack :=
        still_push
      exact .quiet ((still _).quiet.trans (quiet_setEvaluating _ false))
    | endString =>
      cases run
      exact .quiet (quiet_setEvaluating _ true)
    | done =>
      rcases quiet_done_or_join run with quiet | joined
      · exact .quiet quiet
      · exact .join joined
    | finish => exact absurd rfl goesOn
    | _ => exact absurd rfl calm

/-- What an object does to the frames, but for a call of the host, which only a divert asks for. One
that does not leave them alone is not content. -/
theorem carried_performContent (goesOn : content ≠ .command .finish)
    (run : performContent program origin content state = .ok request after) :
    (request = none ∧ deliver program origin content = pure () ∧
        Carried (state.Reaches program content) content state after) ∨
      (request = none ∨ ∃ divert, content = .divert divert) ∧
        state.callStack.Still after.callStack := by
  have calmed {run : Run Unit} (calm : Calming program run state)
      (done : (run >>= fun _ => pure none) state = .ok request after) :
      (request = none ∨ ∃ divert, content = .divert divert) ∧
        state.callStack.Still after.callStack := by
    obtain ⟨_, middle, done, ended⟩ := bind_eq_ok_iff.mp done
    cases ended
    exact ⟨.inl rfl, calm.still done⟩
  cases content with
  | divert divert =>
    rcases carried_performDivert run with ⟨rfl, carried⟩ | still
    · exact .inl ⟨rfl, rfl, carried⟩
    · exact .inr ⟨.inr ⟨divert, rfl⟩, still⟩
  | command command =>
    obtain ⟨_, middle, performed, ended⟩ := bind_eq_ok_iff.mp run
    cases ended
    exact .inl ⟨rfl, rfl, carried_perform (fun same => goesOn (same ▸ rfl)) performed⟩
  | assignment assignment =>
    obtain ⟨_, middle, assigned, ended⟩ := bind_eq_ok_iff.mp run
    cases ended
    exact .inl ⟨rfl, rfl, carried_assign assigned⟩
  | readCount path => exact .inr (calmed (calm_readCount origin path) run)
  | «variable» name => exact .inr (calmed (calm_readVariable name) run)
  | operator operator => exact .inr (calmed (calm_applyOperator operator) run)
  | _ =>
    cases run
    exact .inr ⟨.inl rfl, .refl _⟩

end Run

namespace Play

open Run

variable {after : Story}

/-- Evaluate an object that stands at a place, but do not move on. -/
def carryOut (place : Place) (content : Content) : Play Unit := do
  let program := (← get).program
  if let some request ← onState (Run.performContent program place content) then
    callHost request.function request.arguments
  if (← get).state.pointer.isSome then onState (Run.deliver program place content)

theorem onState_eq_ok {run : Run α} {value : α} (done : onState run story = .ok value after) :
    run story.state = .ok value after.state ∧ after = { story with state := after.state } := by
  rw [onState_apply] at done
  cases outcome : run story.state with
  | ok found state =>
    rw [outcome] at done
    cases done
    exact ⟨rfl, rfl⟩
  | error error state =>
    rw [outcome] at done
    contradiction

/-- A call of the host leaves the frames alone, or calls what the story has for it. -/
theorem callHost_eq_ok {count : Nat} (called : callHost name count story = .ok () after) :
    after.program = story.program ∧
      (story.state.callStack.Still after.state.callStack ∨
        ∃ outputLength,
          after.state.callStack = story.state.callStack.push .function 0 outputLength ∧
            after.state.diverted.isSome) := by
  rw [callHost, get_bind_apply] at called
  cases bound : story.bindings.get? name with
  | none =>
    rw [bound] at called
    obtain ⟨-, called⟩ := of_refused called
    cases known : story.program.knot? name with
    | none =>
      rw [known] at called
      contradiction
    | some fallback =>
      rw [known] at called
      obtain ⟨_, middle, pushed, called⟩ := bind_eq_ok_iff.mp called
      cases pushed
      cases called
      exact ⟨rfl, .inr ⟨_, rfl, rfl⟩⟩
  | some binding =>
    rw [bound] at called
    dsimp only at called
    split at called
    · cases called
      exact ⟨rfl, .inl (.refl _)⟩
    · obtain ⟨arguments, middle, popped, called⟩ := bind_eq_ok_iff.mp called
      obtain ⟨popped, same⟩ := onState_eq_ok popped
      have calm : Calming story.program (popArguments name count) story.state :=
        (popping_popArguments name count).calm
      have still := calm.still popped
      obtain ⟨_, noted, note, called⟩ := bind_eq_ok_iff.mp called
      cases note
      rw [same] at called
      cases answered : binding.answer arguments with
      | error reason =>
        rw [answered] at called
        contradiction
      | ok answer =>
        rw [answered] at called
        cases answer <;>
        · cases called
          exact ⟨rfl, .inl still⟩

/-- Deliver an object, unless the story stopped. -/
def deliverHere (program : Program) (place : Place) (content : Content) : Play Unit := do
  if (← get).state.pointer.isSome then onState (deliver program place content)

/-- An object that is content leaves the frames alone, and another does nothing more. -/
theorem delivered (holds : program.Holds place content)
    (run : deliverHere program place content story = .ok () after) :
    after.program = story.program ∧ story.state.callStack.Still after.state.callStack ∧
      (deliver program place content = pure () → after = story) := by
  rw [deliverHere, get_bind_apply] at run
  split at run
  · obtain ⟨done, same⟩ := onState_eq_ok run
    refine ⟨by rw [same], (calm_deliver holds).still done, fun nothing => ?_⟩
    rw [nothing] at done
    have kept : story.state = after.state := (EStateM.Result.ok.inj done).2
    rw [same, ← kept]
  · cases run
    exact ⟨rfl, .refl _, fun _ => rfl⟩

/-- What carrying out an object does to the frames. -/
theorem carried_carryOut (holds : story.program.Holds place content)
    (goesOn : content ≠ .command .finish) (run : carryOut place content story = .ok () after) :
    after.program = story.program ∧
      Carried (story.state.Reaches story.program content) content story.state after.state := by
  rw [carryOut, get_bind_apply] at run
  obtain ⟨request, middle, performed, run⟩ := bind_eq_ok_iff.mp run
  obtain ⟨performed, same⟩ := onState_eq_ok performed
  have program : middle.program = story.program := by rw [same]
  cases request with
  | none =>
    obtain ⟨kept, still, nothing⟩ := delivered holds run
    refine ⟨kept.trans program, ?_⟩
    rcases carried_performContent goesOn performed with ⟨-, plain, carried⟩ | ⟨-, calm⟩
    · rw [nothing plain]
      exact carried
    · exact .quiet (calm.trans still).quiet
  | some request =>
    obtain ⟨_, called, calling, run⟩ := bind_eq_ok_iff.mp run
    obtain ⟨kept, still, nothing⟩ := delivered holds run
    obtain ⟨keptToo, calls⟩ := callHost_eq_ok calling
    refine ⟨(kept.trans keptToo).trans program, ?_⟩
    rcases carried_performContent goesOn performed with ⟨none, -⟩ | ⟨none | ⟨divert, rfl⟩, calm⟩
    · contradiction
    · contradiction
    · rw [nothing rfl]
      rcases calls with still | ⟨outputLength, pushed, diverted⟩
      · exact .quiet (calm.trans still).quiet
      · exact .call rfl calm pushed diverted

/-- What carrying out a return command does. -/
theorem return_carryOut (holds : story.program.Holds place content)
    (returns : content.returns? = some kind) (run : carryOut place content story = .ok () after) :
    Returned kind content story.state after.state := by
  rw [carryOut, get_bind_apply] at run
  obtain ⟨request, middle, performed, run⟩ := bind_eq_ok_iff.mp run
  obtain ⟨performed, same⟩ := onState_eq_ok performed
  obtain ⟨rfl, left⟩ := return_performContent returns performed
  obtain ⟨-, -, nothing⟩ := delivered holds run
  have plain : deliver story.program place content = pure () := by
    unfold Content.returns? at returns
    split at returns
    · rfl
    · rfl
    · contradiction
  rw [nothing plain]
  exact left

end Play

namespace Story

/-- The story when it has gone down to the object to evaluate next. -/
def descended (story : Story) : Story :=
  match story.state.pointer with
  | some start => story.modifyState fun state => state.descend story.program start
  | none => story

/-- The object that the next step evaluates, with its place. -/
def object? (story : Story) : Option (Place × Content) :=
  story.descended.state.pointer.bind story.program.objectAt?

/-- The story when the object to evaluate next is carried out, and nothing was moved on yet. -/
def carriedOut (story : Story) : Story :=
  match story.object? with
  | some (place, content) => leaves (Play.carryOut place content story.descended)
  | none => story.descended

/-- The next step starts a thread. -/
def startsThread (story : Story) : Bool :=
  story.object?.any fun object => object.2 = .command .startThread

/-- The state behind the next step, if it succeeds. -/
def movedOn (story : Story) : State :=
  if story.carriedOut.state.pointer.isNone then story.carriedOut.state
  else
    let moved := story.carriedOut.state.moveOn story.program
    if story.startsThread then { moved with callStack := moved.callStack.pushThread } else moved

/-- A step carries out the object that is next, and moves on. -/
structure Takes (story next : Story) : Prop where
  program : next.program = story.program
  state : next.state = story.movedOn
  carried : ∀ {place : Place} {content : Content}, story.object? = some (place, content) →
    Play.carryOut place content story.descended = .ok () story.carriedOut

theorem descended_of_pointer (here : story.state.pointer = some pointer) :
    story.descended.state.pointer = some (story.program.descend pointer).2 := by
  rw [descended, here]
  rfl

theorem program_descended (story : Story) : story.descended.program = story.program := by
  unfold descended
  split <;> rfl

/-- Going down to an object counts visits and moves the pointer only. -/
theorem kept_descended (story : Story) :
    story.descended.state.diverted = story.state.diverted ∧
      story.descended.state.evaluating = story.state.evaluating ∧
      story.descended.state.choices = story.state.choices := by
  unfold descended
  split
  · next start _ =>
    rw [modifyState, (State.counted_descend _ _ start).eq]
    exact ⟨rfl, rfl, rfl⟩
  · exact ⟨rfl, rfl, rfl⟩

end Story

namespace Play

/-- The state behind an object that was carried out. -/
def behind (program : Program) (content : Content) (carried : State) : State :=
  if carried.pointer.isNone then carried
  else
    let moved := carried.moveOn program
    if content = .command .startThread then
      { moved with callStack := moved.callStack.pushThread }
    else moved

/-- What is left to do with an object is to deliver it, and to move on. -/
theorem onState_finishContent (holds : program.Holds place content) (story : Story) :
    onState (Run.finishContent program place content) story =
      (deliverHere program place content >>= fun _ => modifyState (behind program content)) story := by
  rw [onState_apply, Run.finishContent, get_bind_apply, bind_apply, deliverHere, get_bind_apply]
  cases here : story.state.pointer with
  | none =>
    have stays : behind program content story.state = story.state := if_pos (by rw [here]; rfl)
    simp [pure_apply, modifyState_apply, stays]
  | some pointer =>
    cases delivered : Run.deliver program place content story.state with
    | error error state => simp [onState_apply, bind_apply, delivered]
    | ok value state =>
      have stays : state.pointer = some pointer :=
        (Run.Calming.still (Run.calm_deliver holds) delivered).frame.pointer.trans here
      simp only [onState_apply, bind_apply, delivered, modifyState_apply, behind, stays, isSome_some, isNone_some, if_true, Bool.false_eq_true, if_false]
      split_ifs <;> rfl

/-- Evaluating an object is carrying it out and moving on. -/
theorem evaluate_eq (holds : story.program.Holds place content) :
    evaluate place content story =
      (carryOut place content >>= fun _ => modifyState (behind story.program content)) story := by
  rw [bind_apply, evaluate, carryOut, get_bind_apply, get_bind_apply, bind_apply, bind_apply]
  cases onState (Run.performContent story.program place content) story with
  | error error middle => rfl
  | ok request middle =>
    cases request with
    | none => exact onState_finishContent holds middle
    | some request =>
      dsimp only
      rw [bind_apply, bind_apply]
      cases callHost request.function request.arguments middle with
      | error error called => rfl
      | ok _ called => exact onState_finishContent holds called

/-- A step at an object goes down to it and evaluates it. -/
theorem step_of_object (object : story.object? = some (place, content)) :
    step story = evaluate place content story.descended := by
  cases here : story.state.pointer with
  | none =>
    have stays : story.descended = story := by rw [descended, here]
    rw [object?, stays, here] at object
    contradiction
  | some start =>
    obtain ⟨pointer, there, found⟩ := bind_eq_some_iff.mp object
    rw [descended, here] at there ⊢
    simp only [step, bind_apply, get_apply, here, modifyState_apply]
    simp only [Story.modifyState] at there ⊢
    rw [there]
    dsimp only
    rw [found]

/-- A step that finds no object moves on. -/
theorem step_of_nothing (here : story.state.pointer = some pointer) (nothing : story.object? = none) :
    step story = .ok () (story.descended.modifyState fun state => state.moveOn story.program) := by
  have there := descended_of_pointer here
  have found : story.program.objectAt? (story.program.descend pointer).2 = none := by
    rw [object?, there] at nothing
    exact nothing
  rw [descended, here] at there ⊢
  simp only [step, bind_apply, get_apply, here, modifyState_apply]
  simp only [Story.modifyState] at there ⊢
  rw [there]
  dsimp only
  rw [found]
  rfl

theorem takes_of_step (taken : step story = .ok () next) : story.Takes next := by
  have program := story.program_descended
  have evaluating : Evaluating (fun _ => True) (fun _ => True) step story :=
    evaluating_step (fun _ _ => trivial) fun _ _ => trivial
  have kept := program_of_evaluating evaluating taken
  cases object : story.object? with
  | some found =>
    obtain ⟨place, content⟩ := found
    obtain ⟨pointer, -, found⟩ := bind_eq_some_iff.mp object
    have holds : story.descended.program.Holds place content := ⟨pointer, program ▸ found⟩
    rw [step_of_object object, evaluate_eq holds] at taken
    obtain ⟨_, carried, carrying, moved⟩ := bind_eq_ok_iff.mp taken
    cases moved
    have out : story.carriedOut = carried := by
      rw [carriedOut, object]
      dsimp only
      rw [carrying]
      rfl
    refine ⟨kept, ?_, fun other => ?_⟩
    · rw [movedOn, out, ← program]
      simp only [startsThread, object, any_some, decide_eq_true_eq]
      rfl
    · cases object.symm.trans other
      rw [out]
      exact carrying
  | none =>
    have idle : story.carriedOut = story.descended := by rw [carriedOut, object]
    have never {place : Place} {content : Content}
        (other : story.object? = some (place, content)) :
        carryOut place content story.descended = .ok () story.carriedOut := by
      rw [object] at other
      contradiction
    cases here : story.state.pointer with
    | none =>
      have stays : story.descended = story := by rw [descended, here]
      simp only [step, bind_apply, get_apply, here] at taken
      cases taken
      refine ⟨rfl, ?_, never⟩
      rw [movedOn, idle, stays, if_pos (by rw [here]; rfl)]
    | some start =>
      rw [step_of_nothing here object] at taken
      cases taken
      refine ⟨program, ?_, never⟩
      rw [movedOn, idle,
        if_neg (by rw [descended_of_pointer here]; exact Bool.false_ne_true)]
      simp only [startsThread, object]
      rfl

end Play

end InkStory
