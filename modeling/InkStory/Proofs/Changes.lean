import InkStory.Proofs.Outcomes
import InkStory.Proofs.Tree
import InkStory.State.Logic

/-! # What objects do to a state

Every object of a story changes the state in a few ways only, one after another. They are listed
once, as a relation between states, and every operation is shown to lead along it; what all of the
changes keep is then kept by whatever the story evaluates. Most objects make only those changes that
leave the frames of the call stack alone. -/

namespace InkStory

open List

variable {program : Program} {content : Content} {state after : State} {assignment : Assignment}
  {value : Value} {step : State → State → Prop} {result : Except Error State} {command : Command}

/-- An object that goes to the evaluation stack or to the output. -/
def Content.isPlain : Content → Bool
  | .value _ | .command _ | .glue | .tag _ | .void => true
  | _ => false

/-- The kind of the frame that an object pushes. -/
def Content.pushes? : Content → Option FrameKind
  | .divert jump => jump.pushes
  | _ => none

/-- The tree has an object at a place. -/
def Program.Holds (program : Program) (place : Place) (content : Content) : Prop :=
  ∃ pointer, program.objectAt? pointer = some (place, content)

theorem Program.Holds.hasPlace {place : Place} (holds : program.Holds place content) :
    program.HasPlace place := by
  obtain ⟨pointer, object⟩ := holds
  exact program.hasPlace_objectAt object

/-- The writes to globals among those of a patch. -/
def Patch.uncounted (patch : Patch) : Patch := { patch with visits := {}, turns := {} }

/-- A command that begins or ends a string or leaves a function. -/
def Command.quotes : Command → Bool
  | .beginString | .endString | .returnFromFunction => true
  | _ => false

/-- An object that begins or ends a string or leaves a function. -/
def Content.quotes : Content → Bool
  | .command inner => inner.quotes
  | _ => false

/-- What evaluation may do: assign some globals, push frames of some kinds, and, if at all, begin and
end strings and leave functions. -/
structure Limits where
  writable : String → Prop
  pushable : FrameKind → Prop
  quotes : Prop

/-- A command that leaves the frames of the call stack alone. -/
def Command.isCalm : Command → Bool
  | .beginEvaluation | .endEvaluation | .returnFromFunction | .returnFromTunnel | .beginString
  | .endString | .done | .finish => false
  | _ => true

namespace State

/-- Write a global. -/
def write (state : State) (name : String) (value : Value) : State :=
  let (globals, patch) := state.globals.set state.patch name value
  { state with globals := globals, patch := patch }

/-- The global that an object assigns. -/
def assigned? (program : Program) (state : State) : Content → Option String
  | .assignment assignment =>
    let destination := (state.scope program).destination assignment
    if destination.isGlobal then some destination.name else none
  | _ => none

/-- An assignment writes a global or a temporary. -/
theorem assign_eq :
    state.assign program assignment value =
      if ((state.scope program).destination assignment).isGlobal then
        .ok (state.write ((state.scope program).destination assignment).name
          ((state.scope program).assigned assignment value))
      else
        (state.callStack.setTemporary ((state.scope program).destination assignment).name
          ((state.scope program).assigned assignment value) assignment.isDeclaration
          ((state.scope program).destination assignment).context).map fun callStack =>
            { state with callStack := callStack } := by
  unfold assign Scope.assign
  dsimp only
  split
  · rfl
  · change (do
      let scope ← (do
        let stack ← state.callStack.setTemporary _ _ _ _
        return { state.scope program with stack := stack })
      return { state with
        globals := scope.globals, patch := scope.patch, callStack := scope.stack }) = _
    cases state.callStack.setTemporary _ _ _ _ <;> rfl

/-- What evaluation can do to a state at once, within limits. -/
inductive Alters (program : Program) (limits : Limits) (state : State) : State → Prop where
  /-- Objects are taken off the evaluation stack and put on it. -/
  | stack (evaluation : List Content)
      (plain : ∀ content ∈ evaluation, content ∈ state.evaluation ∨ content.isPlain = true) :
      Alters program limits state { state with evaluation := evaluation }
  | emit (content : Content) (plain : content.isPlain = true)
      (within : limits.quotes ∨ content ≠ .command .beginString) :
      Alters program limits state (state.emit content)
  /-- A function's output loses its blanks at the end. -/
  | trim (allowed : limits.quotes) :
      Alters program limits state
        { state with output := state.output.leaveFunction state.callStack }
  | endString (allowed : limits.quotes) :
      Alters program limits state { state with output := state.output.endString.2 }
  | endTag {text : String} {output : Output}
      (ended : state.output.endTag = .ok (text, output)) :
      Alters program limits state { state with output := output }
  | evaluating (evaluating : Bool) : Alters program limits state (state.setEvaluating evaluating)
  | point (pointer : Option Pointer)
      (points : ∀ target, pointer = some target → program.Points target) :
      Alters program limits state (state.setPointer pointer)
  | advance (pointer : Pointer) (here : state.pointer = some pointer) :
      Alters program limits state (state.setPointer (program.next? pointer))
  | down (pointer : Pointer) (here : state.pointer = some pointer) :
      Alters program limits state (state.setPointer (some (program.descend pointer).2))
  | visit (visits : List (Address × Bool)) :
      Alters program limits state (state.visitAll program visits)
  /-- The running thread evaluates behind where it stands. -/
  | depart : Alters program limits state (state.setPrevious state.pointer)
  | divert (pointer : Option Pointer)
      (points : ∀ target, pointer = some target → program.Points target) :
      Alters program limits state { state with diverted := pointer }
  /-- Go where a divert leads. -/
  | land (pointer : Pointer) (diverted : state.diverted = some pointer) :
      Alters program limits state ({ state with diverted := none }.setPointer (some pointer))
  | warn (warning : Warning) : Alters program limits state (state.warn program warning)
  | beginTurn : Alters program limits state { state with turn := state.turn + 1 }
  | draw (seed previousDraw : Int32) :
      Alters program limits state { state with seed := seed, previousDraw := previousDraw }
  | exitSafely : Alters program limits state { state with exitedSafely := true }
  | dropChoices : Alters program limits state { state with choices := [] }
  | offer (origin : Place) (point : ChoicePoint) (choice : Choice)
      (holds : program.Holds origin (.choicePoint point))
      (thread : choice.thread = state.callStack.fork.1)
      (target : choice.target = program.absolutePath origin point.target)
      (index : choice.index = (state.choices.filter fun choice => !choice.isInvisible).length) :
      Alters program limits state (state.offer choice)
  | take (choice : Choice) (offered : choice ∈ state.choices) :
      Alters program limits state (state.take choice)
  | renumber : Alters program limits state { state with callStack := state.callStack.renumber }
  | pushFrame (kind : FrameKind) (stackHeight outputLength : Nat) (allowed : limits.pushable kind) :
      Alters program limits state
        { state with callStack := state.callStack.push kind stackHeight outputLength }
  | dropFrame : Alters program limits state { state with callStack := state.callStack.drop }
  | pushThread : Alters program limits state { state with callStack := state.callStack.pushThread }
  | popThread : Alters program limits state { state with callStack := state.callStack.popThread }
  | forceEnd : Alters program limits state state.forceEnd
  | temporary {name : String} {value : Value} {declare : Bool} {context : Context}
      {stack : CallStack}
      (assigned : state.callStack.setTemporary name value declare context = .ok stack) :
      Alters program limits state { state with callStack := stack }
  | write (name : String) (value : Value) (allowed : limits.writable name) :
      Alters program limits state (state.write name value)

/-- What evaluation can do to a state at once, where `writable` says which globals are assigned. -/
abbrev Change (program : Program) (writable : String → Prop) : State → State → Prop :=
  Alters program ⟨writable, fun _ => True, True⟩

/-- What an object can do to a state at once that leaves the frames alone. -/
inductive Calm (program : Program) (state : State) : State → Prop where
  | stack (evaluation : List Content)
      (plain : ∀ content ∈ evaluation, content ∈ state.evaluation ∨ content.isPlain = true) :
      Calm program state { state with evaluation := evaluation }
  | emit (content : Content) (plain : content.isPlain = true)
      (within : content ≠ .command .beginString) : Calm program state (state.emit content)
  | endTag {text : String} {output : Output}
      (ended : state.output.endTag = .ok (text, output)) :
      Calm program state { state with output := output }
  | divert (pointer : Option Pointer)
      (points : ∀ target, pointer = some target → program.Points target) :
      Calm program state { state with diverted := pointer }
  | warn (warning : Warning) : Calm program state (state.warn program warning)
  | draw (seed previousDraw : Int32) :
      Calm program state { state with seed := seed, previousDraw := previousDraw }
  | offer (origin : Place) (point : ChoicePoint) (choice : Choice)
      (holds : program.Holds origin (.choicePoint point))
      (thread : choice.thread = state.callStack.fork.1)
      (target : choice.target = program.absolutePath origin point.target)
      (index : choice.index = (state.choices.filter fun choice => !choice.isInvisible).length) :
      Calm program state (state.offer choice)

theorem Calm.change {limits : Limits} (calm : Calm program state after) :
    Alters program limits state after := by
  cases calm with
  | stack evaluation plain => exact .stack evaluation plain
  | emit content plain within => exact .emit content plain (.inr within)
  | endTag ended => exact .endTag ended
  | divert pointer points => exact .divert pointer points
  | warn warning => exact .warn warning
  | draw seed previousDraw => exact .draw seed previousDraw
  | offer origin point choice holds thread target index =>
    exact .offer origin point choice holds thread target index

/-- Objects are taken off the evaluation stack, and nothing else is done. -/
def Popped (state after : State) : Prop :=
  ∃ evaluation, (∀ content ∈ evaluation, content ∈ state.evaluation) ∧
    after = { state with evaluation := evaluation }

theorem Popped.calm (popped : Popped state after) : Calm program state after := by
  obtain ⟨evaluation, taken, rfl⟩ := popped
  exact .stack evaluation fun content member => .inl (taken content member)

/-! ### Counts -/

/-- Counting changes the counts only. -/
def Counted (state after : State) : Prop :=
  ∃ visits turns patch,
    after = { state with visits := visits, turns := turns, patch := patch } ∧
      patch.map Patch.uncounted = state.patch.map Patch.uncounted

theorem Counted.trans {middle : State} (first : Counted state middle)
    (second : Counted middle after) : Counted state after := by
  obtain ⟨_, _, _, rfl, same⟩ := first
  obtain ⟨visits, turns, patch, rfl, again⟩ := second
  exact ⟨visits, turns, patch, rfl, again.trans same⟩

theorem Counted.eq (counted : Counted state after) :
    after = { state with visits := after.visits, turns := after.turns, patch := after.patch } := by
  obtain ⟨_, _, _, rfl, -⟩ := counted
  rfl

theorem counted_refl (state : State) : Counted state state := ⟨_, _, _, rfl, rfl⟩

theorem counted_countVisit (state : State) (address : Address) :
    Counted state (state.countVisit address) := by
  unfold countVisit
  split
  · next patch patched => exact ⟨_, _, _, rfl, by rw [patched]; rfl⟩
  · exact ⟨_, _, state.patch, rfl, rfl⟩

theorem counted_recordTurn (state : State) (address : Address) :
    Counted state (state.recordTurn address) := by
  unfold recordTurn
  split
  · next patch patched => exact ⟨_, _, _, rfl, by rw [patched]; rfl⟩
  · exact ⟨_, _, state.patch, rfl, rfl⟩

theorem counted_visit (program : Program) (state : State) (address : Address) (atStart : Bool) :
    Counted state (state.visit program address atStart) := by
  have visited : Counted state
      (if (program.container address).counting.visits then state.countVisit address
      else state) := by
    split
    · exact counted_countVisit state address
    · exact counted_refl state
  unfold visit
  dsimp only
  split
  · exact counted_refl state
  · split
    · exact visited.trans (counted_recordTurn _ address)
    · exact visited

theorem counted_visitAll (program : Program) (state : State) (visits : List (Address × Bool)) :
    Counted state (state.visitAll program visits) := by
  induction visits generalizing state with
  | nil => exact counted_refl state
  | cons visit rest ih => exact (counted_visit program state visit.1 visit.2).trans (ih _)

theorem counted_descend (program : Program) (state : State) (pointer : Pointer) :
    Counted (state.setPointer (some (program.descend pointer).2)) (state.descend program pointer) := by
  obtain ⟨visits, turns, patch, same, kept⟩ := counted_visitAll program state
    ((program.descend pointer).1.map fun address => (address, true))
  exact ⟨visits, turns, patch, congrArg (·.setPointer (some (program.descend pointer).2)) same, kept⟩

theorem counted_visitEntered (program : Program) (state : State) :
    Counted state (state.visitEntered program) := by
  unfold visitEntered
  split
  · exact counted_visitAll program state _
  · exact counted_refl state

/-- Changes one after another, within limits. -/
abbrev Alterations (program : Program) (limits : Limits) : State → State → Prop :=
  Relation.ReflTransGen (Alters program limits)

/-- Changes one after another. -/
abbrev Changes (program : Program) (writable : String → Prop) : State → State → Prop :=
  Relation.ReflTransGen (Change program writable)

end State

namespace Run

open State

section Walk

variable {limits : Limits} {run : Run α} {evaluation : List Content} {found : Option Pointer}
  {kind : Option FrameKind} {origin : Place} {point : ChoicePoint} {divert : Divert}

/-- An operation does nothing to a state but make changes, within limits. -/
abbrev Altering (program : Program) (limits : Limits) (run : Run α) (state : State) : Prop :=
  Leads (Alters program limits) run state

/-- An operation does nothing to a state but make changes. -/
abbrev Changing (program : Program) (writable : String → Prop) (run : Run α) (state : State) :
    Prop :=
  Leads (Change program writable) run state

/-- An operation does nothing to a state but make changes that leave the frames alone. -/
abbrev Calming (program : Program) (run : Run α) (state : State) : Prop :=
  Leads (Calm program) run state

theorem Calming.changing (calm : Calming program run state) : Altering program limits run state :=
  calm.mono fun _ _ => Calm.change

/-- An operation does nothing to a state but take objects off the evaluation stack. -/
abbrev Popping (run : Run α) (state : State) : Prop := Leads Popped run state

theorem Popping.calm (popping : Popping run state) : Calming program run state :=
  popping.mono fun _ _ => Popped.calm

theorem calms_stack
    (plain : ∀ content ∈ evaluation, content ∈ state.evaluation ∨ content.isPlain) :
    Relation.ReflTransGen (Calm program) state { state with evaluation := evaluation } :=
  .single (.stack evaluation plain)

theorem changes_stack
    (plain : ∀ content ∈ evaluation, content ∈ state.evaluation ∨ content.isPlain) :
    Alterations program limits state { state with evaluation := evaluation } :=
  .single (.stack evaluation plain)

theorem changes_visitEntered : Alterations program limits state (state.visitEntered program) := by
  unfold visitEntered
  split
  · exact .single (.visit _)
  · exact .refl

theorem changes_descend {pointer : Pointer} (here : state.pointer = some pointer) :
    Alterations program limits state (state.descend program pointer) := by
  refine .tail (.single (.visit _)) (.down pointer ?_)
  rw [(counted_visitAll program state _).eq]
  exact here

theorem calm_fault (found : Fault) : Calming program (fault found : Run α) state :=
  .throw _

theorem leads_ofFault (result : Except Fault α) :
    Leads step (ofFault result) state := by
  cases result with
  | ok value => exact .pure value
  | error found => exact .throw _

theorem ofFault_eq_ok {result : Except Fault α} {value : α}
    (run : ofFault result state = .ok value after) : result = .ok value ∧ after = state := by
  cases result with
  | ok found =>
    cases run
    exact ⟨rfl, rfl⟩
  | error found => cases run

theorem ofState_eq_ok (run : ofState result state = .ok () after) :
    result = .ok after := by
  cases result with
  | ok found =>
    cases run
    rfl
  | error error => cases run

theorem leads_ofState (steps : ∀ after, result = .ok after → Relation.ReflTransGen step state after) :
    Leads step (ofState result) state := by
  cases result with
  | ok after => exact .set (steps after rfl)
  | error error => exact .throw _

theorem calm_push (plain : content.isPlain) : Calming program (push content) state := by
  refine .modify (calms_stack fun found member => ?_)
  rcases mem_cons.mp member with rfl | below
  · exact .inr plain
  · exact .inl below

theorem calm_pushValue (value : Value) : Calming program (pushValue value) state :=
  calm_push rfl

theorem calm_pushInt (number : Int32) : Calming program (pushInt number) state :=
  calm_pushValue _

theorem calm_emit (plain : content.isPlain) (within : content ≠ .command .beginString) :
    Calming program (emit content) state :=
  .modify (.single (.emit content plain within))

theorem popping_pop : Popping pop state := by
  refine .get_bind ?_
  split
  · next top rest stack =>
    refine .bind (.modify (.single ⟨rest, fun content member => ?_, rfl⟩)) fun _ _ _ => .pure _
    rw [stack]
    exact mem_cons_of_mem _ member
  · exact .throw _

theorem pop_eq_ok (run : pop state = .ok content after) :
    ∃ rest, state.evaluation = content :: rest ∧ after = { state with evaluation := rest } := by
  simp only [pop, bind_apply, get_apply] at run
  cases stack : state.evaluation with
  | nil =>
    rw [stack] at run
    cases run
  | cons top rest =>
    rw [stack] at run
    cases run
    exact ⟨rest, rfl, rfl⟩

theorem popping_popMany (count : Nat) : Popping (popMany count) state := by
  refine .get_bind (.refused fun _ => ?_)
  refine .bind (.modify (.single ⟨_, fun content member => ?_, rfl⟩)) fun _ _ _ => .pure _
  exact mem_of_mem_drop member

theorem popping_popValue : Popping popValue state := by
  refine .bind popping_pop fun content _ _ => ?_
  split
  · exact .pure _
  · exact .throw _

theorem popping_popCondition : Popping popCondition state :=
  .bind popping_popValue fun _ _ _ => leads_ofFault _

theorem pointerAt_apply (path : Path) :
    pointerAt program path state =
      match program.pointerAt path with
      | .error found => .error (.runtime found) state
      | .ok landing =>
        .ok landing.pointer
          (match landing.approximatedTo with
          | some place =>
            state.warn program (.approximatedPath path.text (program.pathOf place).text)
          | none => state) := by
  simp only [pointerAt]
  cases program.pointerAt path with
  | error found => rfl
  | ok landing =>
    obtain ⟨pointer, _ | place⟩ := landing <;> rfl

theorem calm_pointerAt (path : Path) :
    Calming program (pointerAt program path) state := by
  unfold Calming Leads
  rw [pointerAt_apply]
  split
  · exact .refl
  · dsimp only [leaves]
    split
    · exact .single (.warn _)
    · exact .refl

/-- The pointer that a path stands for is in the tree. -/
theorem points_of_pointerAt {path : Path} (run : pointerAt program path state = .ok found after) :
    ∀ target, found = some target → program.Points target := by
  rw [pointerAt_apply] at run
  split at run
  · contradiction
  · next lands =>
    cases run
    exact fun target pointed => program.points_pointerAt lands pointed

theorem calm_divertTo (path : Path) : Calming program (divertTo program path) state :=
  .bind (calm_pointerAt path) fun _ _ run =>
    .modify (.single (.divert _ (points_of_pointerAt run)))

/-- A pointer at a container is moved to its start. -/
theorem points_positioned (points : ∀ target, found = some target → program.Points target) :
    ∀ target, (found.map fun pointer =>
      ({ pointer with index := some (pointer.index.getD 0) } : Pointer)) = some target →
      program.Points target := by
  intro target moved
  obtain ⟨pointer, rfl, rfl⟩ := Option.map_eq_some_iff.mp moved
  exact ⟨(points pointer rfl).has, by simp⟩

theorem changing_choosePath (path : Path) (beginsTurn : Bool) :
    Altering program limits (choosePath program path beginsTurn) state := by
  refine .bind (.modify (.single .dropChoices)) fun _ _ _ => ?_
  refine .bind (calm_pointerAt path).changing fun _ _ run => ?_
  refine .bind (.modify (.single (.point _ (points_positioned (points_of_pointerAt run)))))
    fun _ _ _ => ?_
  split
  · exact .bind (.modify (.single .beginTurn)) fun _ _ _ => .modify changes_visitEntered
  · exact .modify changes_visitEntered

theorem calm_passArguments (arguments : List Value) :
    Calming program (passArguments arguments) state := by
  induction arguments generalizing state with
  | nil => exact .pure _
  | cons argument rest ih =>
    refine .bind ?_ fun _ _ _ => ih
    dsimp only
    split
    all_goals first | exact calm_pushValue _ | exact .throw _

theorem changing_enterFunction {function : Address} (arguments : List Value)
    (has : program.Has function) (allowed : limits.pushable .hostCall) :
    Altering program limits (enterFunction function arguments) state := by
  refine .bind (.modify ?_) fun _ _ _ => (calm_passArguments arguments).changing
  refine .tail (.single (.pushFrame .hostCall state.evaluation.length 0 allowed)) ?_
  refine .point _ fun target same => ?_
  cases same
  exact program.points_startOf has

theorem eq_drop_of_pop {stack after : CallStack} (popped : stack.pop kind = .ok after) :
    after = stack.drop := by
  unfold CallStack.pop at popped
  split at popped
  · cases popped
    rfl
  · contradiction

theorem leaveFrame_eq_ok (left : state.leaveFrame kind = .ok after) :
    after =
      { state with
        output :=
          if state.callStack.frame.kind = .function then state.output.leaveFunction state.callStack
          else state.output
        callStack := state.callStack.drop } := by
  obtain ⟨stack, popped, rfl⟩ := exists_of_map left
  rw [eq_drop_of_pop popped]

/-- A frame is left in two steps: its output is trimmed, and it is dropped. -/
theorem changing_leaveFrame (kind : Option FrameKind)
    (quotes : state.callStack.frame.kind = .function → limits.quotes) :
    Altering program limits (do ofState ((← get).leaveFrame kind)) state := by
  refine .get_bind (leads_ofState fun after left => ?_)
  rw [leaveFrame_eq_ok left]
  split
  · next function => exact .tail (.single (.trim (quotes function))) .dropFrame
  · exact .single .dropFrame

theorem changing_leaveFunction (quotes : limits.quotes) :
    Altering program limits (leaveFunction program) state := by
  refine .get_bind (.refused fun _ => ?_)
  refine .bind (.set (changes_stack fun content member => .inl ?_)) fun _ _ _ => ?_
  · exact mem_of_mem_drop member
  · exact .get_bind (.bind (changing_leaveFrame _ fun _ => quotes) fun _ _ _ => .pure _)

/-! ### Commands -/

theorem changing_beginEvaluation : Altering program limits beginEvaluation state :=
  .get_bind (.refused fun _ => .modify (.single (.evaluating true)))

theorem changing_endEvaluation : Altering program limits endEvaluation state :=
  .get_bind (.refused fun _ => .modify (.single (.evaluating false)))

theorem calm_outputValue : Calming program outputValue state := by
  refine .get_bind ?_
  split
  · exact .pure _
  · refine .bind popping_pop.calm fun content _ _ => ?_
    refine .bind (leads_ofFault _) fun text _ _ => ?_
    cases text with
    | none => exact .pure _
    | some text => exact calm_emit rfl nofun

theorem calm_duplicate : Calming program duplicate state := by
  refine .get_bind ?_
  split
  · next top rest stack =>
    refine .modify (calms_stack fun content member => .inl ?_)
    rcases mem_cons.mp member with rfl | below
    · rw [stack]
      exact mem_cons_self
    · exact below
  · exact calm_fault _

theorem popping_popReturnTarget : Popping popReturnTarget state := by
  refine .bind popping_pop fun content _ _ => ?_
  split
  · exact .pure _
  · exact .pure _
  · exact .throw _

theorem changes_exitHostCall : Alterations program limits state state.exitHostCall :=
  .tail (.single (.point none nofun)) .exitSafely

theorem changing_returnFrom (kind : FrameKind) (target : Option Path)
    (quotes : kind = .function → limits.quotes) :
    Altering program limits (returnFrom program kind target) state := by
  refine .get_bind ?_
  dsimp only
  split
  · exact .modify changes_exitHostCall
  · split
    · exact .throw _
    · next returns =>
      have own : state.callStack.frame.kind = kind := by
        simp only [CallStack.canPopKind, Bool.not_eq_true', Bool.not_eq_false, Bool.and_eq_true,
          beq_iff_eq] at returns
        exact returns.2
      refine .get_bind (.bind (changing_leaveFrame none (own ▸ quotes)) fun _ _ _ => ?_)
      cases target with
      | none => exact .pure _
      | some path => exact (calm_divertTo path).changing

theorem changing_beginString (quotes : limits.quotes) : Altering program limits beginString state :=
  .get_bind (.refused fun _ => .bind (.modify (.single (.emit _ rfl (.inl quotes)))) fun _ _ _ =>
    .modify (.single (.evaluating false)))

theorem changing_endString (quotes : limits.quotes) : Altering program limits endString state := by
  refine .tail (.tail (.single (.endString quotes)) (.evaluating true)) (.stack _ fun content member => ?_)
  rcases mem_cons.mp member with rfl | below
  · exact .inr rfl
  · exact .inl below

theorem calm_endTag : Calming program endTag state := by
  refine .get_bind ?_
  split
  · cases ended : state.output.endTag with
    | error found => exact .bind (calm_fault _) fun _ _ failed => nomatch failed
    | ok parts =>
      refine .bind (.pure _) fun value middle same => ?_
      cases same
      exact .bind (.set (.single (.endTag ended))) fun _ _ _ => calm_push rfl
  · exact calm_emit rfl nofun

theorem popping_popCountTarget : Popping popCountTarget state := by
  refine .bind popping_pop fun content _ _ => ?_
  split
  · exact .pure _
  all_goals exact .throw _

theorem calm_countAt (command : Command) (missing : Int32)
    (count : State → Address → Except Fault Int32) :
    Calming program (countAt program command missing count) state := by
  refine .bind popping_popCountTarget.calm fun path _ _ => ?_
  split
  · refine .get_bind ?_
    exact .bind (leads_ofFault _) fun _ _ _ => calm_pushInt _
  · exact .bind (.modify (.single (.warn _))) fun _ _ _ => calm_pushInt _

theorem calm_remember (drawn : Int32) : Calming program (remember drawn) state :=
  .modify (.single (.draw state.seed drawn))

theorem calm_draw : Calming program draw state := .get_bind (.pure _)

theorem calm_random : Calming program random state := by
  refine .bind popping_popValue.calm fun high _ _ => ?_
  refine .bind popping_popValue.calm fun low _ _ => ?_
  dsimp only
  split
  · split
    · refine .bind (leads_ofFault _) fun size _ _ => ?_
      refine .bind calm_draw fun drawn _ _ => ?_
      exact .bind (calm_pushInt _) fun _ _ _ => calm_remember _
    · exact calm_fault _
  · exact calm_fault _

theorem calm_seedRandom : Calming program seedRandom state := by
  refine .bind popping_popValue.calm fun seed middle _ => ?_
  split
  · exact .bind (.modify (.single (.draw _ 0))) fun _ _ _ => calm_push rfl
  · exact calm_fault _

theorem calm_visitIndex : Calming program (visitIndex program) state := by
  refine .get_bind ?_
  split
  · exact .bind (leads_ofFault _) fun _ _ _ => calm_pushInt _
  · exact calm_fault _

theorem calm_shuffleIndex : Calming program (shuffleIndex program) state := by
  refine .bind popping_popValue.calm fun size _ _ => ?_
  split
  · refine .get_bind ?_
    split
    · refine .bind popping_popValue.calm fun count _ _ => ?_
      split
      · split
        · exact .bind (calm_fault _) fun _ _ failed => nomatch failed
        · refine .get_bind ?_
          split
          · exact calm_pushInt _
          · exact calm_fault _
      · exact calm_fault _
    · exact calm_fault _
  · exact calm_fault _

theorem changing_done : Altering program limits done state := by
  refine .modify ?_
  split
  · exact .single .popThread
  · exact .tail (.single .exitSafely) (.point none nofun)

theorem calm_listFromInt : Calming program (listFromInt program) state := by
  refine .bind popping_popValue.calm fun number _ _ => ?_
  refine .bind popping_popValue.calm fun name _ _ => ?_
  dsimp only
  split
  · split
    · exact calm_pushValue _
    · exact calm_fault _
  · exact calm_fault _

theorem popping_tryPopValue : Popping tryPopValue state := by
  refine .get_bind ?_
  split
  · exact .pure _
  · exact .bind popping_pop fun _ _ _ => .pure _

theorem calm_listRange : Calming program listRange state := by
  refine .bind popping_tryPopValue.calm fun high _ _ => ?_
  refine .bind popping_tryPopValue.calm fun low _ _ => ?_
  refine .bind popping_tryPopValue.calm fun set _ _ => ?_
  split
  · exact calm_pushValue _
  · exact calm_fault _

theorem calm_listRandom : Calming program listRandom state := by
  refine .bind popping_popValue.calm fun value _ _ => ?_
  split
  · split
    · exact calm_pushValue _
    · refine .bind calm_draw fun drawn _ _ => ?_
      exact .bind (calm_pushValue _) fun _ _ _ => calm_remember _
  · exact calm_fault _

theorem calm_perform (calm : command.isCalm) :
    Calming program (perform program command) state := by
  cases command with
  | outputValue => exact calm_outputValue
  | nothing => exact .pure _
  | duplicate => exact calm_duplicate
  | dropValue => exact .map popping_pop.calm
  | beginTag => exact calm_emit rfl nofun
  | endTag => exact calm_endTag
  | choiceCount => exact .get_bind (calm_pushInt _)
  | turns => exact .get_bind (calm_pushInt _)
  | turnsSince => exact calm_countAt _ _ _
  | readCount => exact calm_countAt _ _ _
  | random => exact calm_random
  | seedRandom => exact calm_seedRandom
  | visitIndex => exact calm_visitIndex
  | shuffleIndex => exact calm_shuffleIndex
  | startThread => exact .pure _
  | listFromInt => exact calm_listFromInt
  | listRange => exact calm_listRange
  | listRandom => exact calm_listRandom
  | _ => contradiction

/-- Commands make no assignments. -/
theorem changing_perform (quotes : command.quotes → limits.quotes) :
    Altering program limits (perform program command) state := by
  by_cases calm : command.isCalm
  · exact (calm_perform calm).changing
  · cases command with
    | beginEvaluation => exact changing_beginEvaluation
    | endEvaluation => exact changing_endEvaluation
    | returnFromFunction => exact changing_returnFrom .function none fun _ => quotes rfl
    | returnFromTunnel =>
      exact .bind popping_popReturnTarget.calm.changing fun _ _ _ => changing_returnFrom _ _ nofun
    | beginString => exact changing_beginString (quotes rfl)
    | endString => exact changing_endString (quotes rfl)
    | done => exact changing_done
    | finish => exact .modify (.single .forceEnd)
    | _ => exact absurd rfl calm

/-! ### Choices -/

theorem popping_popChoiceText : Popping popChoiceText state := by
  refine .bind popping_popValue fun value _ _ => ?_
  split
  · refine .get_bind ?_
    refine .bind (.modify (.single ⟨_, fun content member => ?_, rfl⟩)) fun _ _ _ => .pure _
    exact mem_of_mem_drop member
  · exact .throw _

theorem popping_popChoiceTextIf (present : Bool) : Popping (popChoiceTextIf present) state := by
  cases present
  · exact .pure _
  · exact popping_popChoiceText

theorem popping_popConditionIf (present : Bool) : Popping (popConditionIf present) state := by
  cases present
  · exact .pure _
  · exact popping_popCondition

theorem popping_isUsedUp (origin : Place) (point : ChoicePoint) :
    Popping (isUsedUp program origin point) state := by
  unfold isUsedUp
  split
  · exact .pure _
  · split
    · refine .get_bind ?_
      exact .bind (leads_ofFault _) fun _ _ _ => .pure _
    · exact .pure _

/-- A choice point takes objects off the evaluation stack, whether it generates a choice or not. -/
theorem popping_generateChoice (origin : Place) (point : ChoicePoint) :
    Popping (generateChoice program origin point) state := by
  refine .bind (popping_popConditionIf _) fun holds _ _ => ?_
  refine .bind (popping_popChoiceTextIf _) fun choiceOnly _ _ => ?_
  refine .bind (popping_popChoiceTextIf _) fun start _ _ => ?_
  refine .bind (popping_isUsedUp origin point) fun usedUp _ _ => ?_
  split
  · exact .pure _
  · exact .get_bind (.pure _)

/-- A choice leads where its choice point does, in a copy of the running thread, and comes behind
those that are shown. -/
theorem generated_of_generateChoice {choice : Choice}
    (run : generateChoice program origin point state = .ok (some choice) after) :
    choice.thread = after.callStack.fork.1 ∧
      choice.target = program.absolutePath origin point.target ∧
      choice.index = (after.choices.filter fun choice => !choice.isInvisible).length := by
  unfold generateChoice at run
  obtain ⟨holds, _, -, run⟩ := bind_eq_ok_iff.mp run
  obtain ⟨choiceOnly, _, -, run⟩ := bind_eq_ok_iff.mp run
  obtain ⟨start, _, -, run⟩ := bind_eq_ok_iff.mp run
  obtain ⟨usedUp, _, -, run⟩ := bind_eq_ok_iff.mp run
  split at run
  · cases run
  · cases run
    exact ⟨rfl, rfl, rfl⟩

theorem calm_offerChoice (holds : program.Holds origin (.choicePoint point)) :
    Calming program (offerChoice program origin point) state := by
  refine .bind (popping_generateChoice origin point).calm fun generated _ run => ?_
  cases generated with
  | none => exact .pure _
  | some choice =>
    obtain ⟨thread, target, index⟩ := generated_of_generateChoice run
    exact .modify (.single (.offer origin point choice holds thread target index))

/-! ### Moving on -/

theorem changes_increment : Alterations program limits state (state.increment program) := by
  unfold increment
  split
  · next pointer here => exact .single (.advance pointer here)
  · exact .refl

theorem changes_push_void : Alterations program limits state (state.push .void) := by
  refine changes_stack fun content member => ?_
  rcases mem_cons.mp member with rfl | below
  · exact .inr rfl
  · exact .inl below

theorem unwind?_cases (unwound : state.unwind? = some after) :
    after = state.returnFromFunction ∨ after = { state with callStack := state.callStack.popThread } := by
  unfold unwind? at unwound
  split at unwound
  · exact .inl (Option.some.inj unwound).symm
  · split at unwound
    · exact .inr (Option.some.inj unwound).symm
    · contradiction

section

variable (quotes : limits.quotes)

include quotes

theorem changes_returnFromFunction : Alterations program limits state state.returnFromFunction := by
  have left : Alterations program limits state
      { state with
        output := state.output.leaveFunction state.callStack
        callStack := state.callStack.drop } := .tail (.single (.trim quotes)) .dropFrame
  unfold returnFromFunction
  dsimp only
  split
  · exact left.trans changes_push_void
  · exact left

theorem changes_moveOnWithin (limit : Nat) :
    Alterations program limits state (state.moveOnWithin program limit) := by
  induction limit generalizing state with
  | zero => exact .refl
  | succ limit ih =>
    have departed : Alterations program limits state (state.setPrevious state.pointer) :=
      .single .depart
    rw [moveOnWithin]
    generalize state.setPrevious state.pointer = behind at departed ⊢
    dsimp only
    split
    · next pointer diverted =>
      exact (departed.tail (.land pointer diverted)).trans changes_visitEntered
    · have moved : Alterations program limits state (behind.increment program) :=
        departed.trans changes_increment
      split
      · exact moved
      · split
        · next outer unwound =>
          have left : Alterations program limits state outer := by
            rcases unwind?_cases unwound with rfl | rfl
            · exact moved.trans (changes_returnFromFunction quotes)
            · exact moved.tail .popThread
          split
          · exact left.trans ih
          · exact left
        · split
          · exact moved.trans changes_exitHostCall
          · exact moved

theorem changes_moveOn : Alterations program limits state (state.moveOn program) :=
  changes_moveOnWithin quotes _

end

/-! ### Objects -/

theorem calm_divertToVariable (name : String) :
    Calming program (divertToVariable program name) state := by
  refine .get_bind ?_
  split
  · exact calm_fault _
  · exact calm_divertTo _
  · exact calm_fault _
  · exact calm_fault _

theorem changing_pushFrame {kind : FrameKind} (allowed : limits.pushable kind) :
    Altering program limits (pushFrame kind) state :=
  .modify (.single (.pushFrame kind 0 _ allowed))

theorem changing_finishJump (pushes : ∀ kind, divert.pushes = some kind → limits.pushable kind) :
    Altering program limits (finishJump divert) state := by
  have rest {state : State} : Altering program limits
      (do
        if (← get).diverted.isNone then fault (.unresolvedDivert divert.description)
        return (none : Option HostRequest)) state := by
    exact .get_bind (.refused fun _ => .pure _)
  unfold finishJump
  cases pushed : divert.pushes with
  | none => exact rest
  | some kind => exact .bind (changing_pushFrame (pushes kind pushed)) fun _ _ _ => rest

theorem changing_jump (has : program.HasPlace origin)
    (pushes : ∀ kind, divert.pushes = some kind → limits.pushable kind) :
    Altering program limits (jump program origin divert) state := by
  unfold jump
  split
  · exact .pure _
  · exact .bind (calm_divertToVariable _).changing fun _ _ _ => changing_finishJump pushes
  · next path _ =>
    refine .bind (.modify (.single (.divert _ fun target leads => ?_))) fun _ _ _ =>
      changing_finishJump pushes
    exact program.points_divertPointer has leads

theorem changing_performDivert (has : program.HasPlace origin)
    (pushes : ∀ kind, divert.pushes = some kind → limits.pushable kind) :
    Altering program limits (performDivert program origin divert) state := by
  unfold performDivert
  split
  · refine .bind popping_popCondition.calm.changing fun holds _ _ => ?_
    split
    · exact .pure _
    · exact changing_jump has pushes
  · exact changing_jump has pushes

theorem calm_readCount (origin : Place) (path : Path) :
    Calming program (readCount program origin path) state := by
  unfold readCount
  split
  · refine .get_bind ?_
    exact .bind (leads_ofFault _) fun _ _ _ => calm_pushInt _
  · exact calm_fault _

theorem isPlain_ofValue (value : Value) : (Content.ofValue value).isPlain := by
  cases value <;> rfl

theorem calm_readVariable (name : String) :
    Calming program (readVariable program name) state := by
  refine .get_bind ?_
  split
  · exact calm_push (isPlain_ofValue _)
  · exact .bind (.modify (.single (.warn _))) fun _ _ _ => calm_pushInt _

theorem calm_applyOperator (operator : Operator) :
    Calming program (applyOperator program operator) state := by
  refine .bind (popping_popMany _).calm fun operands _ _ => ?_
  refine .bind (leads_ofFault _) fun values _ _ => ?_
  exact .bind (leads_ofFault _) fun _ _ _ => calm_pushValue _

theorem changes_assign
    (allowed : ∀ name, state.assigned? program (.assignment assignment) = some name →
      limits.writable name)
    (assigned : state.assign program assignment value = .ok after) :
    Alterations program limits state after := by
  rw [assign_eq] at assigned
  split at assigned
  · next isGlobal =>
    cases assigned
    exact .single (.write _ _ (allowed _ (if_pos isGlobal)))
  · obtain ⟨stack, temporary, rfl⟩ := exists_of_map assigned
    exact .single (.temporary temporary)

theorem changing_assign
    (allowed : ∀ name, state.assigned? program (.assignment assignment) = some name →
      limits.writable name) :
    Altering program limits (assign program assignment) state := by
  refine .bind popping_pop.calm.changing fun content popped run => ?_
  refine .bind (leads_ofFault _) fun value middle checked => ?_
  have same : middle.scope program = state.scope program := by
    obtain ⟨-, rfl⟩ := ofFault_eq_ok checked
    obtain ⟨rest, -, rfl⟩ := pop_eq_ok run
    rfl
  refine leads_ofState fun after => changes_assign fun name target => allowed name ?_
  simp only [assigned?, same] at target ⊢
  exact target

theorem changing_performContent (has : program.HasPlace origin)
    (allowed : ∀ name, state.assigned? program content = some name → limits.writable name)
    (pushes : ∀ kind, content.pushes? = some kind → limits.pushable kind)
    (quotes : content.quotes → limits.quotes) :
    Altering program limits (performContent program origin content) state := by
  cases content with
  | divert divert => exact changing_performDivert has pushes
  | command command => exact .bind (changing_perform quotes) fun _ _ _ => .pure _
  | assignment assignment => exact .bind (changing_assign allowed) fun _ _ _ => .pure _
  | readCount path => exact .bind (calm_readCount origin path).changing fun _ _ _ => .pure _
  | «variable» name => exact .bind (calm_readVariable name).changing fun _ _ _ => .pure _
  | operator operator => exact .bind (calm_applyOperator operator).changing fun _ _ _ => .pure _
  | value value => exact .pure _
  | choicePoint point => exact .pure _
  | glue => exact .pure _
  | tag text => exact .pure _
  | void => exact .pure _

theorem isPlain_pinned (plain : content.isPlain) :
    (pinned state content).isPlain := by
  unfold pinned
  split
  · rfl
  · exact plain

theorem calm_addContent (plain : content.isPlain) (within : content ≠ .command .beginString) :
    Calming program (addContent content) state := by
  refine .modify ?_
  split
  · exact calm_push (isPlain_pinned plain)
  · refine calm_emit (isPlain_pinned plain) ?_
    unfold pinned
    split
    · nofun
    · exact within

theorem calm_deliver (holds : program.Holds origin content) :
    Calming program (deliver program origin content) state := by
  unfold deliver
  split
  · exact calm_offerChoice holds
  · exact calm_addContent rfl nofun
  · exact calm_addContent rfl nofun
  · exact calm_addContent rfl nofun
  · exact calm_addContent rfl nofun
  · exact .pure _

theorem changing_finishContent (holds : program.Holds origin content) (quotes : limits.quotes) :
    Altering program limits (finishContent program origin content) state := by
  refine .get_bind ?_
  split
  · exact .pure _
  · refine .bind (calm_deliver holds).changing fun _ _ _ => ?_
    refine .bind (.modify (changes_moveOn quotes)) fun _ _ _ => ?_
    split
    · exact .modify (.single .pushThread)
    · exact .pure _

end Walk

end Run

end InkStory
