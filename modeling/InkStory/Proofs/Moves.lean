import InkStory.Proofs.Changes
import InkStory.Story.Line

/-! # What a step does to a story

A step of a line evaluates an object, which changes the state of the story and calls its host. Then
the story looks ahead or goes back, and does nothing else. It looks ahead only from where it can go
on, and of the functions of the host that are not to be called while it does it calls none then. -/

namespace InkStory

open List Option Run

variable {writable : String → Prop} {callable : HostCall → Prop} {story after : Story}
  {limits : Limits}

/-- The call of the host that an event is. -/
def Event.call? : Event → Option HostCall
  | .called call => some call
  | .changed _ _ _ => none

namespace Story

/-- The global that the next step of a story assigns, if that step is an assignment to one. -/
def assigned? (story : Story) : Option String :=
  story.state.pointer.bind fun start =>
    let state := story.state.descend story.program start
    state.pointer.bind fun pointer =>
      (story.program.objectAt? pointer).bind fun object =>
        state.assigned? story.program object.2

/-- A function of the host is bound that is not to be called while the story looks ahead. -/
def isUnsafe (story : Story) (name : String) : Bool :=
  (story.bindings.get? name).any fun binding => !binding.lookaheadSafe

/-- What evaluation can do to a story at once, within limits and where `callable` says which calls of
the host are made. -/
inductive Affects (limits : Limits) (callable : HostCall → Prop) (story : Story) : Story → Prop where
  | change {state : State} (changed : State.Alters story.program limits story.state state) :
      Affects limits callable story { story with state := state }
  | call (call : HostCall) (made : callable call) :
      Affects limits callable story
        { story with
          bindings := story.bindings.map (Binding.note call)
          journal := story.journal ++ [.called call] }
  /-- A call is put off while the story looks ahead. -/
  | defer (pending : story.snapshot.isSome = true) :
      Affects limits callable story { story with callDeferred := true }

/-- What evaluation can do to a story at once, where `writable` says which globals are assigned. -/
abbrev Effect (writable : String → Prop) : (HostCall → Prop) → Story → Story → Prop :=
  Affects ⟨writable, fun _ => True, True⟩

/-- What a step can do to a story at once. -/
inductive Move (writable : String → Prop) (callable : HostCall → Prop) (story : Story) :
    Story → Prop where
  | effect {after : Story} (effect : Effect writable callable story after) :
      Move writable callable story after
  | workOut : Move writable callable story story.workOutText
  | rewind : Move writable callable story story.rewind
  | keepLookahead : Move writable callable story story.keepLookahead
  | takeSnapshot (settled : story.snapshot = none) (goesOn : story.canContinue = true) :
      Move writable callable story story.takeSnapshot

/-- Evaluation changes neither the program nor what the story may go back to. -/
theorem Affects.kept (effect : Affects limits callable story after) :
    after.program = story.program ∧ after.snapshot = story.snapshot := by
  cases effect <;> exact ⟨rfl, rfl⟩

theorem program_settle (story : Story) : story.settle.program = story.program := by
  unfold settle
  split <;> rfl

/-- A step does not change the program. -/
theorem Move.program_eq (move : Move writable callable story after) :
    after.program = story.program := by
  cases move with
  | effect effect => exact effect.kept.1
  | rewind =>
    unfold Story.rewind
    split
    · rfl
    · exact program_settle _
  | keepLookahead => exact program_settle story
  | _ => rfl

theorem Move.mono {wider : HostCall → Prop} (move : Move writable callable story after)
    (includes : ∀ call, callable call → wider call) : Move writable wider story after := by
  cases move with
  | effect effect =>
    cases effect with
    | change changed => exact .effect (.change changed)
    | call call made => exact .effect (.call call (includes call made))
    | defer pending => exact .effect (.defer pending)
  | workOut => exact .workOut
  | rewind => exact .rewind
  | keepLookahead => exact .keepLookahead
  | takeSnapshot settled goesOn => exact .takeSnapshot settled goesOn

theorem journal_settle (story : Story) : story.settle.journal = story.journal := by
  unfold settle
  split <;> rfl

theorem journal_rewind (story : Story) : story.rewind.journal = story.journal := by
  unfold rewind
  split
  · rfl
  · exact journal_settle _

/-- A move makes the calls that the journal lists behind it. -/
theorem Move.calls (move : Move writable callable story after) :
    ∃ calls : List HostCall, after.journal = story.journal ++ calls.map .called ∧
      (∀ call ∈ calls, callable call) ∧ Move writable (· ∈ calls) story after := by
  have silent (same : after.journal = story.journal) (move : Move writable (· ∈ []) story after) :
      ∃ calls : List HostCall, after.journal = story.journal ++ calls.map .called ∧
        (∀ call ∈ calls, callable call) ∧ Move writable (· ∈ calls) story after :=
    ⟨[], by simpa using same, nofun, move⟩
  cases move with
  | effect effect =>
    cases effect with
    | change changed => exact silent rfl (.effect (.change changed))
    | defer pending => exact silent rfl (.effect (.defer pending))
    | call call made =>
      refine ⟨[call], rfl, fun other member => ?_, .effect (.call call mem_cons_self)⟩
      rwa [mem_singleton.mp member]
  | workOut => exact silent rfl .workOut
  | rewind => exact silent (journal_rewind story) .rewind
  | keepLookahead => exact silent (journal_settle story) .keepLookahead
  | takeSnapshot settled goesOn => exact silent rfl (.takeSnapshot settled goesOn)

/-- Moves make the calls that the journal lists behind them. -/
theorem calls_of_moves (moves : Relation.ReflTransGen (Move writable callable) story after) :
    ∃ calls : List HostCall, after.journal = story.journal ++ calls.map .called ∧
      (∀ call ∈ calls, callable call) ∧
      Relation.ReflTransGen (Move writable (· ∈ calls)) story after := by
  induction moves with
  | refl => exact ⟨[], by simp, nofun, .refl⟩
  | tail _ move ih =>
    obtain ⟨former, journal, made, moves⟩ := ih
    obtain ⟨latter, longer, last, move⟩ := move.calls
    refine ⟨former ++ latter, ?_, ?_, ?_⟩
    · rw [longer, journal, map_append, append_assoc]
    · intro call member
      exact (mem_append.mp member).elim (made call) (last call)
    · have moves := Relation.ReflTransGen.mono
        (fun _ _ (move : Move writable (· ∈ former) _ _) =>
          move.mono fun _ => mem_append_left latter) _ _ moves
      exact moves.tail (move.mono fun _ => mem_append_right former)

end Story

namespace Play

open Story

variable {state : State} {name : String} {play : Play α}

/-- An operation does nothing to a story but evaluate, within limits. -/
abbrev Affecting (limits : Limits) (callable : HostCall → Prop) (play : Play α) (story : Story) :
    Prop :=
  Leads (Affects limits callable) play story

/-- An operation does nothing to a story but evaluate. -/
abbrev Evaluating (writable : String → Prop) (callable : HostCall → Prop) (play : Play α)
    (story : Story) : Prop :=
  Leads (Effect writable callable) play story

/-- An operation does nothing to a story but make moves. -/
abbrev Moving (writable : String → Prop) (callable : HostCall → Prop) (play : Play α)
    (story : Story) : Prop :=
  Leads (Move writable callable) play story

theorem effects_of_changes
    (changes : State.Alterations story.program limits story.state state) :
    Relation.ReflTransGen (Affects limits callable) story { story with state := state } := by
  induction changes with
  | refl => exact .refl
  | tail _ last ih => exact ih.tail (.change last)

theorem evaluating_onState {run : Run α}
    (changing : Altering story.program limits run story.state) :
    Affecting limits callable (onState run) story := by
  unfold Altering Leads at changing
  unfold Affecting Leads
  rw [onState_apply]
  cases outcome : run story.state <;>
    rw [outcome] at changing <;> exact effects_of_changes changing

theorem evaluating_modifyState {change : State → State}
    (changes : State.Alterations story.program limits story.state (change story.state)) :
    Affecting limits callable (modifyState change) story := effects_of_changes changes

theorem evaluating_fault (found : Fault) :
    Affecting limits callable (fault found : Play α) story := .throw _

/-- The function of the story that stands in for one of the host has a frame of its own. -/
theorem evaluating_callFallback (name : String) (allowed : limits.pushable .function) :
    Affecting limits callable (callFallback name) story := by
  refine .get_bind (.refused fun _ => ?_)
  split
  · next fallback known =>
    refine .bind (evaluating_onState (changing_pushFrame allowed)) fun _ middle pushed => ?_
    have same : middle.program = story.program := by
      cases pushed
      rfl
    refine evaluating_modifyState (.single (.divert _ fun target startsAt => ?_))
    cases startsAt
    rw [same]
    exact Program.points_startOf (Program.has_named Program.has_root known)
  · exact evaluating_fault _

theorem evaluating_callBinding {arguments : List Value} (binding : Binding)
    (made : callable ⟨name, arguments⟩) :
    Affecting limits callable (callBinding name binding arguments) story := by
  refine .bind (.modify (.single (.call _ made))) fun _ _ _ => ?_
  split
  · exact evaluating_onState (calm_pushValue _).changing
  · exact evaluating_onState (calm_push rfl).changing
  · exact evaluating_fault _

theorem popping_popArguments (name : String) (count : Nat) :
    Popping (popArguments name count) state :=
  .bind (popping_popMany count) fun _ _ _ => leads_ofFault _

/-- A call is put off, or it is one that may be made now. -/
theorem evaluating_callHost (count : Nat)
    (made : (story.isUnsafe name → story.snapshot = none) → ∀ arguments, callable ⟨name, arguments⟩)
    (fallback : limits.pushable .function) :
    Affecting limits callable (callHost name count) story := by
  refine .get_bind ?_
  split
  · exact evaluating_callFallback name fallback
  · next binding bound =>
    split
    · next waits =>
      rw [Bool.and_eq_true] at waits
      exact .set (.single (.defer waits.2))
    · next allowed =>
      refine .bind (evaluating_onState (popping_popArguments name count).calm.changing) fun arguments _ _ => ?_
      refine evaluating_callBinding binding (made (fun waits => ?_) arguments)
      simp only [isUnsafe, bound, any_some] at waits
      simpa [waits] using allowed

theorem program_of_evaluating {value : α} (evaluating : Affecting limits callable play story)
    (done : play story = .ok value after) : after.program = story.program := by
  have same := evaluating.invariant
    (fun _ _ effect same => effect.kept.1.trans same) (Eq.refl story.program)
  rw [done] at same
  exact same

section Step

variable
  (made : ∀ call, (story.isUnsafe call.function = true → story.snapshot = none) → callable call)
  (fallback : limits.pushable .function) (quotes : limits.quotes)

include made fallback quotes

/-- An object at its place makes no assignment but its own. -/
theorem evaluating_evaluate {place : Place} {content : Content}
    (holds : story.program.Holds place content)
    (allowed : ∀ name, story.state.assigned? story.program content = some name →
      limits.writable name)
    (pushes : ∀ kind, content.pushes? = some kind → limits.pushable kind) :
    Affecting limits callable (evaluate place content) story := by
  refine .get_bind ?_
  have performing : Affecting limits callable
      (onState (performContent story.program place content)) story :=
    evaluating_onState
      (changing_performContent holds.hasPlace allowed pushes fun _ => quotes)
  refine .bind performing fun request middle performed => ?_
  have same := program_of_evaluating performing performed
  cases request with
  | none =>
    refine evaluating_onState ?_
    rw [same]
    exact changing_finishContent holds quotes
  | some request =>
    have calling : Affecting limits callable (callHost request.function request.arguments)
        middle := by
      refine evaluating_callHost request.arguments ?_ fallback
      rw [onState_apply] at performed
      cases outcome : performContent story.program place content story.state with
      | error error state =>
        rw [outcome] at performed
        contradiction
      | ok asked state =>
        rw [outcome] at performed
        cases performed
        exact fun waits arguments => made _ waits
    refine .bind calling fun _ called done => ?_
    refine evaluating_onState ?_
    rw [program_of_evaluating calling done, same]
    exact changing_finishContent holds quotes

/-- A step makes no assignment but the one that is next, and pushes no frames but those of objects
of the program and of functions. -/
theorem affecting_step (allowed : ∀ name, story.assigned? = some name → limits.writable name)
    (pushes : ∀ place content kind, story.program.Holds place content →
      content.pushes? = some kind → limits.pushable kind) :
    Affecting limits callable step story := by
  refine .get_bind ?_
  refine .get_bind ?_
  split
  · next start here =>
    refine .bind (evaluating_modifyState (changes_descend here)) fun _ middle went => ?_
    cases went
    refine .get_bind ?_
    split
    · next pointer there =>
      split
      · next place content object =>
        have holds : story.program.Holds place content := ⟨pointer, object⟩
        refine evaluating_evaluate (by exact made) fallback quotes holds
          (fun name assigns => allowed name ?_) fun kind => pushes place content kind holds
        rw [assigned?, here, bind_some, bind_eq_some_iff]
        exact ⟨pointer, there, bind_eq_some_iff.mpr ⟨(place, content), object, assigns⟩⟩
      · exact evaluating_modifyState (changes_moveOn quotes)
    · exact .pure _
  · exact .pure _

end Step

theorem evaluating_step (allowed : ∀ name, story.assigned? = some name → writable name)
    (made : ∀ call, (story.isUnsafe call.function → story.snapshot = none) → callable call) :
    Evaluating writable callable step story :=
  affecting_step made trivial trivial allowed fun _ _ _ _ _ => trivial

theorem evaluating_followInvisibleChoice :
    Affecting limits callable followInvisibleChoice story := by
  refine .get_bind ?_
  split
  · exact .pure _
  · next choice others offered =>
    split
    · have taken : State.Alterations story.program limits story.state (story.state.take choice) :=
        .single (.take choice (by rw [offered]; exact mem_cons_self))
      have taking : Affecting limits callable
          (modifyState fun state =>
            let taken := state.take choice
            if story.snapshot.isSome then { taken with callStack := taken.callStack.renumber }
            else taken) story := by
        refine evaluating_modifyState ?_
        split
        · exact taken.tail .renumber
        · exact taken
      refine .bind taking fun _ middle took => ?_
      refine evaluating_onState ?_
      rw [program_of_evaluating taking took]
      exact changing_choosePath _ _
    · exact .pure _

theorem evaluating_leaveDeadEnd : Affecting limits callable leaveDeadEnd story := by
  refine .get_bind ?_
  dsimp only
  split
  · exact evaluating_followInvisibleChoice
  · exact .pure _

theorem moving_of_evaluating (evaluating : Evaluating writable callable play story) :
    Moving writable callable play story := evaluating.mono fun _ _ => .effect

/-! ### What a step makes of the line -/

theorem compareWithSnapshot_cases (pending : story.snapshot.isSome) :
    compareWithSnapshot story = .ok true story.workOutText.rewind ∨
      ∃ next, compareWithSnapshot story = .ok false next ∧
        (next = story.workOutText ∨ next = story.workOutText.keepLookahead) := by
  obtain ⟨snapshot, pending⟩ := isSome_iff_exists.mp pending
  have worked : story.workOutText.snapshot =
      some { snapshot with output := snapshot.output.known } := by
    rw [workOutText, pending]
    rfl
  simp only [compareWithSnapshot, bind_apply, modify_apply, get_apply, worked]
  split
  · exact .inl rfl
  · split
    · exact .inr ⟨_, rfl, .inr rfl⟩
    · exact .inr ⟨_, rfl, .inl rfl⟩

theorem markNewline_cases (story : Story) :
    ∃ next, markNewline story = .ok () next ∧
      (next = story ∨ next = story.keepLookahead ∨
        story.snapshot = none ∧ story.canContinue ∧ next = story.takeSnapshot) := by
  rw [markNewline, modify_apply]
  refine ⟨_, rfl, ?_⟩
  split
  · exact .inl rfl
  · split
    · exact .inr (.inl rfl)
    · split
      · next goesOn settled =>
        exact .inr (.inr ⟨isNone_iff_eq_none.mp settled, by simpa using goesOn, rfl⟩)
      · exact .inl rfl

/-- The check of a line goes back to the newline, or it forgets it, looks on, or begins to look
ahead. -/
theorem checkLine_cases (story : Story) :
    story.snapshot.isSome ∧ checkLine story = .ok true story.workOutText.rewind ∨
      ∃ middle next, checkLine story = .ok false next ∧
        (middle = story ∨ middle = story.workOutText ∨ middle = story.workOutText.keepLookahead) ∧
        (next = middle ∨ next = middle.keepLookahead ∨
          middle.snapshot = none ∧ middle.canContinue ∧ next = middle.takeSnapshot) := by
  simp only [checkLine, bind_apply, get_apply, ite_run]
  split
  · exact .inr ⟨story, story, rfl, .inl rfl, .inl rfl⟩
  · split
    · next pending =>
      obtain back | ⟨middle, compared, outcome⟩ := compareWithSnapshot_cases pending
      · rw [back]
        exact .inl ⟨pending, rfl⟩
      · obtain ⟨next, marked, cases⟩ := markNewline_cases middle
        simp only [compared, marked]
        exact .inr ⟨middle, next, rfl, .inr outcome, cases⟩
    · obtain ⟨next, marked, cases⟩ := markNewline_cases story
      rw [marked]
      exact .inr ⟨story, next, rfl, .inl rfl, cases⟩

/-- To see what a step made of the line, the story looks ahead or goes back, and does nothing
else. -/
theorem leads_checkLine {step : Story → Story → Prop}
    (worksOut : ∀ before : Story, step before before.workOutText)
    (rewinds : ∀ before : Story, step before before.rewind)
    (keeps : ∀ before : Story, step before before.keepLookahead)
    (takes : ∀ before : Story, before.snapshot = none → before.canContinue →
      step before before.takeSnapshot) :
    Leads step checkLine story := by
  unfold Leads
  have worked := Relation.ReflTransGen.single (worksOut story)
  obtain ⟨-, back⟩ | ⟨middle, next, checked, first, second⟩ := checkLine_cases story
  · rw [back]
    exact worked.tail (rewinds _)
  · have reached : Relation.ReflTransGen step story middle := by
      rcases first with rfl | rfl | rfl
      · exact .refl
      · exact worked
      · exact worked.tail (keeps _)
    rw [checked]
    rcases second with rfl | rfl | ⟨settled, goesOn, rfl⟩
    · exact reached
    · exact reached.tail (keeps _)
    · exact reached.tail (takes _ settled goesOn)

theorem moving_checkLine : Moving writable callable checkLine story :=
  leads_checkLine (fun _ => .workOut) (fun _ => .rewind) (fun _ => .keepLookahead)
    fun _ => .takeSnapshot

theorem moving_singleStep (allowed : ∀ name, story.assigned? = some name → writable name)
    (made : ∀ call, (story.isUnsafe call.function → story.snapshot = none) → callable call) :
    Moving writable callable singleStep story :=
  .bind (moving_of_evaluating (evaluating_step allowed made)) fun _ _ _ =>
    .bind (moving_of_evaluating evaluating_leaveDeadEnd) fun _ _ _ => moving_checkLine

end Play

namespace Story

/-- The calls of the host that the next step of a story makes. -/
def newCalls (story : Story) : List HostCall :=
  ((leaves (Play.singleStep story)).journal.drop story.journal.length).filterMap Event.call?

/-- The next step of a story assigns globals, and makes calls of the host, that are allowed only. -/
structure Allows (writable : String → Prop) (callable : HostCall → Prop) (story : Story) :
    Prop where
  assigns : ∀ name, story.assigned? = some name → writable name
  calls : ∀ call ∈ story.newCalls, callable call

end Story

namespace Play

open Story

/-- A step makes the calls of the host that it adds to the journal. -/
theorem moving_newCalls (allowed : ∀ name, story.assigned? = some name → writable name) :
    (leaves (singleStep story)).journal = story.journal ++ story.newCalls.map .called ∧
      (∀ call ∈ story.newCalls, story.isUnsafe call.function → story.snapshot = none) ∧
      Moving writable (· ∈ story.newCalls) singleStep story := by
  have moving := moving_singleStep allowed fun call allowed => allowed
  obtain ⟨calls, journal, made, moves⟩ := calls_of_moves moving
  have new : story.newCalls = calls := by
    rw [newCalls, journal, drop_left, filterMap_map]
    exact filterMap_some
  rw [new]
  exact ⟨journal, made, moves⟩

theorem moving_allowed (allows : story.Allows writable callable) :
    Moving writable callable singleStep story :=
  (moving_newCalls allows.assigns).2.2.mono fun _ _ move => move.mono allows.calls

end Play

end InkStory
