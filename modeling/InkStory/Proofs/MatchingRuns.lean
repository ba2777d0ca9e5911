import InkStory.Proofs.MatchingStates

/-! # Objects at work in states that cannot be told apart

In states that match, an object does the same: it gives the same answer or fails with the same error,
and leaves states that match. -/

namespace InkStory

open Agrees State

variable {state other : State}

namespace Run

variable {mode : Comparison}

open Respects

/-- An operation does the same in states that match. -/
abbrev Blind (mode : Comparison) (run : Run α) : Prop :=
  Respects (Matches mode) run

/-! ### Operations that may fail -/

theorem respects_fault (found : Fault) : Blind mode (fault found : Run α) := throw _

theorem respects_ofFault (result : Except Fault α) : Blind mode (ofFault result) := by
  cases result with
  | ok value => exact pure value
  | error found => exact respects_fault found

theorem agrees_ofState {result next : Except Error State} (same : Matches mode state other)
    (concurs : Concurs (Matches mode) result next) :
    Agrees Eq (Matches mode) (ofState result state) (ofState next other) := by
  cases concurs with
  | ok left => exact .ok rfl left
  | error error => exact .error error same

theorem respects_push (content : Content) : Blind mode (push content) :=
  modify fun _ _ same => same.push content

theorem respects_pushValue (value : Value) : Blind mode (pushValue value) :=
  respects_push _

theorem respects_pushInt (number : Int32) : Blind mode (pushInt number) :=
  respects_push _

theorem respects_emit (content : Content) : Blind mode (emit content) :=
  modify fun _ _ same => same.emit content

theorem respects_pop : Blind mode pop := by
  refine read (fun state other same => by rw [same.evaluation]) fun state => ?_
  split
  · exact bind (modify fun _ _ same => { same with evaluation := rfl }) fun _ => pure _
  · exact respects_fault _

theorem respects_popMany (count : Nat) : Blind mode (popMany count) := by
  refine read (fun state other same => by rw [same.evaluation]) fun state => ?_
  dsimp only
  split
  · exact throw_bind _
  · exact bind (modify fun _ _ same => { same with evaluation := rfl }) fun _ => pure _

theorem respects_popValue : Blind mode popValue := by
  refine bind respects_pop fun content => ?_
  split
  · exact pure _
  · exact respects_fault _

theorem respects_popCondition : Blind mode popCondition :=
  bind respects_popValue fun _ => respects_ofFault _

theorem respects_pointerAt (program : Program) (path : Path) :
    Blind mode (pointerAt program path) := by
  refine bind (respects_ofFault _) fun landing => ?_
  split
  · exact bind (modify fun _ _ same => same.warn program _) fun _ => pure _
  · exact pure _

theorem respects_divertTo (program : Program) (path : Path) :
    Blind mode (divertTo program path) :=
  bind (respects_pointerAt program path) fun _ => modify fun _ _ same => { same with diverted := rfl }

theorem respects_choosePath (path : Path) (beginsTurn : Bool) :
    Blind mode (choosePath mode.program path beginsTurn) := by
  refine bind (modify fun _ _ same => { same with choices := .nil }) fun _ => ?_
  refine bind (respects_pointerAt _ path) fun pointer => ?_
  refine bind (modify fun _ _ same => same.setPointer _) fun _ => ?_
  split
  · exact bind (modify fun _ _ same => { same with turn := congrArg (· + 1) same.turn }) fun _ =>
      modify fun _ _ same => same.visitEntered
  · exact modify fun _ _ same => same.visitEntered

theorem respects_passArguments (arguments : List Value) :
    Blind mode (passArguments arguments) := by
  induction arguments with
  | nil => exact pure _
  | cons argument rest ih =>
    refine bind ?_ fun _ => ih
    dsimp only
    split
    all_goals first | exact respects_pushValue _ | exact throw _

theorem respects_enterFunction (function : Address) (arguments : List Value) :
    Blind mode (enterFunction function arguments) := by
  refine bind (modify fun state other same => ?_) fun _ => respects_passArguments arguments
  rw [same.evaluation]
  exact { same with
    callStack := (same.callStack.push _ _ _).setPointer _
    evaluation := rfl }

theorem respects_leaveFunction (program : Program) :
    Blind mode (leaveFunction program) := by
  intro state other same
  apply get_bind
  rw [same.callStack.inHostCall, same.callStack.trace, same.evaluation]
  split
  · exact .throw_bind _ same
  · next inside =>
    have isHostCall : state.callStack.frame.kind = .hostCall := by
      rw [same.callStack.kind]
      simpa [CallStack.inHostCall] using inside
    rw [show state.callStack.frame.stackHeight = other.callStack.frame.stackHeight from
      same.callStack.current.top.stackHeight isHostCall]
    generalize other.evaluation.length - other.callStack.frame.stackHeight = added
    have dropped : Matches mode
        { state with evaluation := other.evaluation.drop added }
        { other with evaluation := other.evaluation.drop added } :=
      { same with evaluation := rfl }
    refine andThen (.ok rfl dropped) fun _ state other same => ?_
    exact (agrees_ofState same (same.leaveFrame _)).andThen fun _ _ _ same => .pure rfl same

/-! ### Control commands -/

theorem respects_beginEvaluation : Blind mode beginEvaluation := by
  refine read (fun state other same => by rw [same.evaluating]) fun state => ?_
  split
  · exact throw_bind _
  · exact modify fun _ _ same => same.setEvaluating true

theorem respects_endEvaluation : Blind mode endEvaluation := by
  refine read (fun state other same => by rw [same.evaluating]) fun state => ?_
  split
  · exact throw_bind _
  · exact modify fun _ _ same => same.setEvaluating false

theorem respects_outputValue : Blind mode outputValue := by
  refine read (fun state other same => by rw [same.evaluation]) fun state => ?_
  split
  · exact pure _
  · refine bind respects_pop fun content => bind (respects_ofFault _) fun text => ?_
    split
    · exact respects_emit _
    · exact pure _

theorem respects_duplicate : Blind mode duplicate := by
  refine read (fun state other same => by rw [same.evaluation]) fun state => ?_
  split
  · exact respects_push _
  · exact respects_fault _

theorem respects_popReturnTarget : Blind mode popReturnTarget := by
  refine bind respects_pop fun content => ?_
  split
  · exact pure _
  · exact pure _
  · exact respects_fault _

theorem respects_returnFrom (program : Program) (kind : FrameKind) (target : Option Path) :
    Blind mode (returnFrom program kind target) := by
  intro state other same
  apply get_bind
  rw [same.callStack.inHostCall, same.callStack.canPopKind, same.callStack.canPop,
    same.callStack.kind]
  split
  · exact .modify same.exitHostCall
  · split
    · exact .throw _ same
    · apply get_bind
      refine (agrees_ofState same (same.leaveFrame _)).andThen fun _ state other same => ?_
      split
      · exact respects_divertTo program _ state other same
      · exact .pure rfl same

theorem respects_beginString : Blind mode beginString := by
  refine read (fun state other same => by rw [same.evaluating]) fun state => ?_
  split
  · exact throw_bind _
  · exact bind (respects_emit _) fun _ => modify fun _ _ same => same.setEvaluating false

theorem respects_endString : Blind mode endString := by
  refine modify fun state other same => ?_
  rw [same.output.endString]
  have cut : Matches mode { state with output := other.output.endString.2 }
      { other with output := other.output.endString.2 } :=
    { same with output := Output.matches_refl _ }
  exact (cut.setEvaluating true).push _

theorem respects_endTag : Blind mode endTag := by
  intro state other same
  apply get_bind
  rw [same.output.inString, same.output.endTag]
  split
  · refine (respects_ofFault _ state other same).andThen fun cut _ _ _ => ?_
    have cut : Matches mode { state with output := cut.2 }
        { other with output := cut.2 } := { same with output := Output.matches_refl _ }
    refine andThen (.ok rfl cut) fun _ state other same => ?_
    exact respects_push _ state other same
  · exact respects_emit _ state other same

theorem respects_popCountTarget : Blind mode popCountTarget := by
  refine bind respects_pop fun content => ?_
  split
  · exact pure _
  · exact respects_fault _
  · exact respects_fault _
  · exact respects_fault _

theorem respects_countAt (program : Program) (command : Command) (missing : Int32)
    {count : State → Address → Except Fault Int32}
    (counts : ∀ state other, State.Matches mode state other → count state = count other) :
    Blind mode (countAt program command missing count) := by
  refine bind respects_popCountTarget fun path => ?_
  split
  · refine read (fun state other same => by rw [counts state other same]) fun state => ?_
    exact bind (respects_ofFault _) fun _ => respects_pushInt _
  · exact bind (modify fun _ _ same => same.warn program _) fun _ => respects_pushInt _

theorem respects_draw : Blind mode draw :=
  read (fun state other same => by rw [same.seed, same.previousDraw]) fun _ => pure _

theorem respects_remember (drawn : Int32) : Blind mode (remember drawn) :=
  modify fun _ _ same => { same with previousDraw := rfl }

theorem respects_random : Blind mode random := by
  refine bind respects_popValue fun high => bind respects_popValue fun low => ?_
  dsimp only
  split
  · split
    · refine bind (respects_ofFault _) fun size => bind respects_draw fun drawn => ?_
      exact bind (respects_pushInt _) fun _ => respects_remember _
    · exact respects_fault _
  · exact respects_fault _

theorem respects_seedRandom : Blind mode seedRandom := by
  refine bind respects_popValue fun value => ?_
  split
  · exact bind (modify fun _ _ same => { same with seed := rfl, previousDraw := rfl }) fun _ =>
      respects_push _
  · exact respects_fault _

theorem respects_visitIndex (program : Program) : Blind mode (visitIndex program) := by
  refine read (fun state other same => ?_) fun state => ?_
  · simp only [same.pointer, same.readVisits]
  · split
    · exact bind (respects_ofFault _) fun _ => respects_pushInt _
    · exact respects_fault _

theorem respects_shuffleIndex (program : Program) : Blind mode (shuffleIndex program) := by
  refine bind respects_popValue fun value => ?_
  split
  · refine read (fun state other same => by rw [same.pointer]) fun state => ?_
    split
    · refine bind respects_popValue fun count => ?_
      split
      · dsimp only
        split
        · exact throw_bind _
        · refine read (fun state other same => by rw [same.seed]) fun state => ?_
          split
          · exact respects_pushInt _
          · exact respects_fault _
      · exact respects_fault _
    · exact respects_fault _
  · exact respects_fault _

theorem respects_done : Blind mode done := by
  refine modify fun state other same => ?_
  rw [same.callStack.canPopThread]
  have stopped : Matches mode { state with exitedSafely := true }
      { other with exitedSafely := true } := { same with exited := fun _ => rfl }
  exact related_ite { same with callStack := same.callStack.popThread } (stopped.setPointer none)

theorem respects_listFromInt (program : Program) : Blind mode (listFromInt program) := by
  refine bind respects_popValue fun number => bind respects_popValue fun name => ?_
  dsimp only
  split
  · split
    · exact respects_pushValue _
    · exact respects_fault _
  · exact respects_fault _

theorem respects_tryPopValue : Blind mode tryPopValue := by
  refine read (fun state other same => by rw [same.evaluation]) fun state => ?_
  split
  · exact pure _
  · exact bind respects_pop fun _ => pure _

theorem respects_listRange : Blind mode listRange := by
  refine bind respects_tryPopValue fun high => bind respects_tryPopValue fun low => ?_
  refine bind respects_tryPopValue fun set => ?_
  split
  · exact respects_pushValue _
  · exact respects_fault _

theorem respects_listRandom : Blind mode listRandom := by
  refine bind respects_popValue fun value => ?_
  split
  · split
    · exact respects_pushValue _
    · refine bind respects_draw fun drawn => ?_
      exact bind (respects_pushValue _) fun _ => respects_remember _
  · exact respects_fault _

theorem respects_perform (command : Command) :
    Blind mode (perform mode.program command) := by
  cases command with
  | beginEvaluation => exact respects_beginEvaluation
  | endEvaluation => exact respects_endEvaluation
  | outputValue => exact respects_outputValue
  | nothing => exact pure _
  | duplicate => exact respects_duplicate
  | dropValue => exact bind respects_pop fun _ => pure _
  | returnFromFunction => exact respects_returnFrom mode.program .function none
  | returnFromTunnel => exact bind respects_popReturnTarget fun _ => respects_returnFrom _ _ _
  | beginString => exact respects_beginString
  | endString => exact respects_endString
  | beginTag => exact respects_emit _
  | endTag => exact respects_endTag
  | choiceCount =>
    exact read (fun state other same => by rw [same.choices.length_eq]) fun _ =>
      respects_pushInt _
  | turns => exact read (fun state other same => by rw [same.turn]) fun _ => respects_pushInt _
  | turnsSince =>
    exact respects_countAt _ _ _ fun state other same => funext (same.turnsSince _)
  | readCount =>
    refine respects_countAt _ _ _ fun state other same => funext fun address => ?_
    rw [same.readVisits]
  | random => exact respects_random
  | seedRandom => exact respects_seedRandom
  | visitIndex => exact respects_visitIndex _
  | shuffleIndex => exact respects_shuffleIndex _
  | startThread => exact pure _
  | done => exact respects_done
  | finish => exact modify fun _ _ same => same.forceEnd
  | listFromInt => exact respects_listFromInt _
  | listRange => exact respects_listRange
  | listRandom => exact respects_listRandom

/-! ### Choices -/

theorem respects_popChoiceText : Blind mode popChoiceText := by
  refine bind respects_popValue fun value => ?_
  split
  · refine read (fun state other same => by rw [same.evaluation]) fun state => ?_
    exact bind (modify fun _ _ same => { same with evaluation := rfl }) fun _ => pure _
  · exact respects_fault _

theorem respects_popChoiceTextIf (present : Bool) :
    Blind mode (popChoiceTextIf present) := by
  unfold popChoiceTextIf
  split
  · exact respects_popChoiceText
  · exact pure _

theorem respects_popConditionIf (present : Bool) :
    Blind mode (popConditionIf present) := by
  unfold popConditionIf
  split
  · exact respects_popCondition
  · exact pure _

theorem respects_isUsedUp (program : Program) (origin : Place) (point : ChoicePoint) :
    Blind mode (isUsedUp program origin point) := by
  unfold isUsedUp
  split
  · exact pure _
  · split
    · refine read (fun state other same => by rw [same.readVisits]) fun state => ?_
      exact bind (respects_ofFault _) fun _ => pure _
    · exact pure _

/-- Choices that are generated from states that match do, in whatever they hold. -/
theorem agrees_generateChoice (program : Program) (origin : Place) (point : ChoicePoint)
    (same : Matches mode state other) :
    Agrees (Option.Rel (Choice.Matches mode.program)) (Matches mode)
      (generateChoice program origin point state) (generateChoice program origin point other) := by
  refine (respects_popConditionIf _ state other same).andThen fun holds state other same => ?_
  refine (respects_popChoiceTextIf _ state other same).andThen fun choiceText state other same => ?_
  refine (respects_popChoiceTextIf _ state other same).andThen fun startText state other same => ?_
  refine (respects_isUsedUp program origin point state other same).andThen
    fun usedUp state other same => ?_
  split
  · exact .pure .none same
  · apply get_bind
    refine .pure (.some ?_) same
    have shown := forall₂_filter same.choices fun choice next sameChoice =>
      congrArg (! ·) sameChoice.isInvisible
    exact
      { text := rfl, source := rfl, target := rfl, isInvisible := rfl, tags := rfl
        index := shown.length_eq
        thread := same.callStack.fork.1 }

theorem respects_offerChoice (program : Program) (origin : Place) (point : ChoicePoint) :
    Blind mode (offerChoice program origin point) := by
  intro state other same
  apply (agrees_generateChoice program origin point same).bind
  intro choice next state other sameChoice same
  cases sameChoice with
  | none => exact .pure rfl same
  | some sameChoice => exact .modify (same.offer sameChoice)

/-! ### Objects -/

theorem respects_divertToVariable (program : Program) (name : String) :
    Blind mode (divertToVariable program name) := by
  refine read (fun state other same => by rw [same.lookup?]) fun state => ?_
  split
  · exact respects_fault _
  · exact respects_divertTo _ _
  · exact respects_fault _
  · exact respects_fault _

theorem respects_pushFrame (kind : FrameKind) : Blind mode (pushFrame kind) := by
  refine modify fun state other same => ?_
  rw [same.output.length]
  exact { same with callStack := same.callStack.push kind 0 _ }

theorem respects_finishJump (divert : Divert) : Blind mode (finishJump divert) := by
  have landed : Blind mode (do
      if (← get).diverted.isNone then fault (.unresolvedDivert divert.description)
      return (none : Option HostRequest)) := by
    refine read (fun state other same => by rw [same.diverted]) fun state => ?_
    split
    · exact throw_bind _
    · exact pure _
  unfold finishJump
  split
  · exact bind (respects_pushFrame _) fun _ => landed
  · exact landed

theorem respects_jump (program : Program) (origin : Place) (divert : Divert) :
    Blind mode (jump program origin divert) := by
  unfold jump
  split
  · exact pure _
  · exact bind (respects_divertToVariable _ _) fun _ => respects_finishJump divert
  · exact bind (modify fun _ _ same => { same with diverted := rfl }) fun _ =>
      respects_finishJump divert

theorem respects_performDivert (program : Program) (origin : Place) (divert : Divert) :
    Blind mode (performDivert program origin divert) := by
  unfold performDivert
  split
  · refine bind respects_popCondition fun holds => ?_
    split
    · exact pure _
    · exact respects_jump program origin divert
  · exact respects_jump program origin divert

theorem respects_readCount (program : Program) (origin : Place) (path : Path) :
    Blind mode (readCount program origin path) := by
  unfold readCount
  split
  · refine read (fun state other same => by rw [same.readVisits]) fun state => ?_
    exact bind (respects_ofFault _) fun _ => respects_pushInt _
  · exact respects_fault _

theorem respects_readVariable (program : Program) (name : String) :
    Blind mode (readVariable program name) := by
  refine read (fun state other same => by rw [same.lookup?]) fun state => ?_
  split
  · exact respects_push _
  · exact bind (modify fun _ _ same => same.warn program _) fun _ => respects_pushInt _

theorem respects_applyOperator (program : Program) (operator : Operator) :
    Blind mode (applyOperator program operator) := by
  refine bind (respects_popMany _) fun operands => bind (respects_ofFault _) fun values => ?_
  exact bind (respects_ofFault _) fun _ => respects_pushValue _

/-- An assignment to a global that is there, or made while writes are kept apart at the same times,
does the same in states that match. -/
theorem agrees_assign {program : Program} {assignment : Assignment}
    (same : Matches mode state other)
    (allowed : mode.lockstep ∨ ∀ name,
      state.assigned? program (.assignment assignment) = some name →
        state.globals.values.contains name) :
    Agrees Eq (Matches mode) (assign program assignment state)
      (assign program assignment other) := by
  -- The object is taken off the evaluation stack first, which no variable lives on.
  have popped : Agrees Eq (fun middle next => Matches mode middle next ∧
      middle.scope program = state.scope program) (pop state) (pop other) := by
    apply get_bind
    rw [same.evaluation]
    cases other.evaluation with
    | nil => exact .error _ ⟨same, rfl⟩
    | cons top rest => exact .ok rfl ⟨{ same with evaluation := rfl }, rfl⟩
  apply popped.bindWithin fun _ _ => And.left
  rintro content _ middle next rfl ⟨same, sameScope⟩
  cases assignable assignment content with
  | error found => exact .error _ same
  | ok value =>
    apply agrees_ofState same
    apply same.assign
    refine allowed.imp_right fun there name target => ?_
    have scopes : middle.globals = state.globals := congrArg Scope.globals sameScope
    simp only [assigned?, sameScope, scopes] at target ⊢
    exact there name target

/-- An object does the same in states that match. -/
theorem agrees_performContent (origin : Place) {content : Content} (same : Matches mode state other)
    (allowed : mode.lockstep ∨ ∀ name,
      state.assigned? mode.program content = some name →
        state.globals.values.contains name) :
    Agrees Eq (Matches mode) (performContent mode.program origin content state)
      (performContent mode.program origin content other) := by
  have silent {run : Run Unit} (respects : Blind mode run) :
      Agrees Eq (Matches mode)
        ((do run; return (none : Option HostRequest)) state)
        ((do run; return (none : Option HostRequest)) other) :=
    bind respects (fun _ => pure _) state other same
  cases content with
  | divert divert => exact respects_performDivert _ origin divert state other same
  | command command => exact silent (respects_perform command)
  | assignment assignment =>
    exact (agrees_assign same allowed).andThen fun _ _ _ same => .pure rfl same
  | readCount path => exact silent (respects_readCount _ origin path)
  | «variable» name => exact silent (respects_readVariable _ name)
  | operator operator => exact silent (respects_applyOperator _ operator)
  | _ => exact .pure rfl same

theorem respects_addContent (content : Content) : Blind mode (addContent content) := by
  refine modify fun state other same => ?_
  have samePinned : pinned state content = pinned other content := by
    unfold pinned
    simp only [same.callStack.contextOf]
  rw [same.evaluating, samePinned]
  exact related_ite (same.push _) (same.emit _)

theorem respects_deliver (program : Program) (origin : Place) (content : Content) :
    Blind mode (deliver program origin content) := by
  unfold deliver
  split
  · exact respects_offerChoice program origin _
  · exact respects_addContent _
  · exact respects_addContent _
  · exact respects_addContent _
  · exact respects_addContent _
  · exact pure _

theorem respects_finishContent (origin : Place) (content : Content) :
    Blind mode (finishContent mode.program origin content) := by
  refine read (fun state other same => by rw [same.pointer]) fun state => ?_
  split
  · exact pure _
  · refine bind (respects_deliver _ origin content) fun _ => ?_
    refine bind (modify fun _ _ same => same.moveOn) fun _ => ?_
    split
    · exact modify fun _ _ same => { same with callStack := same.callStack.pushThread }
    · exact pure _

end Run

end InkStory
