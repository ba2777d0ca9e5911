import InkStory.Proofs.FailedCalls

/-! # Jumps that fail

The host jumps to a path or takes a choice. A jump is refused at once in an unfinished line, in a
function that is not to be left, or for a choice that is not shown. What a jump is checked for later
comes too late: frames are left before arguments are passed, arguments are passed one by one, and
the choices are gone before the path is looked up. `Story.RefusesJump` lists what each failure
leaves, and `Jump.failed_jump_iff` says when that is the flow that was there. -/

namespace InkStory

open List Play State

variable {left story : Story} {error : Error}

/-- A jump of the host: to a path with arguments, for which all frames are left if `reset`, or to
where a choice leads. -/
inductive Jump where
  | path (path : String) (reset : Bool) (arguments : List Value)
  | choice (index : Nat)

/-- Carry out a jump. -/
def Jump.perform : Jump → Play Unit
  | .path text reset arguments => goTo text reset arguments
  | .choice index => Play.choose index

/-- The state from which a jump sets out. -/
def State.settingOut (reset : Bool) (state : State) : State :=
  if reset then state.forceEnd else state

/-- How a jump is refused: with which error, and which story it leaves. -/
inductive Story.RefusesJump (story : Story) : Jump → Error → Story → Prop where
  | unfinished {path : String} {reset : Bool} {arguments : List Value}
      (unfinished : story.inLine = true) :
      RefusesJump story (.path path reset arguments)
        (.lineUnfinished "call choose_path_string right now") story
  | function {path : String} {arguments : List Value} (complete : story.inLine = false)
      (inside : story.state.callStack.frame.kind = .function) :
      RefusesJump story (.path path false arguments)
        (.runtime (.pathInsideFunction
          ((story.state.pointer.map fun pointer =>
            (story.program.containerPath pointer.container).text).getD "")
          path (story.state.callStack.trace story.program))) story
  /-- An argument cannot be passed. Those before it were. -/
  | argument {path : String} {reset : Bool} {arguments passed rest : List Value} {value : Value}
      (complete : story.inLine = false)
      (outside : reset = false → story.state.callStack.frame.kind ≠ .function)
      (split : arguments = passed ++ value :: rest)
      (passable : ∀ given ∈ passed, given.passable = true)
      (unpassable : value.passable = false) :
      RefusesJump story (.path path reset arguments) (.invalidArgument (.unpassable value.kind))
        (story.modifyState fun state => (state.settingOut reset).passed passed)
  /-- The path leads nowhere. All arguments were passed. -/
  | content {path : String} {reset : Bool} {arguments : List Value} {fault : Fault}
      (complete : story.inLine = false)
      (outside : reset = false → story.state.callStack.frame.kind ≠ .function)
      (passable : ∀ given ∈ arguments, given.passable = true)
      (missing : story.program.pointerAt (Path.parse path) = .error fault) :
      RefusesJump story (.path path reset arguments) (.runtime fault)
        (story.modifyState fun state =>
          { (state.settingOut reset).passed arguments with choices := [] })
  | outOfRange {index : Nat} (missing : story.state.visibleChoices[index]? = none) :
      RefusesJump story (.choice index)
        (.choiceOutOfRange index story.state.visibleChoices.length) story
  /-- The choice leads nowhere. Its thread is running already. -/
  | target {index : Nat} {choice : Choice} {fault : Fault}
      (shown : story.state.visibleChoices[index]? = some choice)
      (missing : story.program.pointerAt choice.target = .error fault) :
      RefusesJump story (.choice index) (.runtime fault)
        (story.modifyState fun state => state.take choice)

/-- Whether a jump that fails leaves the flow as it was: it is refused at once, or there was nothing
that it could take away. -/
def Jump.Spares (story : Story) : Jump → Prop
  | .choice index => story.state.visibleChoices[index]? = none
  | .path _ reset arguments =>
    story.inLine = true ∨ (reset = false ∧ story.state.callStack.frame.kind = .function) ∨
      (arguments.takeWhile Value.passable = [] ∧
        (reset = true → story.state.forceEnd.callStack = story.state.callStack) ∧
        (reset = true ∨ arguments = [] → story.state.choices = []))

namespace Run

/-- Choices are dropped before a path is looked up. -/
theorem choosePath_eq_error_iff {program : Program} {path : Path} {beginsTurn : Bool}
    {state left : State} :
    choosePath program path beginsTurn state = .error error left ↔
      ∃ fault, program.pointerAt path = .error fault ∧ error = .runtime fault ∧
        left = { state with choices := [] } := by
  simp only [choosePath, bind_apply, modify_apply, pointerAt_apply]
  cases program.pointerAt path with
  | error fault => simp [eq_comm]
  | ok landing => cases beginsTurn <;> simp [modify_apply]

end Run

namespace Play

variable {path : String} {reset : Bool} {arguments : List Value}

theorem choose_eq_error_iff {index : Nat} :
    choose index story = .error error left ↔ story.RefusesJump (.choice index) error left := by
  cases shown : story.state.visibleChoices[index]? with
  | none =>
    simp only [choose, bind_apply, get_apply, shown]
    constructor
    · rintro ⟨⟩
      exact .outOfRange shown
    · intro refuses
      cases refuses with
      | outOfRange => rfl
      | target other => cases shown.symm.trans other
  | some choice =>
    have form : choose index story = onState (Run.choosePath story.program choice.target true)
        (story.modifyState fun state => state.take choice) := by
      simp only [choose, bind_apply, get_apply, shown]
      rfl
    rw [form]
    simp only [onState_eq_error_iff, Run.choosePath_eq_error_iff]
    constructor
    · rintro ⟨state, ⟨fault, missing, rfl, rfl⟩, rfl⟩
      exact .target shown missing
    · intro refuses
      cases refuses with
      | outOfRange other => cases shown.symm.trans other
      | target other missing =>
        cases shown.symm.trans other
        exact ⟨_, ⟨_, missing, rfl, rfl⟩, rfl⟩

section Outside

variable (complete : story.inLine = false)
  (outside : reset = false → story.state.callStack.frame.kind ≠ .function)

include outside

/-- Frames are left before anything else is checked. -/
theorem leaveFor_of_outside :
    leaveFor path reset story = .ok () (story.modifyState (settingOut reset)) := by
  simp only [leaveFor, bind_apply, get_apply]
  cases reset with
  | true => rfl
  | false =>
    rw [if_neg (outside rfl)]
    rfl

include complete

/-- A jump that sets out passes its arguments before it looks for its path. -/
theorem goTo_of_outside :
    goTo path reset arguments story =
      (do
        onState (Run.passArguments arguments)
        onState (Run.choosePath (← get).program (Path.parse path) true) : Play Unit)
        (story.modifyState (settingOut reset)) := by
  simp only [goTo, bind_apply, requireLineEnd_apply, complete, Bool.false_eq_true, if_false,
    leaveFor_of_outside outside]

theorem goTo_unpassable {passed rest : List Value} {value : Value}
    (passable : ∀ given ∈ passed, given.passable = true) (unpassable : value.passable = false) :
    goTo path reset (passed ++ value :: rest) story =
      .error (.invalidArgument (.unpassable value.kind))
        (story.modifyState fun state => (state.settingOut reset).passed passed) := by
  rw [goTo_of_outside complete outside, bind_apply, onState_apply,
    Run.passArguments_unpassable passable unpassable]
  rfl

theorem goTo_passable (passable : ∀ given ∈ arguments, given.passable = true) :
    goTo path reset arguments story =
      onState (Run.choosePath story.program (Path.parse path) true)
        (story.modifyState fun state => (state.settingOut reset).passed arguments) := by
  rw [goTo_of_outside complete outside, bind_apply, onState_apply,
    Run.passArguments_passable passable]
  rfl

end Outside

theorem goTo_eq_error_iff :
    goTo path reset arguments story = .error error left ↔
      story.RefusesJump (.path path reset arguments) error left := by
  have unfinished (inLine : story.inLine) : goTo path reset arguments story =
      .error (.lineUnfinished "call choose_path_string right now") story := by
    simp only [goTo, bind_apply, requireLineEnd_apply, inLine, if_true]
  constructor
  · intro failed
    cases complete : story.inLine with
    | true =>
      cases (unfinished complete).symm.trans failed
      exact .unfinished complete
    | false =>
      by_cases inside : reset = false ∧ story.state.callStack.frame.kind = .function
      · obtain ⟨rfl, inside⟩ := inside
        simp only [goTo, bind_apply, requireLineEnd_apply, complete, leaveFor, get_apply, inside,
          Bool.false_eq_true, if_false, if_true] at failed
        cases failed
        exact .function complete inside
      have outside := not_and.mp inside
      rcases Value.passable_cases arguments with
        passable | ⟨passed, value, rest, rfl, passable, unpassable⟩
      · rw [goTo_passable complete outside passable] at failed
        obtain ⟨_, dropped, rfl⟩ := onState_eq_error_iff.mp failed
        obtain ⟨fault, missing, rfl, rfl⟩ := Run.choosePath_eq_error_iff.mp dropped
        exact .content complete outside passable missing
      · rw [goTo_unpassable complete outside passable unpassable] at failed
        cases failed
        exact .argument complete outside rfl passable unpassable
  · intro refuses
    cases refuses with
    | unfinished inLine => exact unfinished inLine
    | function complete inside =>
      simp only [goTo, bind_apply, requireLineEnd_apply, complete, leaveFor, get_apply, inside,
        Bool.false_eq_true, if_false, if_true]
      rfl
    | argument complete outside split passable unpassable =>
      subst split
      exact goTo_unpassable complete outside passable unpassable
    | content complete outside passable missing =>
      rw [goTo_passable complete outside passable]
      exact onState_eq_error_iff.mpr
        ⟨_, Run.choosePath_eq_error_iff.mpr ⟨_, missing, rfl, rfl⟩, rfl⟩

end Play

/-- Setting out with arguments leaves the flow as it is exactly if there are none, and no frame to
leave and no choice to drop. -/
theorem State.sameFlow_settingOut_iff (state : State) (reset : Bool) (values : List Value)
    (choices : List Choice) :
    state.SameFlow { (state.settingOut reset).passed values with choices := choices } ↔
      values = [] ∧ (reset → state.forceEnd.callStack = state.callStack) ∧
        choices = state.choices := by
  constructor
  · intro same
    have evaluation :
        (values.map Content.value).reverse ++ state.evaluation = state.evaluation := by
      have stacked := same.evaluation
      cases reset <;> exact stacked
    refine ⟨by simpa using evaluation, ?_, same.choices⟩
    rintro rfl
    exact same.callStack
  · rintro ⟨rfl, left, rfl⟩
    cases reset with
    | false => exact ⟨rfl, rfl, rfl, rfl, rfl⟩
    | true => exact ⟨left rfl, rfl, rfl, rfl, congrArg CallStack.pointer (left rfl)⟩

namespace Story.RefusesJump

variable {jump : Jump}

/-- A jump that fails changes nothing but the stacks, the choices and whether the story stopped
where it is meant to. -/
theorem rest (refuses : story.RefusesJump jump error left) :
    ∃ callStack evaluation choices exitedSafely, left = story.modifyState fun state =>
      { state with
        callStack := callStack, evaluation := evaluation, choices := choices,
        exitedSafely := exitedSafely } := by
  cases refuses with
  | unfinished | function | outOfRange | target => exact ⟨_, _, _, _, rfl⟩
  | @argument _ reset | @content _ reset => cases reset <;> exact ⟨_, _, _, _, rfl⟩

theorem sameFlow_iff (refuses : story.RefusesJump jump error left) :
    story.state.SameFlow left.state ↔ jump.Spares story := by
  have same : story.state.SameFlow story.state := ⟨rfl, rfl, rfl, rfl, rfl⟩
  -- A jump to a path that has set out is not refused at once.
  have setsOut {path : String} {reset : Bool} {arguments : List Value}
      (complete : story.inLine = false)
      (outside : reset = false → story.state.callStack.frame.kind ≠ .function) :
      (Jump.path path reset arguments).Spares story ↔
        arguments.takeWhile Value.passable = [] ∧
          (reset → story.state.forceEnd.callStack = story.state.callStack) ∧
          (reset ∨ arguments = [] → story.state.choices = []) := by
    have notInside : ¬(reset = false ∧ story.state.callStack.frame.kind = .function) :=
      not_and.mpr outside
    simp only [Jump.Spares, complete, notInside, Bool.false_eq_true, false_or]
  cases refuses with
  | unfinished unfinished => exact iff_of_true same (.inl unfinished)
  | function _ inside => exact iff_of_true same (.inr (.inl ⟨rfl, inside⟩))
  | outOfRange missing => exact iff_of_true same missing
  | target shown =>
    refine iff_of_false (fun same => ?_) (by simp [Jump.Spares, shown])
    have empty : story.state.choices = [] := same.choices.symm
    simp [visibleChoices, empty] at shown
  | @argument _ reset arguments passed rest _ complete outside split passable unpassable =>
    have taken : arguments.takeWhile Value.passable = passed := by
      rw [split, takeWhile_append_of_pos passable,
        takeWhile_cons_of_neg (by simp [unpassable]), append_nil]
    have dropped : (story.state.settingOut reset).choices = story.state.choices ↔
        (reset ∨ arguments = [] → story.state.choices = []) := by
      cases reset with
      | true => exact ⟨fun none _ => none.symm, fun none => (none (.inl rfl)).symm⟩
      | false => simp [settingOut, split]
    rw [setsOut complete outside, taken, ← dropped]
    exact story.state.sameFlow_settingOut_iff reset passed (story.state.settingOut reset).choices
  | @content _ reset arguments _ complete outside passable =>
    have taken : arguments.takeWhile Value.passable = arguments :=
      takeWhile_eq_self_iff.mpr passable
    rw [setsOut complete outside, taken]
    refine (story.state.sameFlow_settingOut_iff reset arguments []).trans ?_
    refine and_congr_right fun none => and_congr_right fun _ => ?_
    exact ⟨fun dropped _ => dropped.symm, fun dropped => (dropped (.inr none)).symm⟩

end Story.RefusesJump

namespace Jump

/-- **When a jump fails, and what that leaves.** Turn, counts and globals are always what they were.
The stacks, the choices, the output and the place of the story are exactly if the jump is refused at
once or there was nothing that it could take away. -/
theorem failed_jump_iff (jump : Jump) (story left : Story) (error : Error) :
    (jump.perform story = .error error left ↔ story.RefusesJump jump error left) ∧
    (jump.perform story = .error error left →
      left.state.turn = story.state.turn ∧ left.state.globals = story.state.globals ∧
      left.state.patch = story.state.patch ∧
      (∀ address, left.state.visitsOf address = story.state.visitsOf address) ∧
      (∀ address, left.state.turnOf? address = story.state.turnOf? address) ∧
      (story.state.SameFlow left.state ↔ jump.Spares story)) := by
  have fails : jump.perform story = .error error left ↔ story.RefusesJump jump error left := by
    cases jump with
    | path => exact goTo_eq_error_iff
    | choice => exact choose_eq_error_iff
  refine ⟨fails, fun failed => ?_⟩
  have refuses := fails.mp failed
  have spares := refuses.sameFlow_iff
  obtain ⟨callStack, evaluation, choices, exitedSafely, rfl⟩ := refuses.rest
  exact ⟨rfl, rfl, rfl, fun _ => rfl, fun _ => rfl, spares⟩

/-- A question with one answer. -/
@[irreducible]
def question : Story where
  program :=
    { root := .mk none {}
        [.content (.ofText "Well?"), .content (.ofText "\n"), .content (.command .beginEvaluation),
          .content (.command .beginString), .content (.ofText "Yes"),
          .content (.command .endString), .content (.command .endEvaluation),
          .content (.choicePoint { target := Path.parse "answer", hasChoiceOnlyContent := true }),
          .content (.command .done)]
        [("answer", .mk (some "answer") {} [.content (.ofText "Fine.")] [])] }
  config := {}
  state := {}

theorem nextLine_question :
    ∃ story, Play.nextLine question = .ok "Well?\n" story ∧ story.inLine = false ∧
      story.state.visibleChoices.length = 1 ∧ story.state.choices.length = 1 ∧
      story.state.callStack.frame.kind ≠ .function ∧
      story.program.pointerAt (Path.parse "nowhere") = .error (.missingContent "nowhere") := by
  decide +kernel

/-- A choice that is not shown is refused at once. -/
theorem failed_jump_unshown :
    ∃ story left, Play.nextLine question = .ok "Well?\n" story ∧
      (choice 1).perform story = .error (.choiceOutOfRange 1 1) left ∧
      left.state.turn = story.state.turn ∧ story.state.SameFlow left.state := by
  obtain ⟨story, done, -, shown, -⟩ := nextLine_question
  have missing : story.state.visibleChoices[1]? = none := getElem?_eq_none shown.le
  have spec := failed_jump_iff (choice 1) story story (.choiceOutOfRange 1 1)
  have refuses : story.RefusesJump (choice 1) (.choiceOutOfRange 1 1) story := by
    have refuses := Story.RefusesJump.outOfRange missing
    rwa [shown] at refuses
  have failed := spec.1.mpr refuses
  obtain ⟨turn, -, -, -, -, spares⟩ := spec.2 failed
  exact ⟨story, story, done, failed, turn, spares.mpr missing⟩

/-- A jump to a path that leads nowhere takes the choices away, so that none can be taken any more,
and leaves its argument behind. -/
theorem failed_jump_takes_choices :
    ∃ story left, Play.nextLine question = .ok "Well?\n" story ∧
      story.state.choices.length = 1 ∧
      (path "nowhere" false [.int 3]).perform story =
        .error (.runtime (.missingContent "nowhere")) left ∧
      left.state.choices = [] ∧ left.state.evaluation = .value (.int 3) :: story.state.evaluation ∧
      (choice 0).perform left = .error (.choiceOutOfRange 0 0) left := by
  obtain ⟨story, done, complete, -, offered, outside, missing⟩ := nextLine_question
  have refuses : story.RefusesJump (path "nowhere" false [.int 3]) _ _ :=
    .content complete (fun _ => outside) (by decide) missing
  refine ⟨story, _, done, offered, goTo_eq_error_iff.mpr refuses, rfl, rfl, ?_⟩
  generalize ready : Story.modifyState _ story = left
  have empty : left.state.visibleChoices = [] := by
    have dropped : left.state.choices = [] := by rw [← ready]; rfl
    simp [visibleChoices, dropped]
  have unshown : left.state.visibleChoices[0]? = none := by rw [empty]; rfl
  have unseen := choose_eq_error_iff.mpr (Story.RefusesJump.outOfRange unshown)
  rwa [empty] at unseen

end Jump

end InkStory
