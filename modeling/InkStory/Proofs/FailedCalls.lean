import InkStory.Proofs.LineEnds

/-! # Calls that are refused

A call of a function by the host is refused if the name is blank or unknown, if an argument cannot be
passed, or if functions of the host are missing. A name is looked up before anything changes. The
arguments, though, are passed when the story already stands in the function, and the functions of the
host are looked for when its first line begins: a call that is refused then leaves the story in the
function, without its output. -/

namespace InkStory

open List Text

variable {value : Value} {error : Error} {story left : Story} {name : String}
  {arguments : List Value} {function : Address}

/-- Whether the host may pass a value to a function. -/
def Value.passable : Value → Bool
  | .bool _ | .int _ | .float _ | .string _ | .list _ => true
  | .void | .divertTarget _ | .variablePointer _ _ => false

/-- Whether an error refuses a call: for its name, for an argument, or for missing functions of the
host. -/
def Error.refusesCall : Error → Bool
  | .invalidArgument _ | .functionNotFound _ | .runtime (.missingBindings _ _) => true
  | _ => false

namespace State

/-- A state with arguments on the evaluation stack. -/
def passed (values : List Value) (state : State) : State :=
  { state with evaluation := (values.map Content.value).reverse ++ state.evaluation }

/-- A state in a function that the host called, with arguments passed. -/
def inCall (function : Address) (values : List Value) (state : State) : State :=
  State.passed values
    { state with
      output := {}
      callStack :=
        (state.callStack.push .hostCall state.evaluation.length 0).setPointer
          (some (.startOf function)) }

/-- Two states stand at the same place, with the same stacks, output and choices. -/
structure SameFlow (state other : State) : Prop where
  callStack : other.callStack = state.callStack
  evaluation : other.evaluation = state.evaluation
  output : other.output = state.output
  choices : other.choices = state.choices
  pointer : other.pointer = state.pointer

/-- In a call, there is one more frame. -/
theorem not_sameFlow_inCall (state : State) (function : Address) (values : List Value) :
    ¬ state.SameFlow (state.inCall function values) := by
  intro same
  have frames := congrArg (fun stack : CallStack => stack.current.below.length) same.callStack
  exact Nat.succ_ne_self _ frames

end State

/-- A story in a function that the host called, with arguments passed. -/
def Story.inCall (function : Address) (values : List Value) (story : Story) : Story :=
  story.modifyState (State.inCall function values)

/-- Arguments can all be passed, or there is a first that cannot. -/
theorem Value.passable_cases (arguments : List Value) :
    (∀ given ∈ arguments, given.passable = true) ∨
      ∃ passed value rest, arguments = passed ++ value :: rest ∧
        (∀ given ∈ passed, given.passable = true) ∧ value.passable = false := by
  cases dropped : arguments.dropWhile passable with
  | nil => exact .inl (dropWhile_eq_nil_iff.mp dropped)
  | cons value rest =>
    have first := head?_dropWhile_not passable arguments
    rw [dropped] at first
    refine .inr ⟨arguments.takeWhile passable, value, rest, ?_, fun _ => mem_takeWhile_imp, first⟩
    rw [← dropped, takeWhile_append_dropWhile]

namespace Run

variable {passed : List Value} (passable : ∀ given ∈ passed, given.passable = true)
include passable

theorem passArguments_append (rest : List Value) (state : State) :
    passArguments (passed ++ rest) state = passArguments rest (state.passed passed) := by
  induction passed generalizing state with
  | nil => rfl
  | cons value others ih =>
    obtain ⟨here, later⟩ := forall_mem_cons.mp passable
    have pushed : (state.push (.value value)).passed others = state.passed (value :: others) := by
      simp [State.passed, State.push]
    rw [← pushed, ← ih later]
    cases value with
    | bool | int | float | string | list => rfl
    | void | divertTarget | variablePointer => contradiction

theorem passArguments_passable (state : State) :
    passArguments passed state = .ok () (state.passed passed) := by
  rw [← append_nil passed, passArguments_append passable, append_nil]
  rfl

/-- Arguments are passed up to the first that cannot be. -/
theorem passArguments_unpassable (unpassable : value.passable = false) (rest : List Value)
    (state : State) :
    passArguments (passed ++ value :: rest) state =
      .error (.invalidArgument (.unpassable value.kind)) (state.passed passed) := by
  rw [passArguments_append passable]
  cases value with
  | void | divertTarget | variablePointer => rfl
  | bool | int | float | string | list => contradiction

end Run

/-! ### What refuses no call -/

/-- Whatever error a run ends with is of a kind. -/
def Errs (kind : Error → Prop) (run : EStateM Error σ α) (state : σ) : Prop :=
  ∀ error left, run state = .error error left → kind error

/-- Whatever error a run ends with refuses no call. -/
abbrev Complies (run : EStateM Error σ α) (state : σ) : Prop := Errs (·.refusesCall = false) run state

namespace Errs

variable {σ α β : Type} {state : σ} {kind : Error → Prop}

theorem bind {first : EStateM Error σ α} {next : α → EStateM Error σ β}
    (head : Errs kind first state)
    (tail : ∀ value middle, first state = .ok value middle → Errs kind (next value) middle) :
    Errs kind (first >>= next) state := by
  intro error left failed
  obtain failed | ⟨value, middle, done, failed⟩ := bind_eq_error_iff.mp failed
  · exact head error left failed
  · exact tail value middle done error left failed

theorem get_bind {next : σ → EStateM Error σ β} (tail : Errs kind (next state) state) :
    Errs kind (get >>= next) state := tail

/-- What succeeds ends with no error. -/
theorem of_ok {run : EStateM Error σ α} (succeeds : ∃ value after, run state = .ok value after) :
    Errs kind run state := by
  intro error left failed
  obtain ⟨value, after, done⟩ := succeeds
  cases done.symm.trans failed

theorem pure (value : α) : Errs kind (Pure.pure value : EStateM Error σ α) state :=
  of_ok ⟨value, state, rfl⟩

theorem set (next : σ) : Errs kind (set next : EStateM Error σ PUnit) state :=
  of_ok ⟨_, next, rfl⟩

theorem modify (change : σ → σ) : Errs kind (modify change : EStateM Error σ PUnit) state :=
  of_ok ⟨_, change state, rfl⟩

theorem throw (isKind : kind error) :
    Errs kind (throw error : EStateM Error σ α) state := by
  intro found left failed
  cases failed
  exact isKind

theorem onState {run : Run α} (errs : Errs kind run story.state) :
    Errs kind (Play.onState run) story := by
  intro error left failed
  obtain ⟨state, failed, -⟩ := Play.onState_eq_error_iff.mp failed
  exact errs error state failed

end Errs

namespace Run

variable {state : State}

theorem complies_leaveFrame (leaving : State) (kind : Option FrameKind) :
    Complies (ofState (leaving.leaveFrame kind)) state := by
  rw [State.leaveFrame]
  cases popped : leaving.callStack.pop kind with
  | ok stack => exact .set _
  | error error =>
    rw [CallStack.pop] at popped
    split at popped
    · contradiction
    · cases popped
      exact .throw rfl

theorem complies_leaveFunction (program : Program) : Complies (leaveFunction program) state := by
  refine .get_bind ?_
  split
  · exact .bind (.throw rfl) fun _ _ failed => by cases failed
  · exact .bind (.set _) fun _ _ _ => .get_bind <|
      .bind (complies_leaveFrame _ _) fun _ _ _ => .pure _

end Run

namespace Play

variable {after : Story} {limit : Nat}

theorem complies_leaveCall (output : Output) : Complies (leaveCall output) story :=
  .bind (.modify _) fun _ _ _ => .get_bind (.onState (Run.complies_leaveFunction _))

/-- A line that cannot begin or does not end refuses no call. -/
theorem complies_wholeLine : Complies wholeLine story := by
  have begins : Complies (beginLine false) story := by
    intro error left failed
    rw [beginLine_apply] at failed
    split at failed
    · contradiction
    · split at failed
      · contradiction
      · cases failed
        rfl
  refine .bind begins fun _ start _ => .bind (.of_ok (runSteps_ok stepLimit start))
    fun complete _ _ => ?_
  split
  · exact .modify _
  · exact .throw rfl

theorem bindingsChecked_wholeLine (done : wholeLine story = .ok () after) :
    after.bindingsChecked = story.bindingsChecked := by
  obtain ⟨_, start, begun, done⟩ := bind_eq_ok_iff.mp done
  obtain ⟨complete, last, ran, done⟩ := bind_eq_ok_iff.mp done
  have same : start.bindingsChecked = story.bindingsChecked := by
    obtain ⟨-, rfl⟩ | ⟨-, -, rfl⟩ := beginLine_eq_ok begun <;> rfl
  cases complete with
  | false => contradiction
  | true =>
    cases done
    rw [bindingsChecked_endLine, (marks_runSteps ran).2, same]

/-- Once the functions of the host were found, or if none is missing, no line refuses a call. -/
theorem complies_linesWithin
    (found : (story.bindingsChecked || story.missingFunctions.isEmpty)) :
    Complies (linesWithin limit) story := by
  induction limit generalizing story with
  | zero => exact .throw rfl
  | succ limit ih =>
    have required := (requireBindings_apply story).trans (if_pos found)
    refine .get_bind ?_
    split
    · exact .pure _
    · refine .bind (.bind (.of_ok ⟨_, _, required⟩) fun _ ready _ =>
        .bind complies_wholeLine fun _ _ _ => .get_bind (.pure _)) fun line next done => ?_
      obtain ⟨_, ready, required, rest⟩ := bind_eq_ok_iff.mp done
      obtain ⟨_, ended, whole, got⟩ := bind_eq_ok_iff.mp rest
      cases got
      have checked : next.bindingsChecked :=
        (bindingsChecked_wholeLine whole).trans (checked_of_requireBindings required)
      exact .bind (ih (by rw [checked, Bool.true_or])) fun _ _ _ => .pure _

/-- Lines refuse a call exactly where the story can go on and functions of the host are missing that
were not looked for yet. -/
theorem refused_linesWithin_iff :
    linesWithin (limit + 1) story = .error error left ∧ error.refusesCall ↔
      story.canContinue ∧ story.bindingsChecked = false ∧ story.missingFunctions ≠ [] ∧
        error = .runtime (.missingBindings story.missingFunctions story.config.allowFallbacks) ∧
        left = story := by
  cases goesOn : story.canContinue with
  | false =>
    have stops : linesWithin (limit + 1) story = .ok "" story := by
      simp only [linesWithin, bind_apply, get_apply, goesOn]
      rfl
    simp [stops]
  | true =>
    cases found : story.bindingsChecked || story.missingFunctions.isEmpty with
    | true =>
      constructor
      · rintro ⟨failed, refuses⟩
        cases (complies_linesWithin found error left failed).symm.trans refuses
      · rintro ⟨-, unchecked, missing, -⟩
        simp [unchecked, missing] at found
    | false =>
      have required := requireBindings_apply story
      rw [found] at required
      have fails : linesWithin (limit + 1) story =
          .error (.runtime (.missingBindings story.missingFunctions story.config.allowFallbacks))
            story := by
        simp only [linesWithin, nextLine, bind_apply, get_apply, goesOn, required, ite_run]
        rfl
      rw [fails]
      simp only [Bool.or_eq_false_iff, isEmpty_eq_false_iff] at found
      constructor
      · rintro ⟨failed, -⟩
        cases failed
        exact ⟨rfl, found.1, found.2, rfl, rfl⟩
      · rintro ⟨-, -, -, rfl, rfl⟩
        exact ⟨rfl, rfl⟩

/-! ### Entering a function -/

/-- A function is entered before its arguments are passed. -/
theorem enterCall_found (complete : story.inLine = false) (named : strip name ≠ "")
    (found : story.program.knot? name = some function) :
    enterCall name arguments story =
      onState (Run.passArguments arguments) (story.inCall function []) := by
  simp only [enterCall, bind_apply, requireLineEnd_apply, complete, Bool.false_eq_true, if_false,
    get_apply, if_neg named, found]
  rfl

theorem callFunction_of_enterCall (failed : enterCall name arguments story = .error error left) :
    callFunction name arguments story = .error error left := by
  simp only [callFunction, bind_apply, get_apply, failed]

/-- A function that was entered is refused only where its lines are. -/
theorem refused_entered_iff {entered : Story}
    (enters : enterCall name arguments story = .ok () entered) :
    callFunction name arguments story = .error error left ∧ error.refusesCall ↔
      entered.canContinue ∧ entered.bindingsChecked = false ∧
        entered.missingFunctions ≠ [] ∧
        error = .runtime (.missingBindings entered.missingFunctions entered.config.allowFallbacks) ∧
        left = entered := by
  have form : callFunction name arguments story =
      (do let text ← linesWithin stepLimit
          return (← leaveCall story.state.output, text) : Play (Option Value × String)) entered := by
    simp only [callFunction, bind_apply, get_apply, enters]
  obtain ⟨limit, more⟩ : ∃ limit, stepLimit = limit + 1 := ⟨stepLimit - 1, rfl⟩
  have lines : linesWithin (limit + 1) entered = .error error left ∧ error.refusesCall ↔ _ :=
    refused_linesWithin_iff
  rw [form, ← lines, ← more]
  constructor
  · rintro ⟨failed, refuses⟩
    obtain failed | ⟨text, last, -, failed⟩ := bind_eq_error_iff.mp failed
    · exact ⟨failed, refuses⟩
    · have complies : Complies
          (do return (← leaveCall story.state.output, text) : Play (Option Value × String)) last :=
        .bind (complies_leaveCall _) fun _ _ _ => .pure _
      cases (complies error left failed).symm.trans refuses
  · rintro ⟨failed, refuses⟩
    exact ⟨bind_eq_error_iff.mpr (.inl failed), refuses⟩

end Play

/-- How a call is refused between lines: with which error, and which story it leaves. -/
inductive Story.RefusesCall (story : Story) (name : String) (arguments : List Value) :
    Error → Story → Prop where
  | blank (blank : strip name = "") :
      RefusesCall story name arguments (.invalidArgument .blankFunction) story
  | unknown (named : strip name ≠ "") (missing : story.program.knot? name = none) :
      RefusesCall story name arguments (.functionNotFound name) story
  /-- An argument cannot be passed. Those before it were. -/
  | argument {function : Address} {passed rest : List Value} {value : Value}
      (named : strip name ≠ "") (found : story.program.knot? name = some function)
      (split : arguments = passed ++ value :: rest)
      (passable : ∀ given ∈ passed, given.passable = true)
      (unpassable : value.passable = false) :
      RefusesCall story name arguments (.invalidArgument (.unpassable value.kind))
        (story.inCall function passed)
  /-- Functions of the host are missing, which were not looked for before. -/
  | bindings {function : Address}
      (named : strip name ≠ "") (found : story.program.knot? name = some function)
      (passable : ∀ given ∈ arguments, given.passable = true)
      (clean : story.state.errors = []) (unchecked : story.bindingsChecked = false)
      (missing : story.missingFunctions ≠ []) :
      RefusesCall story name arguments
        (.runtime (.missingBindings story.missingFunctions story.config.allowFallbacks))
        (story.inCall function arguments)

namespace Story.RefusesCall

theorem choices (refuses : story.RefusesCall name arguments error left) :
    left.state.choices = story.state.choices := by
  cases refuses <;> rfl

/-- A refusal leaves the story where it is exactly if it is for the name. -/
theorem sameFlow_iff (refuses : story.RefusesCall name arguments error left) :
    story.state.SameFlow left.state ↔ strip name = "" ∨ story.program.knot? name = none := by
  cases refuses with
  | blank blank => exact iff_of_true ⟨rfl, rfl, rfl, rfl, rfl⟩ (.inl blank)
  | unknown named missing => exact iff_of_true ⟨rfl, rfl, rfl, rfl, rfl⟩ (.inr missing)
  | argument named found | bindings named found =>
    refine iff_of_false (State.not_sameFlow_inCall _ _ _) (not_or.mpr ⟨named, ?_⟩)
    rw [found]
    exact Option.some_ne_none _

end Story.RefusesCall

namespace Play

theorem enterCall_unfinished (unfinished : story.inLine) :
    enterCall name arguments story = .error (.lineUnfinished "evaluate a function") story := by
  simp only [enterCall, bind_apply, requireLineEnd_apply, unfinished, if_true]

theorem enterCall_blank (complete : story.inLine = false) (blank : strip name = "") :
    enterCall name arguments story = .error (.invalidArgument .blankFunction) story := by
  simp only [enterCall, bind_apply, requireLineEnd_apply, complete, if_pos blank, throw_apply,
    Bool.false_eq_true, if_false]

theorem enterCall_unknown (complete : story.inLine = false) (named : strip name ≠ "")
    (missing : story.program.knot? name = none) :
    enterCall name arguments story = .error (.functionNotFound name) story := by
  simp only [enterCall, bind_apply, requireLineEnd_apply, complete, if_neg named, get_apply, missing,
    throw_apply, Bool.false_eq_true, if_false]

theorem enterCall_passable (complete : story.inLine = false) (named : strip name ≠ "")
    (found : story.program.knot? name = some function)
    (passable : ∀ given ∈ arguments, given.passable = true) :
    enterCall name arguments story = .ok () (story.inCall function arguments) := by
  rw [enterCall_found complete named found, onState_apply, Run.passArguments_passable passable]
  rfl

theorem enterCall_unpassable {passed rest : List Value} (complete : story.inLine = false)
    (named : strip name ≠ "") (found : story.program.knot? name = some function)
    (passable : ∀ given ∈ passed, given.passable = true) (unpassable : value.passable = false) :
    enterCall name (passed ++ value :: rest) story =
      .error (.invalidArgument (.unpassable value.kind)) (story.inCall function passed) := by
  rw [enterCall_found complete named found, onState_apply,
    Run.passArguments_unpassable passable unpassable]
  rfl

theorem refused_call_iff :
    callFunction name arguments story = .error error left ∧ error.refusesCall ↔
      story.inLine = false ∧ story.RefusesCall name arguments error left := by
  constructor
  · rintro ⟨failed, refuses⟩
    cases complete : story.inLine with
    | true =>
      cases (callFunction_of_enterCall (enterCall_unfinished complete)).symm.trans failed
      contradiction
    | false =>
      refine ⟨rfl, ?_⟩
      by_cases named : strip name = ""
      · cases (callFunction_of_enterCall (enterCall_blank complete named)).symm.trans failed
        exact .blank named
      cases found : story.program.knot? name with
      | none =>
        cases (callFunction_of_enterCall (enterCall_unknown complete named found)).symm.trans failed
        exact .unknown named found
      | some function =>
        rcases Value.passable_cases arguments with
          passable | ⟨passed, value, rest, rfl, passable, unpassable⟩
        · obtain ⟨clean, unchecked, missing, rfl, rfl⟩ := (refused_entered_iff
            (enterCall_passable complete named found passable)).mp ⟨failed, refuses⟩
          exact .bindings named found passable (List.isEmpty_iff.mp clean) unchecked missing
        · rw [callFunction_of_enterCall
            (enterCall_unpassable complete named found passable unpassable)] at failed
          cases failed
          exact .argument named found rfl passable unpassable
  · rintro ⟨complete, refuses⟩
    cases refuses with
    | blank blank => exact ⟨callFunction_of_enterCall (enterCall_blank complete blank), rfl⟩
    | unknown named missing =>
      exact ⟨callFunction_of_enterCall (enterCall_unknown complete named missing), rfl⟩
    | argument named found split passable unpassable =>
      subst split
      exact ⟨callFunction_of_enterCall
        (enterCall_unpassable complete named found passable unpassable), rfl⟩
    | bindings named found passable clean unchecked missing =>
      exact (refused_entered_iff (enterCall_passable complete named found passable)).mpr
        ⟨List.isEmpty_iff.mpr clean, unchecked, missing, rfl, rfl⟩

/-- **When a call is refused, and what that leaves.** A refusal leaves the choices as they are. It
leaves the stacks, the output and the place of the story as they are exactly if the name is blank or
unknown; else the story stands in the function. -/
theorem failed_call_iff (name : String) (arguments : List Value) (story left : Story)
    (error : Error) :
    (callFunction name arguments story = .error error left ∧ error.refusesCall = true ↔
      story.inLine = false ∧ story.RefusesCall name arguments error left) ∧
    (callFunction name arguments story = .error error left → error.refusesCall = true →
      left.state.choices = story.state.choices ∧
      (story.state.SameFlow left.state ↔
        strip name = "" ∨ story.program.knot? name = none)) := by
  refine ⟨refused_call_iff, fun failed refuses => ?_⟩
  obtain ⟨-, refusal⟩ := refused_call_iff.mp ⟨failed, refuses⟩
  exact ⟨refusal.choices, refusal.sameFlow_iff⟩

/-- A story of two lines with a function. -/
@[irreducible]
def greeting : Story where
  program :=
    { root := .mk none {}
        [.content (.ofText "Hello"), .content (.ofText "\n"), .content (.ofText "Bye"),
          .content (.ofText "\n"), .content (.command .done)]
        [("shout", .mk (some "shout") {} [.content (.ofText "Ho")] [])] }
  config := {}
  state := {}

theorem nextLine_greeting :
    ∃ story, nextLine greeting = .ok "Hello\n" story ∧ story.inLine = false ∧
      story.text = "Hello\n" ∧ story.state.pointer = some ⟨[], some 2⟩ ∧
      story.program.knot? "shout" = some [.named "shout"] ∧
      story.program.knot? "whisper" = none := by
  decide +kernel

/-- A call by a name that is unknown leaves the story as it is. -/
theorem failed_call_by_name :
    ∃ story left, nextLine greeting = .ok "Hello\n" story ∧
      callFunction "whisper" [.int 3] story = .error (.functionNotFound "whisper") left ∧
      story.state.SameFlow left.state ∧ left.text = "Hello\n" := by
  obtain ⟨story, done, complete, text, -, -, unknown⟩ := nextLine_greeting
  have spec := failed_call_iff "whisper" [.int 3] story story (.functionNotFound "whisper")
  obtain ⟨failed, refuses⟩ := spec.1.mpr ⟨complete, .unknown (by decide) unknown⟩
  exact ⟨story, story, done, failed, (spec.2 failed refuses).2.mpr (.inr unknown), text⟩

/-- A call that is refused for its second argument leaves the story in the function, with the first
argument on the evaluation stack and without the line it had. -/
theorem failed_call_moves :
    ∃ story left, nextLine greeting = .ok "Hello\n" story ∧ story.text = "Hello\n" ∧
      story.state.pointer = some ⟨[], some 2⟩ ∧
      callFunction "shout" [.int 3, .divertTarget (Path.parse "shout")] story =
        .error (.invalidArgument (.unpassable .divertTarget)) left ∧
      left.text = "" ∧ left.state.pointer = some ⟨[.named "shout"], some 0⟩ ∧
      left.state.evaluation = .value (.int 3) :: story.state.evaluation := by
  obtain ⟨story, done, complete, text, pointer, found, -⟩ := nextLine_greeting
  have refusal : story.RefusesCall "shout" [.int 3, .divertTarget (Path.parse "shout")]
      (.invalidArgument (.unpassable .divertTarget))
      (story.inCall [.named "shout"] [.int 3]) := by
    have split : [Value.int 3, .divertTarget (Path.parse "shout")] =
        [.int 3] ++ .divertTarget (Path.parse "shout") :: [] := rfl
    exact .argument (by decide) found split (by decide) rfl
  obtain ⟨failed, -⟩ := refused_call_iff.mpr ⟨complete, refusal⟩
  exact ⟨story, _, done, text, pointer, failed, rfl, rfl, rfl⟩

end Play

end InkStory
