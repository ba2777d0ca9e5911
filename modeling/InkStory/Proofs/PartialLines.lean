import InkStory.Proofs.Outcomes
import InkStory.Story.Line

/-! # Lines evaluated in parts

A line that is evaluated in any number of parts is the line evaluated at once: steps do not see
whether the line may be left unfinished, and steps taken in two goes are the steps of one. -/

namespace InkStory

open Story

variable {partly checked complete : Bool} {story middle after : Story} {more : Nat}

namespace Story

/-- The story with other marks of an unfinished line and of bindings checked. -/
def marked (partly checked : Bool) (story : Story) : Story :=
  { story with inLine := partly, bindingsChecked := checked }

theorem marked_self (line : story.inLine = partly) (bindings : story.bindingsChecked = checked) :
    story.marked partly checked = story := by
  subst line bindings
  rfl

end Story

namespace Play

variable {change : Story → Story} {first second : Nat}

/-- The outcome of an operation, with a change made to the story that it leaves. -/
def changing (change : Story → Story) :
    EStateM.Result Error Story α → EStateM.Result Error Story α
  | .ok value story => .ok value (change story)
  | .error error story => .error error (change story)

/-- An operation does the same to a story whether a change is made before it or behind it. -/
def Ignores (change : Story → Story) (play : Play α) : Prop :=
  ∀ story, play (change story) = changing change (play story)

theorem Ignores.bind {first : Play α} {next : α → Play β} (firstIgnores : Ignores change first)
    (nextIgnores : ∀ value, Ignores change (next value)) : Ignores change (first >>= next) := by
  intro story
  simp only [bind_apply, firstIgnores story]
  cases first story with
  | ok value story => exact nextIgnores value story
  | error error story => rfl

/-- What is read of the story must not depend on the change. -/
theorem Ignores.get_bind {next : Story → Play β} (same : ∀ story, next (change story) = next story)
    (nextIgnores : ∀ story, Ignores change (next story)) : Ignores change (get >>= next) := by
  intro story
  simp only [bind_apply, get_apply, same]
  exact nextIgnores story story

theorem Ignores.pure (value : α) : Ignores change (pure value) :=
  fun _ => rfl

section Marks

theorem onState_ignores_mark (run : Run α) : Ignores (marked partly checked) (onState run) := by
  intro story
  simp only [onState, marked]
  cases run story.state <;> rfl

theorem modifyState_ignores_mark (change : State → State) :
    Ignores (marked partly checked) (modifyState change) := fun _ => rfl

theorem callFallback_ignores_mark (name : String) :
    Ignores (marked partly checked) (callFallback name) := by
  intro story
  simp only [callFallback, bind_apply, get_apply, marked]
  cases story.config.allowFallbacks <;> cases story.program.knot? name <;> rfl

theorem callBinding_ignores_mark (name : String) (binding : Binding) (arguments : List Value) :
    Ignores (marked partly checked) (callBinding name binding arguments) := by
  refine .bind (fun _ => rfl) fun _ => ?_
  split
  · exact onState_ignores_mark _
  · exact onState_ignores_mark _
  · exact fun _ => rfl

theorem callHost_ignores_mark (name : String) (count : Nat) :
    Ignores (marked partly checked) (callHost name count) := by
  intro story
  simp only [callHost, bind_apply, get_apply]
  have bindings : (story.marked partly checked).bindings = story.bindings := rfl
  have snapshot : (story.marked partly checked).snapshot = story.snapshot := rfl
  rw [bindings, snapshot]
  cases story.bindings.get? name with
  | none => exact callFallback_ignores_mark name story
  | some binding =>
    dsimp only
    split
    · rfl
    · exact (Ignores.bind (onState_ignores_mark _)
        (callBinding_ignores_mark name binding)) story

theorem evaluate_ignores_mark (place : Place) (content : Content) :
    Ignores (marked partly checked) (evaluate place content) := by
  refine .get_bind (fun _ => rfl) fun story => ?_
  refine .bind (onState_ignores_mark _) fun request => ?_
  cases request with
  | none => exact onState_ignores_mark _
  | some request =>
    exact .bind (callHost_ignores_mark _ _) fun _ =>
      onState_ignores_mark _

theorem step_ignores_mark : Ignores (marked partly checked) step := by
  refine .get_bind (fun _ => rfl) fun story => ?_
  refine .get_bind (fun _ => rfl) fun _ => ?_
  split
  · refine .bind (modifyState_ignores_mark _) fun _ => ?_
    refine .get_bind (fun _ => rfl) fun _ => ?_
    split
    · split
      · exact evaluate_ignores_mark _ _
      · exact modifyState_ignores_mark _
    · exact .pure _
  · exact .pure _

theorem followInvisibleChoice_ignores_mark :
    Ignores (marked partly checked) followInvisibleChoice := by
  refine .get_bind (fun _ => rfl) fun story => ?_
  cases story.state.choices with
  | nil => exact .pure _
  | cons choice others =>
    dsimp only
    split
    · exact .bind (modifyState_ignores_mark _) fun _ => onState_ignores_mark _
    · exact .pure _

theorem settle_marked (story : Story) :
    (story.marked partly checked).settle = story.settle.marked partly checked := by
  unfold settle
  split <;> split <;> first | rfl | contradiction

theorem rewind_marked (story : Story) :
    (story.marked partly checked).rewind = story.rewind.marked partly checked := by
  have kept : (story.marked partly checked).snapshot = story.snapshot := rfl
  unfold rewind
  rw [kept]
  cases story.snapshot with
  | none => rfl
  | some snapshot =>
    exact settle_marked
      { story with
        snapshot := none
        state :=
          { snapshot with errors := story.state.errors, warnings := story.state.warnings } }

theorem keepLookahead_marked (story : Story) :
    (story.marked partly checked).keepLookahead = story.keepLookahead.marked partly checked := by
  unfold keepLookahead
  rw [settle_marked]
  rfl

theorem compareWithSnapshot_ignores_mark :
    Ignores (marked partly checked) compareWithSnapshot := by
  refine .bind (fun _ => rfl) fun _ story => ?_
  simp only [bind_apply, get_apply]
  have kept : (story.marked partly checked).snapshot = story.snapshot := rfl
  have put : (story.marked partly checked).callDeferred = story.callDeferred := rfl
  rw [kept]
  cases story.snapshot with
  | none => rfl
  | some snapshot =>
    have since : (story.marked partly checked).changeSince snapshot = story.changeSince snapshot := rfl
    simp only [since, put, rewind_marked, keepLookahead_marked]
    split
    · rfl
    · split <;> rfl

theorem markNewline_ignores_mark : Ignores (marked partly checked) markNewline := by
  intro story
  have state : (story.marked partly checked).state = story.state := rfl
  have kept : (story.marked partly checked).snapshot = story.snapshot := rfl
  have more : (story.marked partly checked).canContinue = story.canContinue := rfl
  simp only [markNewline, modify_apply, state, kept, more, keepLookahead_marked]
  split
  · rfl
  · split
    · rfl
    · split <;> rfl

theorem leaveDeadEnd_ignores_mark : Ignores (marked partly checked) leaveDeadEnd := by
  refine .get_bind (fun _ => rfl) fun _ => ?_
  dsimp only
  split
  · exact followInvisibleChoice_ignores_mark
  · exact .pure _

theorem checkLine_ignores_mark : Ignores (marked partly checked) checkLine := by
  have noted : Ignores (marked partly checked) (do markNewline; return false) :=
    .bind (markNewline_ignores_mark) fun _ => .pure _
  refine .get_bind (fun _ => rfl) fun _ => ?_
  split
  · exact .pure _
  · dsimp only
    split
    · refine .bind (compareWithSnapshot_ignores_mark) fun wentBack => ?_
      cases wentBack
      · exact noted
      · exact .pure _
    · exact noted

theorem singleStep_ignores_mark : Ignores (marked partly checked) singleStep :=
  .bind (step_ignores_mark) fun _ =>
    .bind (leaveDeadEnd_ignores_mark) fun _ => checkLine_ignores_mark

theorem reportFailure_ignores_mark {play : Play Bool} (ignores : Ignores (marked partly checked) play) :
    Ignores (marked partly checked) (reportFailure play) := by
  intro story
  simp only [reportFailure, ignores story]
  cases play story <;> rfl

/-- Steps do not depend on whether the line may be left unfinished. -/
theorem runSteps_ignores_mark (more : Nat) : Ignores (marked partly checked) (runSteps more) := by
  induction more with
  | zero =>
    refine .bind (reportFailure_ignores_mark (singleStep_ignores_mark)) fun _ => ?_
    exact .get_bind (fun _ => rfl) fun _ => .pure _
  | succ more ih =>
    refine .bind (reportFailure_ignores_mark (singleStep_ignores_mark)) fun _ => ?_
    refine .get_bind (fun _ => rfl) fun _ => ?_
    split
    · exact .pure _
    · exact ih

/-- Steps leave the marks as they are. -/
theorem marks_runSteps (run : runSteps more story = .ok complete after) :
    after.inLine = story.inLine ∧ after.bindingsChecked = story.bindingsChecked := by
  have same : runSteps more (story.marked story.inLine story.bindingsChecked) = _ :=
    runSteps_ignores_mark more story
  rw [marked_self rfl rfl, run] at same
  injection same with _ same
  rw [same]
  exact ⟨rfl, rfl⟩

end Marks

/-- A failed step ends the story and not the evaluation. -/
theorem runSteps_ok (more : Nat) (story : Story) :
    ∃ complete after, runSteps more story = .ok complete after := by
  induction more generalizing story with
  | zero =>
    simp only [runSteps, bind_apply, reportFailure]
    cases singleStep story <;> exact ⟨_, _, rfl⟩
  | succ more ih =>
    simp only [runSteps, bind_apply, reportFailure]
    cases singleStep story <;> simp only [get_apply]
    all_goals
      split
      · exact ⟨_, _, rfl⟩
      · exact ih _

/-- Steps in two goes are the steps of one. -/
theorem runSteps_add (first more : Nat) :
    runSteps (first + more + 1) =
      (do if ← runSteps first then return true else runSteps more) := by
  induction first with
  | zero =>
    rw [Nat.zero_add]
    simp only [runSteps, bind_assoc, pure_bind]
  | succ first ih =>
    have later : first + 1 + more + 1 = (first + more + 1) + 1 := by omega
    rw [later, runSteps.eq_2 (first + more + 1), ih, runSteps.eq_2 first, bind_assoc]
    congr 1
    funext wentBack
    rw [bind_assoc]
    congr 1
    funext story
    split <;> simp

theorem runSteps_add_apply (run : runSteps first story = .ok complete middle) (more : Nat) :
    runSteps (first + more + 1) story =
      if complete then .ok true middle else runSteps more middle := by
  simp only [runSteps_add, bind_apply, run, ite_run]
  rfl

/-- A complete line stays as it is with more steps. -/
theorem runSteps_mono (less : first ≤ second) (run : runSteps first story = .ok true after) :
    runSteps second story = .ok true after := by
  rcases Nat.eq_or_lt_of_le less with rfl | less
  · exact run
  · obtain ⟨extra, rfl⟩ := Nat.exists_eq_add_of_lt less
    rw [runSteps_add_apply run]
    rfl

theorem runSteps_unique (part : runSteps first story = .ok true middle)
    (whole : runSteps second story = .ok true after) : middle = after := by
  have agree := (runSteps_mono (Nat.le_max_left first second) part).symm.trans
    (runSteps_mono (Nat.le_max_right first second) whole)
  injection agree

/-- What is left of a line takes no more steps than the line. -/
theorem runSteps_rest {limit : Nat} (part : runSteps first story = .ok false middle)
    (whole : runSteps limit story = .ok true after) : runSteps limit middle = .ok true after := by
  rcases Nat.lt_or_ge first limit with less | more
  · obtain ⟨extra, rfl⟩ := Nat.exists_eq_add_of_lt less
    rw [runSteps_add_apply part] at whole
    exact runSteps_mono (by omega) whole
  · have contrary := part.symm.trans (runSteps_mono more whole)
    injection contrary with contrary
    contradiction

theorem endLine_marked (partly checked : Bool) (story : Story) :
    (story.marked partly checked).endLine = (story.endLine).marked false checked := by
  simp only [endLine, rewind_marked]
  rfl

theorem inLine_endLine (story : Story) : story.endLine.inLine = false := rfl

theorem bindingsChecked_endLine (story : Story) :
    story.endLine.bindingsChecked = story.bindingsChecked := by
  have same := endLine_marked story.inLine story.bindingsChecked story
  rw [marked_self rfl rfl] at same
  rw [same]
  rfl

/-- The line of a story goes on, or begins, with another story, whose line may be left
unfinished. -/
def Begins (story start : Story) : Prop :=
  start.inLine = true ∧
    ∀ partly, beginLine partly story = .ok () (start.marked partly start.bindingsChecked)

theorem begins_self (unfinished : story.inLine) : Begins story story := by
  refine ⟨unfinished, fun partly => ?_⟩
  simp only [beginLine, bind_apply, get_apply, unfinished]
  rfl

/-- A line that cannot begin fails whether or not it may be left unfinished. -/
theorem beginLine_cases (story : Story) :
    (∀ partly, beginLine partly story = .error .cannotContinue story) ∨
      ∃ start, Begins story start ∧ start.bindingsChecked = story.bindingsChecked := by
  by_cases unfinished : story.inLine
  · exact .inr ⟨story, begins_self unfinished, rfl⟩
  · by_cases more : story.canContinue
    · refine .inr ⟨{ story with
        inLine := true
        state :=
          { story.state with
            exitedSafely := false
            output := {}
            globals := story.state.globals.beginLine } }, ⟨rfl, fun partly => ?_⟩, rfl⟩
      simp [beginLine, bind_apply, get_apply, unfinished, more]
      rfl
    · refine .inl fun partly => ?_
      simp [beginLine, bind_apply, get_apply, unfinished, more, throw_apply]

section Lines

variable {start : Story}

theorem partOfLine_complete (begins : Begins story start)
    (run : runSteps more start = .ok true after) :
    partOfLine more story = .ok () after.endLine := by
  simp only [partOfLine, bind_apply, begins.2 true, marked_self begins.1 rfl, run]
  rfl

theorem partOfLine_unfinished (begins : Begins story start)
    (run : runSteps more start = .ok false after) : partOfLine more story = .ok () after := by
  simp only [partOfLine, bind_apply, begins.2 true, marked_self begins.1 rfl, run]
  rfl

theorem wholeLine_complete (begins : Begins story start)
    (run : runSteps stepLimit start = .ok true after) :
    wholeLine story = .ok () after.endLine := by
  have checked := (marks_runSteps run).2
  simp only [wholeLine, bind_apply, begins.2 false,
    runSteps_ignores_mark stepLimit start, run, changing]
  simp only [if_true, modify_apply, endLine_marked,
    marked_self (inLine_endLine after) ((bindingsChecked_endLine after).trans checked)]

theorem wholeLine_endless (begins : Begins story start)
    (run : runSteps stepLimit start = .ok false after) :
    ∃ left, wholeLine story = .error .endless left := by
  simp only [wholeLine, bind_apply, begins.2 false,
    runSteps_ignores_mark stepLimit start, run]
  exact ⟨_, rfl⟩

/-- Bindings that were checked are not checked again. -/
theorem requireBindings_checked (checked : story.bindingsChecked) :
    requireBindings story = .ok () story := by
  simp only [requireBindings, bind_apply, get_apply, checked]
  rfl

theorem checked_of_requireBindings (required : requireBindings story = .ok () after) :
    after.bindingsChecked := by
  simp only [requireBindings, bind_apply, get_apply] at required
  split at required
  · simp only [checkBindings, bind_apply, get_apply, ite_run] at required
    split at required
    · simp [fault_apply] at required
    · injection required with _ same
      rw [← same]
  · simp_all [pure_apply]

/-- The bindings of a story are there, and its next line is evaluated from another story on. -/
def LineFrom (story start : Story) : Prop :=
  start.bindingsChecked = true ∧
    ∃ ready, requireBindings story = .ok () ready ∧ Begins ready start

/-- A line that may be left unfinished does not begin where a whole line does not, for the same
reason. -/
theorem lineFrom_cases (story : Story) :
    (∃ error left, nextLine story = .error error left ∧
      ∀ more, nextSteps more story = .error error left) ∨ ∃ start, LineFrom story start := by
  cases required : requireBindings story with
  | error error left =>
    refine .inl ⟨error, left, ?_, fun more => ?_⟩
    · simp only [nextLine, bind_apply, required]
    · simp only [nextSteps, bind_apply, required]
  | ok _ ready =>
    rcases beginLine_cases ready with refused | ⟨start, begins, checked⟩
    · refine .inl ⟨.cannotContinue, ready, ?_, fun more => ?_⟩
      · simp only [nextLine, wholeLine, bind_apply, required, refused]
      · simp only [nextSteps, partOfLine, bind_apply, required, refused]
    · exact .inr ⟨start, checked.trans (checked_of_requireBindings required), ready, required,
        begins⟩

section

variable (line : LineFrom story start)

include line

theorem nextLine_complete (run : runSteps stepLimit start = .ok true after) :
    nextLine story = .ok after.endLine.text after.endLine := by
  obtain ⟨-, ready, required, begins⟩ := line
  simp only [nextLine, bind_apply, required, wholeLine_complete begins run]
  rfl

theorem nextLine_endless (run : runSteps stepLimit start = .ok false after) :
    ∃ left, nextLine story = .error .endless left := by
  obtain ⟨-, ready, required, begins⟩ := line
  obtain ⟨left, endless⟩ := wholeLine_endless begins run
  refine ⟨left, ?_⟩
  simp only [nextLine, bind_apply, required, endless]

theorem nextSteps_complete (run : runSteps more start = .ok true after) :
    nextSteps more story = .ok () after.endLine := by
  obtain ⟨-, ready, required, begins⟩ := line
  simp only [nextSteps, bind_apply, required, partOfLine_complete begins run]

theorem nextSteps_unfinished (run : runSteps more start = .ok false middle) :
    nextSteps more story = .ok () middle := by
  obtain ⟨-, ready, required, begins⟩ := line
  simp only [nextSteps, bind_apply, required, partOfLine_unfinished begins run]

/-- A line that was left unfinished goes on where it was left. -/
theorem lineFrom_rest (run : runSteps more start = .ok false middle) :
    middle.inLine ∧ LineFrom middle middle := by
  obtain ⟨checked, ready, required, begins⟩ := line
  obtain ⟨unfinished, stillChecked⟩ := marks_runSteps run
  have inLine : middle.inLine := unfinished.trans begins.1
  have bound : middle.bindingsChecked := stillChecked.trans checked
  exact ⟨inLine, bound, middle, requireBindings_checked bound, begins_self inLine⟩

end

/-- Two calls in a row are one with the steps of both. -/
theorem nextSteps_add (first more : Nat) :
    (do nextSteps first; if (← get).inLine then nextSteps more) =
      nextSteps (first + more + 1) := by
  funext story
  rcases lineFrom_cases story with ⟨error, left, -, refused⟩ | ⟨start, line⟩
  · simp only [bind_apply, refused]
  · obtain ⟨complete, middle, run⟩ := runSteps_ok first start
    have both := runSteps_add_apply run more
    cases complete with
    | true =>
      rw [nextSteps_complete line both]
      simp only [bind_apply, nextSteps_complete line run]
      rfl
    | false =>
      obtain ⟨unfinished, rest⟩ := lineFrom_rest line run
      simp only [bind_apply, nextSteps_unfinished line run, get_apply, unfinished, if_true]
      obtain ⟨complete, after, run⟩ := runSteps_ok more middle
      have both := both.trans run
      cases complete with
      | true => rw [nextSteps_complete rest run, nextSteps_complete line both]
      | false => rw [nextSteps_unfinished rest run, nextSteps_unfinished line both]

end Lines

/-- Evaluate a line in parts: call after call, each for a number of steps and one more at most,
until the line is complete or there are no more calls. -/
def nextParts : List Nat → Play Unit
  | [] => return
  | more :: others => do
    nextSteps more
    if (← get).inLine then nextParts others

theorem nextParts_single (more : Nat) : nextParts [more] = nextSteps more := by
  funext story
  simp only [nextParts, bind_apply]
  cases nextSteps more story with
  | error error left => rfl
  | ok value left =>
    simp only [get_apply]
    split <;> rfl

/-- Two calls in a row are one with the steps of both. -/
theorem nextParts_cons_cons (first second : Nat) (others : List Nat) :
    nextParts (first :: second :: others) = nextParts ((first + second + 1) :: others) := by
  funext story
  simp only [nextParts, ← nextSteps_add, bind_apply]
  cases nextSteps first story with
  | error error left => rfl
  | ok value left =>
    by_cases unfinished : left.inLine
    · simp only [get_apply, unfinished]
      rfl
    · simp [get_apply, unfinished, pure_apply]

/-- Calls in a row are one call with the steps of all. -/
theorem nextParts_eq_nextSteps (first : Nat) (others : List Nat) :
    nextParts (first :: others) =
      nextSteps (others.foldl (fun steps more => steps + more + 1) first) := by
  induction others generalizing first with
  | nil => exact nextParts_single first
  | cons second others ih => rw [nextParts_cons_cons, List.foldl_cons, ih]

theorem length_le_steps (first : Nat) (others : List Nat) :
    first + others.length ≤ others.foldl (fun steps more => steps + more + 1) first := by
  induction others generalizing first with
  | nil => simp
  | cons second others ih =>
    have rest := ih (first + second + 1)
    simp only [List.length_cons, List.foldl_cons]
    omega

section Terminating

variable (terminates : ∀ left, nextLine story ≠ .error .endless left)

include terminates in
/-- A line that terminates is refused however it is evaluated, or is complete within the limit. -/
theorem line_cases :
    (∃ error left, nextLine story = .error error left ∧
        ∀ more, nextSteps more story = .error error left) ∨
      ∃ start after, LineFrom story start ∧ runSteps stepLimit start = .ok true after := by
  rcases lineFrom_cases story with refused | ⟨start, line⟩
  · exact .inl refused
  · obtain ⟨complete, after, run⟩ := runSteps_ok stepLimit start
    cases complete with
    | true => exact .inr ⟨start, after, line, run⟩
    | false =>
      obtain ⟨left, endless⟩ := nextLine_endless line run
      exact absurd endless (terminates left)

include terminates in
/-- A whole line behind a call is what it would have been instead of the call. -/
theorem nextSteps_then_nextLine (more : Nat) :
    match nextSteps more story with
    | .ok _ middle =>
      if middle.inLine then nextLine middle = nextLine story
      else nextLine story = .ok middle.text middle
    | .error error left => nextLine story = .error error left := by
  rcases line_cases terminates with ⟨error, left, whole, refused⟩ | ⟨start, after, line, run⟩
  · rw [refused]
    exact whole
  · obtain ⟨complete, middle, part⟩ := runSteps_ok more start
    cases complete with
    | true =>
      obtain rfl := runSteps_unique part run
      rw [nextSteps_complete line part]
      exact nextLine_complete line run
    | false =>
      obtain ⟨unfinished, rest⟩ := lineFrom_rest line part
      simp only [nextSteps_unfinished line part, unfinished, if_true]
      rw [nextLine_complete rest (runSteps_rest part run), nextLine_complete line run]

include terminates in
/-- A line that terminates is complete within enough steps. -/
theorem inLine_nextSteps (enough : stepLimit ≤ more) (part : nextSteps more story = .ok () middle) :
    middle.inLine = false := by
  rcases line_cases terminates with ⟨error, left, -, refused⟩ | ⟨start, after, line, run⟩
  · rw [refused] at part
    contradiction
  · rw [nextSteps_complete line (runSteps_mono enough run)] at part
    injection part with _ same
    rw [← same, inLine_endLine]

end Terminating

/-- However a line that terminates is cut into parts, it comes to the same: where the parts complete
the line, they leave the story that the whole line leaves; where they do not, the whole line behind
them leaves it; and they fail where and as the whole line does. Enough parts complete the line. -/
theorem nextParts_agrees_with_nextLine {story : Story}
    (terminates : ∀ left, nextLine story ≠ .error .endless left) :
    (∀ first others,
      match nextParts (first :: others) story with
      | .ok _ middle =>
        if middle.inLine then nextLine middle = nextLine story
        else nextLine story = .ok middle.text middle
      | .error error left => nextLine story = .error error left) ∧
    ∃ calls, ∀ parts, calls ≤ parts.length →
      ∀ middle, nextParts parts story = .ok () middle → middle.inLine = false := by
  refine ⟨fun first others => ?_, stepLimit + 1, fun parts enough middle part => ?_⟩
  · rw [nextParts_eq_nextSteps]
    exact nextSteps_then_nextLine terminates _
  · cases parts with
    | nil => simp at enough
    | cons first others =>
      rw [nextParts_eq_nextSteps] at part
      have steps := length_le_steps first others
      refine inLine_nextSteps terminates ?_ part
      simp only [List.length_cons] at enough
      omega

/-- A story of two lines. The first begins with what a function of the host answers, and glue takes
its first newline away again. -/
@[irreducible]
def countedLines : Story where
  program :=
    { root := .mk none {}
        [.content (.command .beginEvaluation),
          .content (.divert { target := .external "count" 0 }),
          .content (.command .outputValue), .content (.command .endEvaluation),
          .content (.ofText "\n"), .content .glue, .content (.ofText "times"),
          .content (.ofText "\n"), .content (.ofText "Bye"), .content (.ofText "\n"),
          .content (.command .done)] [] }
  config := {}
  state := {}
  bindings := .single "count"
    { function := fun history _ => .ok (some (.int (Int32.ofNat history.length)))
      lookaheadSafe := false }

theorem nextLine_countedLines (left : Story) : nextLine countedLines ≠ .error .endless left := by
  obtain ⟨after, complete, -⟩ :
      ∃ after, nextLine countedLines = .ok "0times\n" after ∧ after.inLine = false := by
    decide +kernel
  rw [complete]
  exact nofun

theorem countedLines_in_parts :
    ∃ middle, nextParts [0, 3] countedLines = .ok () middle ∧ middle.inLine = true ∧
      nextLine middle = nextLine countedLines := by
  obtain ⟨middle, part, unfinished⟩ :
      ∃ middle, nextParts [0, 3] countedLines = .ok () middle ∧ middle.inLine = true := by
    decide +kernel
  have agree := (nextParts_agrees_with_nextLine nextLine_countedLines).1 0 [3]
  rw [part] at agree
  simp only [unfinished] at agree
  exact ⟨middle, part, unfinished, agree⟩

end Play

end InkStory
