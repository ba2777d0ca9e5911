import InkStory.Proofs.FatalErrors
import InkStory.Proofs.StateInvariants

/-! # Between lines and within one

Behind every operation of the host a story is between lines, where it has nothing to go back to and
notes no changes, or within a line that can go on, in which it notes them (`Story.Reachable.poised`),
unless a line took more steps than any should. -/

namespace InkStory

variable {state : State} {program : Program} {story : Story} {more : Nat}

/-- Changes are noted with a line, and none is left to be told by itself. -/
structure State.Notes (state : State) : Prop where
  noted : state.globals.batch.isSome = true
  told : state.globals.unbatched = []

theorem State.Notes.applyPatch (notes : state.Notes) : state.applyPatch.Notes :=
  ⟨(State.batch_applyPatch state).trans notes.noted,
    (State.unbatched_applyPatch state).trans notes.told⟩

theorem State.Notes.change {writable : String → Prop} {after : State} (notes : state.Notes)
    (change : State.Change program writable state after) : after.Notes :=
  ⟨change.batch_isSome.trans notes.noted, (change.unbatched (.inl notes.noted)).trans notes.told⟩

theorem State.stable_notes (program : Program) : Stable program Notes where
  change changed notes := notes.change changed
  startPatch notes := ⟨notes.noted, notes.told⟩
  applyPatch notes := notes.applyPatch
  known notes := ⟨notes.noted, notes.told⟩
  reports _ _ notes := ⟨notes.noted, notes.told⟩

namespace Story

variable {after : Story}

/-- Changes are noted, here and where the story may go back to. -/
abbrev Notes (story : Story) : Prop := story.Throughout story.program State.Notes

open Play in
theorem Notes.step {wentBack : Bool} (notes : story.Notes)
    (taken : reportFailure singleStep story = .ok wentBack after) : after.Notes := by
  have moving : Moving (fun _ => True) (fun _ => True) singleStep story :=
    moving_singleStep (fun _ _ => trivial) fun _ _ => trivial
  have left := moving.invariant
    (fun _ _ move notes => Throughout.move (State.stable_notes story.program) notes move) notes
  unfold reportFailure at taken
  cases outcome : singleStep story <;> rw [outcome] at taken left <;> cases taken
  all_goals exact ⟨rfl, ⟨left.state.noted, left.state.told⟩, left.snapshot⟩

open Play in
theorem Notes.runSteps {complete : Bool} (notes : story.Notes)
    (run : runSteps more story = .ok complete after) : after.Notes := by
  obtain ⟨last, wentBack, listed, taken, -⟩ := runSteps_last run
  have noted : ∀ step ∈ stepsFrom more story, step.Notes :=
    stepsFrom_invariant (fun _ _ _ notes taken _ => notes.step taken) notes
  exact (noted last (List.mem_of_getLast? listed)).step taken

/-! ### Between lines and within one -/

/-- A story between lines has nothing to go back to, put off no call, notes no changes, and has none
left to tell. -/
structure Idle (story : Story) : Prop where
  complete : story.inLine = false
  settled : story.snapshot = none
  prompt : story.callDeferred = false
  unnoted : story.state.globals.batch.isSome = false
  told : story.state.globals.unbatched = []

theorem Idle.batch (idle : story.Idle) : story.state.globals.batch = none :=
  Option.isNone_iff_eq_none.mp (Option.isSome_eq_false_iff.mp idle.unnoted)

/-- A story within a line notes changes, and can go on. -/
structure Engaged (story : Story) : Prop extends Notes story where
  unfinished : story.inLine = true
  goesOn : story.canContinue = true

/-- A story between lines or within one. -/
def Poised (story : Story) : Prop := story.Idle ∨ story.Engaged

theorem Notes.idle_endLine (notes : story.Notes) : story.endLine.Idle where
  complete := rfl
  settled := snapshot_rewind story
  prompt := rfl
  unnoted := rfl
  told := by
    have same (program : Program) (state : State) :
        (checkEnd program state).globals.unbatched = state.globals.unbatched := by
      unfold checkEnd
      split
      · rfl
      · dsimp only
        split <;> split <;> rfl
    have stable := State.stable_notes story.program
    exact (same _ _).trans (Throughout.rewind stable.toLasting notes).state.told

theorem engaged_congr {other : Story} (engaged : story.Engaged) (same : story.SameLine other)
    (goesOn : story.canContinue → other.canContinue) : other.Engaged where
  here := rfl
  state := ⟨same.batch.trans engaged.state.noted, same.told engaged.state.told⟩
  snapshot := by
    rw [same.snapshot]
    exact engaged.snapshot
  unfinished := same.inLine.trans engaged.unfinished
  goesOn := goesOn engaged.goesOn

end Story

namespace Play

open Story

variable {start last : Story} {partly : Bool}

theorem notes_beginLine {value : Unit} (poised : story.Poised)
    (begun : beginLine partly story = .ok value start) : start.Notes ∧ start.inLine = partly := by
  obtain ⟨unfinished, rfl⟩ | ⟨complete, -, rfl⟩ := beginLine_eq_ok begun
  · rcases poised with idle | engaged
    · rw [idle.complete] at unfinished
      contradiction
    · exact ⟨⟨rfl, ⟨engaged.state.noted, engaged.state.told⟩, engaged.snapshot⟩, rfl⟩
  · rcases poised with idle | engaged
    · exact ⟨throughout_of_none rfl idle.settled ⟨rfl, idle.told⟩, rfl⟩
    · rw [engaged.unfinished] at complete
      contradiction

/-- A part of a line that is not its end leaves the story within the line. -/
theorem engaged_runSteps (notes : start.Notes) (run : runSteps more start = .ok false last)
    (unfinished : start.inLine) :
    last.Engaged where
  toThroughout := notes.runSteps run
  unfinished := (marks_runSteps run).1.trans unfinished
  goesOn := by
    obtain ⟨_, wentBack, -, -, stops⟩ := runSteps_last run
    cases goesOn : last.canContinue with
    | true => rfl
    | false =>
      rw [goesOn, Bool.not_false, Bool.or_true] at stops
      contradiction

/-- A whole line that can begin leads between lines, unless it is endless. -/
theorem wholeLine_cases (poised : story.Poised)
    (ends : ∀ left, wholeLine story ≠ .error .endless left) :
    leaves (wholeLine story) = story ∨ (leaves (wholeLine story)).Idle := by
  rcases beginLine_cases story with refused | ⟨start, begins, -⟩
  · simp only [wholeLine, bind_apply, refused]
    exact .inl rfl
  · obtain ⟨complete, last, run⟩ := runSteps_ok stepLimit (start.marked false start.bindingsChecked)
    obtain ⟨notes, -⟩ := notes_beginLine poised (begins.2 false)
    simp only [wholeLine, bind_apply, begins.2 false, run] at ends ⊢
    cases complete with
    | true => exact .inr (notes.runSteps run).idle_endLine
    | false => exact absurd rfl (ends last)

theorem steady_idle : Steady Idle where
  congr same idle :=
    ⟨same.inLine.trans idle.complete, same.snapshot.trans idle.settled,
      same.deferred.trans idle.prompt, same.batch.trans idle.unnoted, same.told idle.told⟩
  replace story _ complete noted told idle := by
    refine ⟨complete, rfl, idle.prompt, ?_, told idle.told⟩
    rw [← Bool.not_eq_true]
    intro begun
    rw [idle.unnoted] at noted
    exact absurd (noted begun) Bool.false_ne_true
  wholeLine story := by
    intro idle ends
    rcases wholeLine_cases (.inl idle) fun left failed => ends _ left failed rfl with same | after
    · rw [same]
      exact idle
    · exact after

theorem keeps_partOfLine (more : Nat) : Keeps (· = .endless) Poised (partOfLine more) story := by
  intro poised _
  rcases beginLine_cases story with refused | ⟨start, begins, -⟩
  · simp only [partOfLine, bind_apply, refused]
    exact poised
  · obtain ⟨notes, unfinished⟩ := notes_beginLine poised (begins.2 true)
    obtain ⟨complete, last, run⟩ := runSteps_ok more (start.marked true start.bindingsChecked)
    simp only [partOfLine, bind_apply, begins.2 true, run]
    cases complete with
    | true => exact .inl (notes.runSteps run).idle_endLine
    | false => exact .inr (engaged_runSteps notes run unfinished)

theorem keeps_requireBindings : Keeps (· = .endless) Poised requireBindings story := by
  have preparing : Preparing False requireBindings story := leads_requireBindings .check
  refine .of_leads preparing fun before after setsUp poised => ?_
  cases setsUp
  rcases poised with idle | engaged
  · exact .inl ⟨idle.complete, idle.settled, idle.prompt, idle.unnoted, idle.told⟩
  · exact .inr (engaged_congr engaged ⟨rfl, rfl, rfl, rfl, id⟩ id)

end Play

namespace Operation

open Play Story

variable {operation : Operation}

theorem keeps_continues (continues : operation.continues) :
    Keeps (· = .endless) Poised operation.perform story := by
  cases operation with
  | nextLine =>
    refine .bind (.bind keeps_requireBindings fun _ ready _ => ?_) fun _ _ _ => .pure _
    refine .bind (fun poised ends => ?_) fun _ _ _ => .get_bind (.pure _)
    rcases wholeLine_cases poised fun left failed => ends _ left failed rfl with same | idle
    · rw [same]
      exact poised
    · exact .inl idle
  | nextSteps more => exact .bind keeps_requireBindings fun _ _ _ => keeps_partOfLine more
  | _ => contradiction

theorem canContinue_applyPatch (state : State) :
    state.applyPatch.canContinue = state.canContinue := by
  unfold State.applyPatch
  split <;> rfl

/-- Within a line no choice is shown that could be taken. -/
theorem choose_refused {index : Nat} (goesOn : story.canContinue) :
    (Operation.choose index).after story = story := by
  have hidden : story.state.visibleChoices = [] := if_pos goesOn
  have refused : (Operation.choose index).perform story = .error (.choiceOutOfRange index 0) story := by
    simp only [perform, Play.choose, bind_apply, get_apply, hidden, List.getElem?_nil,
      List.length_nil, throw_apply]
  rw [after, refused]
  rfl

/-- What an operation does within a line besides going on with it leaves the story within it. -/
theorem engaged_after (engaged : story.Engaged) (pauses : operation.continues = false) :
    (operation.after story).Engaged := by
  have aside := aside_of_unfinished pauses engaged.unfinished
  generalize reached : operation.after story = next at aside
  cases aside with
  | refused => exact engaged
  | checkBindings => exact engaged_congr engaged ⟨rfl, rfl, rfl, rfl, id⟩ id
  | choose =>
    rw [← reached, choose_refused engaged.goesOn]
    exact engaged
  | @setGlobal name value => exact engaged_congr engaged (sameLine_written name value story) id
  | forgetReports =>
    refine engaged_congr engaged ⟨rfl, rfl, rfl, rfl, id⟩ fun goesOn => ?_
    obtain ⟨pointer, -⟩ := Bool.and_eq_true_iff.mp goesOn
    exact Bool.and_eq_true_iff.mpr ⟨pointer, rfl⟩
  | endBackgroundSave =>
    refine engaged_congr engaged (sameLine_endSaving story) fun goesOn => ?_
    rw [canContinue]
    split
    · rw [canContinue_applyPatch]
      exact goesOn
    · exact goesOn

theorem poised_after (poised : story.Poised)
    (ends : ∀ left, operation.perform story ≠ .error .endless left) :
    (operation.after story).Poised := by
  cases continues : operation.continues with
  | true => exact keeps_continues continues poised fun _ _ failed same => ends _ (same ▸ failed)
  | false =>
    rcases poised with idle | engaged
    · refine .inl (steady_perform steady_idle (fun more same => ?_) idle
        fun _ _ failed same => ends _ (same ▸ failed))
      rw [same] at continues
      contradiction
    · exact .inr (engaged_after engaged continues)

end Operation

namespace Story

theorem idle_start {config : Config} (started : start program config = .ok story) : story.Idle := by
  have declared := Play.declares_of_start started
  have idle : Idle { program, config, state := State.atStart config } :=
    ⟨rfl, rfl, rfl, rfl, rfl⟩
  have after := (Play.steady_idle.parts False).declareGlobals Play.steady_idle.behind rfl
    (fun _ _ => trivial) idle
  rw [declared] at after
  exact after fun _ _ failed => nomatch failed

theorem Reachable.poised (reachable : story.Reachable) : story.Poised := by
  induction reachable with
  | start started => exact .inl (idle_start started)
  | after _ operation ends ih => exact Operation.poised_after ih ends

theorem Reachable.idle (reachable : story.Reachable) (complete : story.inLine = false) :
    story.Idle := by
  rcases reachable.poised with idle | engaged
  · exact idle
  · rw [engaged.unfinished] at complete
    contradiction

end Story

end InkStory
