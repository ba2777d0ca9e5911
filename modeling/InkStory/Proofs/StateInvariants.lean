import InkStory.Proofs.Actions
import InkStory.Proofs.FailedLoad

/-! # What holds of every state of a story

What every change of a state keeps, and what is not about globals and reports, holds of all states of
a story, those that it may go back to among them, as long as the story loads only states of which it
holds too (`Story.Throughout.operation`, `Story.Throughout.load`). -/

namespace InkStory

variable {program : Program} {holds : State → Prop}

/-- What is neither about reports nor about what is known of the output, nor about where writes are
kept. -/
structure State.Lasting (holds : State → Prop) : Prop where
  startPatch : ∀ {state : State}, holds state → holds state.startPatch
  applyPatch : ∀ {state : State}, holds state → holds state.applyPatch
  known : ∀ {state : State}, holds state → holds { state with output := state.output.known }
  reports : ∀ {state : State} (errors warnings : List String), holds state →
    holds { state with errors := errors, warnings := warnings }

/-- What every change of a state of a program keeps, too. -/
structure State.Stable (program : Program) (holds : State → Prop) : Prop extends
    State.Lasting holds where
  change : ∀ {writable : String → Prop} {state after : State},
    State.Change program writable state after → holds state → holds after

/-- What holds of the states of a story that loads nothing and begins with it. It is not about
globals. -/
structure State.Invariant (program : Program) (holds : State → Prop) : Prop extends
    State.Stable program holds where
  aside : ∀ {state : State} (globals : Globals) (exitedSafely : Bool), holds state →
    holds { state with globals := globals, exitedSafely := exitedSafely }
  cleared : ∀ {state : State}, holds state → holds { state with output := {} }
  /-- A call of a function goes back to the output before it. -/
  restored : ∀ {state former : State}, holds state → holds former →
    holds { state with output := Output.ofStream former.output.stream }

namespace State.Stable

variable {state : State} (stable : Stable program holds) (held : holds state)

include stable held

theorem fail (error : Error) : holds (state.fail program error) := by
  have ended : Change program (fun _ => True) state state.forceEnd := .forceEnd
  exact stable.reports _ _ (stable.change ended held)

theorem checkEnd : holds (Story.checkEnd program state) := by
  unfold Story.checkEnd
  split
  · exact held
  · dsimp only
    split <;> split
    · exact stable.fail (stable.fail held _) _
    · exact stable.fail held _
    · exact stable.fail held _
    · exact held

theorem warnAll (warnings : List Warning) :
    holds (warnings.foldl (fun state warning => state.warn program warning) state) := by
  induction warnings generalizing state with
  | nil => exact held
  | cons warning rest ih => exact ih (stable.reports _ _ held)

end State.Stable

namespace Story

/-- Something holds of the state of a story of a program, and of the one that it may go back to. -/
structure Throughout (program : Program) (holds : State → Prop) (story : Story) : Prop where
  here : story.program = program
  state : holds story.state
  snapshot : ∀ snapshot, story.snapshot = some snapshot → holds snapshot

variable {story after : Story} {writable : String → Prop} {callable : HostCall → Prop}

theorem throughout_of_none (here : story.program = program) (settled : story.snapshot = none)
    (state : holds story.state) : story.Throughout program holds where
  here := here
  state := state
  snapshot snapshot taken := by
    rw [settled] at taken
    contradiction

namespace Throughout

section Lasting

variable (lasting : State.Lasting holds) (throughout : story.Throughout program holds)

include lasting throughout

theorem settle : story.settle.Throughout program holds := by
  unfold Story.settle
  split
  · exact throughout
  · exact ⟨throughout.here, lasting.applyPatch throughout.state, throughout.snapshot⟩

theorem rewind : story.rewind.Throughout program holds := by
  unfold Story.rewind
  split
  · exact throughout
  · next snapshot taken =>
    have former := lasting.reports story.state.errors story.state.warnings
      (throughout.snapshot snapshot taken)
    exact settle lasting (throughout_of_none throughout.here rfl former)

theorem keepLookahead : story.keepLookahead.Throughout program holds :=
  have settled := settle lasting throughout
  throughout_of_none settled.here rfl settled.state

theorem workOutText : story.workOutText.Throughout program holds where
  here := throughout.here
  state := lasting.known throughout.state
  snapshot former taken := by
    obtain ⟨kept, there, rfl⟩ := Option.map_eq_some_iff.mp taken
    exact lasting.known (throughout.snapshot kept there)

theorem takeSnapshot : story.takeSnapshot.Throughout program holds where
  here := throughout.here
  state := lasting.startPatch throughout.state
  snapshot _ taken := Option.some.inj taken ▸ throughout.state

end Lasting

section Stable

variable (stable : State.Stable program holds) (throughout : story.Throughout program holds)

include stable throughout

theorem move (move : Move writable callable story after) : after.Throughout program holds := by
  obtain ⟨rfl, state, snapshot⟩ := throughout
  cases move with
  | effect effect =>
    cases effect with
    | change changed => exact ⟨rfl, stable.change changed state, snapshot⟩
    | call | defer => exact ⟨rfl, state, snapshot⟩
  | workOut => exact workOutText stable.toLasting ⟨rfl, state, snapshot⟩
  | rewind => exact rewind stable.toLasting ⟨rfl, state, snapshot⟩
  | keepLookahead => exact keepLookahead stable.toLasting ⟨rfl, state, snapshot⟩
  | takeSnapshot => exact takeSnapshot stable.toLasting ⟨rfl, state, snapshot⟩

end Stable

theorem declarations (invariant : State.Invariant program holds) :
    KeptInDeclarations fun story => story.Throughout program holds where
  position {story} throughout := by
    have starts : State.Change program (fun _ => True) story.state
        (story.state.setPointer (some (Pointer.startOf []))) := by
      refine .point _ fun target same => ?_
      cases same
      exact Program.points_startOf Program.has_root
    exact ⟨throughout.here, invariant.change starts throughout.state, throughout.snapshot⟩
  declare throughout :=
    ⟨throughout.here, invariant.aside _ _ throughout.state, throughout.snapshot⟩

variable (invariant : State.Invariant program holds) (throughout : story.Throughout program holds)

include invariant throughout

theorem action (action : Action writable callable story after) : after.Throughout program holds := by
  obtain ⟨rfl, state, snapshot⟩ := throughout
  cases action with
  | move move => exact Throughout.move invariant.toStable ⟨rfl, state, snapshot⟩ move
  | fail error => exact ⟨rfl, invariant.fail state error, snapshot⟩
  | begin => exact ⟨rfl, invariant.aside _ _ (invariant.cleared state), snapshot⟩
  | clearOutput => exact ⟨rfl, invariant.cleared state, snapshot⟩
  | finish =>
    have rewound := rewind invariant.toLasting ⟨rfl, state, snapshot⟩
    have ended := invariant.checkEnd rewound.state
    rw [← rewound.here] at ended
    exact ⟨rewound.here, invariant.aside _ _ ended, rewound.snapshot⟩
  | forgetOthers => exact ⟨rfl, invariant.aside _ _ state, snapshot⟩
  | forgetReports => exact ⟨rfl, invariant.reports _ _ state, snapshot⟩
  | startSaving => exact ⟨rfl, invariant.startPatch state, snapshot⟩
  | endSaving =>
    refine ⟨rfl, ?_, snapshot⟩
    split
    · exact invariant.applyPatch state
    · exact state
  | resume | check | notify => exact ⟨rfl, state, snapshot⟩

/-- An operation keeps what holds throughout, unless it loads something. -/
theorem operation (atStart : ∀ config, holds (State.atStart config)) {operation : Operation}
    (own : ∀ text, operation ≠ .load text) : (operation.after story).Throughout program holds := by
  have acts (before after : Story) (action : Action (fun _ => True) (fun _ => True) before after)
      (kept : before.Throughout program holds) : after.Throughout program holds :=
    Throughout.action invariant kept action
  have prepares (before after : Story) (setsUp : SetsUp operation.unbinds before after)
      (kept : before.Throughout program holds) : after.Throughout program holds := by
    cases setsUp
    exact ⟨kept.here, kept.state, kept.snapshot⟩
  have allowed (step : Story) (_ : step ∈ operation.steps story) :
      step.Allows (fun _ => True) (fun _ => True) := ⟨fun _ _ => trivial, fun _ _ => trivial⟩
  cases replaces : operation.replaces with
  | false =>
    refine Operation.holds_after replaces acts prepares (fun before kept => ?_) allowed
      (fun _ _ _ => trivial) throughout
    exact ⟨kept.here, invariant.restored kept.state throughout.state, kept.snapshot⟩
  | true =>
    cases operation with
    | reset =>
      have parts : KeptInParts (fun _ => False) _ False fun story => story.Throughout program holds :=
        .of_actions acts prepares
      refine (parts.reset (declarations invariant) (fun _ kept => ?_) allowed).still throughout
      exact throughout_of_none kept.here rfl (atStart _)
    | load text => exact absurd rfl (own text)
    | _ => contradiction

omit invariant

/-- A load keeps what holds throughout, if it holds of the state that the load leaves. -/
theorem load {text : String} (loaded : holds (leaves (Run.load program text story.state))) :
    ((Operation.load text).after story).Throughout program holds := by
  obtain ⟨rfl, state, snapshot⟩ := throughout
  simp only [Operation.after, Operation.perform]
  cases unfinished : story.inLine with
  | true =>
    rw [Play.load_unfinished unfinished]
    exact ⟨rfl, state, snapshot⟩
  | false =>
    have allowed : Play.requireLineEnd "load a saved state" story = .ok () story := by
      simp [Play.requireLineEnd_apply, unfinished]
    simp only [Play.load, bind_apply, allowed, get_apply, Play.onState_apply]
    cases run : Run.load story.program text story.state with
    | ok value state =>
      rw [run] at loaded
      exact throughout_of_none rfl rfl loaded
    | error fault state =>
      rw [run] at loaded
      exact ⟨rfl, loaded, snapshot⟩

end Throughout

theorem throughout_start {config : Config} (invariant : State.Invariant program holds)
    (atStart : ∀ config, holds (State.atStart config))
    (started : start program config = .ok story) : story.Throughout program holds := by
  have parts : KeptInParts (fun _ => False) (Allows (fun _ => True) fun _ => True) False
      fun story => story.Throughout program holds :=
    .of_actions (fun _ _ action kept => kept.action invariant action) fun _ _ setsUp kept => by
      cases setsUp; exact ⟨kept.here, kept.state, kept.snapshot⟩
  exact (parts.declareGlobals (Throughout.declarations invariant) rfl fun _ _ =>
    ⟨fun _ _ => trivial, fun _ _ => trivial⟩).still_ok (throughout_of_none rfl rfl (atStart config))
      (Play.declares_of_start started)

/-- An operation keeps what a load keeps besides. -/
theorem Throughout.behind {holds : Program → State → Prop}
    (invariant : State.Invariant program (holds program))
    (atStart : ∀ config, holds program (State.atStart config))
    (load : ∀ text state, holds program state → holds program (leaves (Run.load program text state)))
    (operation : Operation) (throughout : story.Throughout program (holds program)) :
    (operation.after story).Throughout (operation.after story).program
      (holds (operation.after story).program) := by
  have kept : (operation.after story).Throughout program (holds program) := by
    by_cases loads : ∃ text, operation = .load text
    · obtain ⟨text, rfl⟩ := loads
      exact throughout.load (load text _ throughout.state)
    · exact throughout.operation invariant atStart fun text same => loads ⟨text, same⟩
  rwa [kept.here]

/-- What a load keeps besides holds wherever a host leads a story. -/
theorem Reachable.throughout {holds : Program → State → Prop} (reachable : story.Reachable)
    (invariant : ∀ program, State.Invariant program (holds program))
    (atStart : ∀ program config, holds program (State.atStart config))
    (load : ∀ program text state, holds program state →
      holds program (leaves (Run.load program text state))) :
    story.Throughout story.program (holds story.program) := by
  induction reachable with
  | start started =>
    have begun := throughout_start (invariant _) (atStart _) started
    rwa [begun.here]
  | after _ operation _ kept => exact kept.behind (invariant _) (atStart _) (load _) operation

end Story

end InkStory
