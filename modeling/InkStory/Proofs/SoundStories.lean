import InkStory.Proofs.SavedStates

/-! # Stories that can be saved

Whatever a host does with a story, its state and the one it may go back to can be saved
(`State.invariant_sound`), as long as it loads nothing but saves of such stories
(`Story.Played.sound`). -/

namespace InkStory

variable {program : Program} {state : State}

namespace State

/-- A state is as sound as another with the same flow and stack. -/
theorem Sound.congr {other : State} (sound : Sound program state)
    (callStack : other.callStack = state.callStack) (choices : other.choices = state.choices)
    (diverted : other.diverted = state.diverted) (evaluation : other.evaluation = state.evaluation)
    (output : ∀ content ∈ other.output.stream, content.isPlain)
    (counts : SoundCounts program other) : Sound program other := by
  obtain ⟨⟨stack, offered, distinct, points⟩, stacked, -, -⟩ := sound
  refine ⟨⟨?_, ?_, ?_, ?_⟩, ?_, output, counts⟩
  · rwa [callStack]
  · rwa [callStack, choices]
  · rwa [choices]
  · rwa [diverted]
  · rwa [evaluation]

theorem Sound.applyPatch (sound : Sound program state) : Sound program state.applyPatch := by
  have counts := sound.counts.applyPatch
  unfold State.applyPatch at counts ⊢
  split
  · exact sound
  · next patch patched =>
    simp only [patched] at counts
    exact sound.congr rfl rfl rfl rfl sound.output counts

theorem sound_atStart (program : Program) (config : Config) :
    Sound program (atStart config) := by
  have nothing {α : Type} {holds : α → Prop} : ∀ item ∈ ([] : List α), holds item :=
    fun item member => absurd member List.not_mem_nil
  refine ⟨⟨fun thread member => ?_, nothing, .nil, nofun⟩, nothing, nothing,
    soundCounts_atStart program config⟩
  obtain rfl := List.mem_singleton.mp member
  refine ⟨⟨fun frame top target same => ?_, nofun⟩, Nat.le_refl _⟩
  obtain rfl := List.mem_singleton.mp top
  cases same
  exact Program.points_startOf Program.has_root

/-- Whatever is done to a state at once leaves one that can be saved. -/
theorem invariant_sound (wellNamed : program.WellNamed) (targeted : program.Targeted) :
    Invariant program (Sound program) where
  change changed sound := sound.change wellNamed targeted changed
  startPatch sound := sound.congr rfl rfl rfl rfl sound.output sound.counts.startPatch
  applyPatch sound := sound.applyPatch
  known sound := sound.congr rfl rfl rfl rfl sound.output (sound.counts.congr rfl rfl rfl)
  reports _ _ sound := sound.congr rfl rfl rfl rfl sound.output (sound.counts.congr rfl rfl rfl)
  aside _ _ sound := sound.congr rfl rfl rfl rfl sound.output (sound.counts.congr rfl rfl rfl)
  cleared sound :=
    sound.congr rfl rfl rfl rfl (List.forall_mem_nil _) (sound.counts.congr rfl rfl rfl)
  restored sound former :=
    sound.congr rfl rfl rfl rfl former.output (sound.counts.congr rfl rfl rfl)

end State

namespace Story

/-- A story of a program that can be saved, also from where it may go back to. -/
abbrev Sound (program : Program) (story : Story) : Prop :=
  story.Throughout program (State.Sound program)

variable {story : Story}

/-! ### Stories that load their own saves -/

variable {saved : Story}

/-- A save of a state whose numbers can be stored is loaded between lines. -/
theorem load_render {saveDefaults : Bool} (wellNamed : program.WellNamed)
    (here : story.program = program) (sound : State.Sound program state) (fits : state.Fits)
    (complete : story.inLine = false) :
    ∃ loaded, Play.load (state.save program saveDefaults).write.render story =
        .ok () { story with state := loaded, snapshot := none } ∧
      State.Resumed program saveDefaults state story.state loaded := by
  subst here
  obtain ⟨loaded, run, resumed⟩ := State.load_render wellNamed sound fits story.state
  exact ⟨loaded, Play.load_of_run complete run, resumed⟩

theorem load_save (wellNamed : program.WellNamed) (here : story.program = program)
    (sound : saved.Sound program) (fits : saved.state.Fits) (complete : story.inLine = false) :
    ∃ loaded, Play.load saved.save.write.render story =
        .ok () { story with state := loaded, snapshot := none } ∧
      State.Resumed program saved.config.saveDefaults saved.state story.state loaded := by
  obtain ⟨rfl, sound, -⟩ := sound
  exact load_render wellNamed here sound fits complete

/-- Loading a save of such a story leaves one. -/
theorem Sound.load (sound : story.Sound program) (wellNamed : program.WellNamed)
    (origin : saved.Sound program) (fits : saved.state.Fits) :
    ((Operation.load saved.save.write.render).after story).Sound program := by
  simp only [Operation.after, Operation.perform]
  by_cases unfinished : story.inLine
  · rw [Play.load_unfinished unfinished]
    exact sound
  · obtain ⟨loaded, run, resumed⟩ :=
      load_save wellNamed sound.here origin fits (Bool.eq_false_of_not_eq_true unfinished)
    rw [run]
    exact throughout_of_none sound.here rfl (resumed.sound origin.state)

theorem Sound.load_ends (sound : story.Sound program) (wellNamed : program.WellNamed)
    (origin : saved.Sound program) (fits : saved.state.Fits) (left : Story) :
    (Operation.load saved.save.write.render).perform story ≠ .error .endless left := by
  intro endless
  simp only [Operation.perform] at endless
  by_cases unfinished : story.inLine
  · rw [Play.load_unfinished unfinished] at endless
    cases endless
  · obtain ⟨loaded, run, -⟩ :=
      load_save wellNamed sound.here origin fits (Bool.eq_false_of_not_eq_true unfinished)
    rw [run] at endless
    cases endless

/-- A story of a program that a host began, and led on by operations of which none met an endless
line. What it loads are saves of such stories, whose numbers can be stored. -/
inductive Played (program : Program) : Story → Prop where
  | start {config : Config} {story : Story} (started : Story.start program config = .ok story) :
      Played program story
  | after {story : Story} (played : Played program story) (operation : Operation)
      (own : ∀ text, operation ≠ .load text)
      (ends : ∀ left, operation.perform story ≠ .error .endless left) :
      Played program (operation.after story)
  | load {story saved : Story} (played : Played program story) (origin : Played program saved)
      (fits : saved.state.Fits) :
      Played program ((Operation.load saved.save.write.render).after story)

/-- A story that was played can be saved. -/
theorem Played.sound (played : Played program story) (wellNamed : program.WellNamed)
    (targeted : program.Targeted) : story.Sound program := by
  have invariant := State.invariant_sound wellNamed targeted
  have atStart := State.sound_atStart program
  induction played with
  | start started => exact throughout_start invariant atStart started
  | after _ _ own _ sound => exact sound.operation invariant atStart own
  | load _ _ fits sound origin => exact sound.load wellNamed origin fits

theorem Played.reachable (played : Played program story) (wellNamed : program.WellNamed)
    (targeted : program.Targeted) : story.Reachable := by
  induction played with
  | start started => exact .start started
  | after _ operation _ ends reachable => exact reachable.after operation ends
  | load played origin fits reachable _ =>
    have sound := played.sound wellNamed targeted
    exact reachable.after _ (sound.load_ends wellNamed (origin.sound wellNamed targeted) fits)

end Story

end InkStory
