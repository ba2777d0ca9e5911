import InkStory.Proofs.BackgroundSaves
import InkStory.Proofs.ForgottenPasts
import InkStory.Proofs.KnownTexts
import InkStory.Proofs.Resuming

/-! # Playing on from a save

A save leaves out where the output of a function began and how high the evaluation stack was when
the host called one, holds only values that have a JSON form, and knows no globals but declared
ones. Where nothing of that is lost (`State.Lasts`), nobody can tell a story that is loaded from a
save from the one that was saved: whatever a host does with both has the same answers
(`Story.Played.plays_on`). -/

namespace InkStory

open List Option Output

variable {program : Program} {mode : Comparison} {saved fresh : Story} {loaded : State}

/-! ### What a save keeps -/

/-- A frame of which a save keeps all that counts: its temporaries are stored as they are, the host
called it with an empty evaluation stack, and it trims no output. -/
structure Frame.Lasts (frame : Frame) : Prop where
  temporaries : ∀ value ∈ frame.temporaries.values, value.stored = value
  stackHeight : frame.kind = .hostCall → frame.stackHeight = 0
  outputStart : frame.kind = .function → frame.outputStart = none

/-- A thread of which a save keeps all that counts. -/
structure Thread.Lasts (program : Program) (thread : Thread) : Prop where
  frames : ∀ frame ∈ thread.frames, frame.Lasts
  anchored : thread.Anchored program

/-- A state of which a save keeps all that counts. -/
structure State.Lasts (program : Program) (state : State) : Prop where
  live : ∀ thread ∈ state.callStack.live, thread.Lasts program
  choices : ∀ choice ∈ state.choices, choice.thread.Lasts program
  evaluation : ∀ content ∈ state.evaluation, content.stored = content
  output : ∀ content ∈ state.output.stream, content.stored = content
  globals : ∀ entry ∈ state.globals.values.entries, entry.2.stored = entry.2
  /-- All globals are declared. -/
  declared : ∀ entry ∈ state.globals.values.entries,
    (state.globals.default? entry.1).isSome = true
  straight : state.diverted = none

instance : DecidablePred Frame.Lasts := fun frame =>
  decidable_of_iff
    ((∀ value ∈ frame.temporaries.values, value.stored = value) ∧
      (frame.kind = .hostCall → frame.stackHeight = 0) ∧
      (frame.kind = .function → frame.outputStart = none))
    ⟨fun all => ⟨all.1, all.2.1, all.2.2⟩,
      fun lasts => ⟨lasts.temporaries, lasts.stackHeight, lasts.outputStart⟩⟩

instance (program : Program) : DecidablePred (Thread.Lasts program) := fun thread =>
  decidable_of_iff ((∀ frame ∈ thread.frames, frame.Lasts) ∧ thread.Anchored program)
    ⟨fun both => ⟨both.1, both.2⟩, fun lasts => ⟨lasts.frames, lasts.anchored⟩⟩

instance (program : Program) : DecidablePred (State.Lasts program) := fun state =>
  decidable_of_iff
    ((∀ thread ∈ state.callStack.live, thread.Lasts program) ∧
      (∀ choice ∈ state.choices, choice.thread.Lasts program) ∧
      (∀ content ∈ state.evaluation, content.stored = content) ∧
      (∀ content ∈ state.output.stream, content.stored = content) ∧
      (∀ entry ∈ state.globals.values.entries, entry.2.stored = entry.2) ∧
      (∀ entry ∈ state.globals.values.entries, (state.globals.default? entry.1).isSome = true) ∧
      state.diverted = none)
    ⟨fun all => ⟨all.1, all.2.1, all.2.2.1, all.2.2.2.1, all.2.2.2.2.1, all.2.2.2.2.2.1,
        all.2.2.2.2.2.2⟩,
      fun lasts => ⟨lasts.live, lasts.choices, lasts.evaluation, lasts.output, lasts.globals,
        lasts.declared, lasts.straight⟩⟩

theorem Table.map_eq_self {Key : Type u} {Entry : Type v} {table : Table Key Entry}
    {change : Entry → Entry} (same : ∀ entry ∈ table.values, change entry = entry) :
    table.map change = table := by
  apply Table.eq_of_entries
  refine (map_congr_left fun entry listed => ?_).trans (map_id _)
  exact congrArg (Prod.mk entry.1) (same entry.2 (mem_map_of_mem listed))

theorem Frame.Lasts.matches_stored {frame : Frame} (lasts : frame.Lasts) :
    frame.Matches frame.stored where
  pointer := rfl
  evaluating := rfl
  temporaries := (Table.map_eq_self lasts.temporaries).symm
  kind := rfl
  stackHeight := lasts.stackHeight
  outputStart := lasts.outputStart

/-- Pointers at the same object lie in the same containers. -/
theorem Program.samePlace_of_resolve {pointer other : Option Pointer}
    (found : ∀ target ∈ pointer, (program.resolve? target).isSome)
    (foundToo : ∀ target ∈ other, (program.resolve? target).isSome)
    (place : pointer.bind program.resolve? = other.bind program.resolve?) :
    program.SamePlace pointer other where
  place := place
  around := by
    cases pointer with
    | none =>
      cases other with
      | none => rfl
      | some target =>
        have there := foundToo target rfl
        rw [← show none = program.resolve? target from place] at there
        contradiction
    | some pointer =>
      cases other with
      | none =>
        have there := found pointer rfl
        rw [show program.resolve? pointer = none from place] at there
        contradiction
      | some target =>
        replace place : program.resolve? pointer = program.resolve? target := place
        obtain ⟨here, resolves⟩ := isSome_iff_exists.mp (found pointer rfl)
        have resolvesToo := place.symm.trans resolves
        simp only [map_some, around, resolves, resolvesToo]
        cases here with
        | container => rfl
        | content address position =>
          rw [program.pointer_of_resolve_content resolves,
            program.pointer_of_resolve_content resolvesToo]

section Restored

theorem Thread.Restored.matches {thread restored : Thread}
    (same : thread.Restored program restored) (lasts : thread.Lasts program)
    (anchored : restored.Anchored program) : Thread.Matches program thread restored := by
  obtain ⟨frames, index, previous, -⟩ := same
  obtain ⟨top, below⟩ := cons.inj frames
  exact {
    top := by
      rw [top]
      exact (lasts.frames thread.top mem_cons_self).matches_stored
    below := by
      rw [below, forall₂_map_right_iff, forall₂_same]
      intro frame listed
      exact (lasts.frames frame (mem_cons_of_mem _ listed)).matches_stored
    index := index.symm
    previous := program.samePlace_of_resolve lasts.anchored anchored previous.symm }

theorem forall₂_imp_of_mem {α β : Type} {related further : α → β → Prop} {lefts : List α}
    {rights : List β} (all : Forall₂ related lefts rights)
    (implies : ∀ left ∈ lefts, ∀ right ∈ rights, related left right → further left right) :
    Forall₂ further lefts rights := by
  induction all with
  | nil => exact .nil
  | cons here _ ih =>
    refine .cons (implies _ mem_cons_self _ mem_cons_self here) (ih ?_)
    intro left listed right listedToo
    exact implies left (mem_cons_of_mem _ listed) right (mem_cons_of_mem _ listedToo)

theorem CallStack.Restored.matches {stack restored : CallStack}
    (same : stack.Restored program restored) (lasts : ∀ thread ∈ stack.live, thread.Lasts program)
    (anchored : ∀ thread ∈ restored.live, thread.Anchored program) :
    stack.Matches program restored := by
  have live : Forall₂ (Thread.Restored program) stack.live restored.live :=
    forall₂_reverse_iff.mp same.threads
  have all : Forall₂ (Thread.Matches program) stack.live restored.live :=
    forall₂_imp_of_mem live fun thread listed other listedToo same =>
      same.matches (lasts thread listed) (anchored other listedToo)
  obtain ⟨current, waiting⟩ := forall₂_cons.mp all
  exact ⟨current, waiting, same.counter.symm⟩

theorem Choice.Restored.matches {choice restored : Choice}
    (same : choice.Restored program restored) (lasts : choice.thread.Lasts program)
    (anchored : restored.thread.Anchored program) : choice.Matches program restored where
  text := same.text.symm
  source := same.source.symm
  target := same.target.symm
  isInvisible := same.isInvisible.symm
  tags := same.tags.symm
  index := same.index.symm
  thread := same.thread.matches lasts anchored

end Restored

/-- Globals that are all declared, and saved as they are, are loaded as they were. -/
theorem Globals.matches_load {globals start : Globals} {saved : Table String Value}
    (lockstep : mode.lockstep) (free : ¬mode.verbatim)
    (defaults : globals.defaults = start.defaults)
    (placed : ∀ name, (globals.default? name).isSome → globals.values.contains name)
    (declared : ∀ name, globals.values.contains name → (globals.default? name).isSome)
    (same : ∀ name, saved.get? name = globals.values.get? name) :
    Globals.Matches mode globals none (start.load saved) none := by
  have loaded (name : String) : (start.load saved).values.get? name = globals.values.get? name := by
    unfold Globals.load
    cases known : start.defaults with
    | none => exact same name
    | some table =>
      have default (name : String) : globals.default? name = table.get? name := by
        rw [Globals.default?, defaults, known, bind_some]
      rw [Table.get?_mapWithKey, same, ← default]
      cases there : globals.values.get? name with
      | none =>
        cases found : globals.default? name with
        | none => rfl
        | some value =>
          have missing := placed name (by rw [found]; rfl)
          rw [Table.contains, there] at missing
          contradiction
      | some value =>
        have found := declared name (by rw [Table.contains, there]; rfl)
        obtain ⟨default, found⟩ := isSome_iff_exists.mp found
        rw [found]
        rfl
  exact {
    stored := fun name => (loaded name).symm
    defaults := defaults
    there := fun name => congrArg Option.isSome (loaded name).symm
    declared := placed
    placed := .inl lockstep
    apart := fun _ => rfl
    noted := fun verbatim => absurd verbatim free }

namespace State

variable {saved start : State}

theorem Lasts.get?_savedGlobals (lasts : saved.Lasts program) (unpatched : saved.patch = none)
    (name : String) :
    (saved.savedGlobals true).get? name = saved.globals.values.get? name := by
  rw [State.get?_savedGlobals unpatched]
  cases there : saved.globals.values.get? name with
  | none => rfl
  | some value =>
    have same := lasts.globals (name, value) (Table.get?_eq_some_iff.mp there)
    exact congrArg some same

/-- A state that was loaded from a save which keeps all that counts matches the saved one. -/
theorem Resumed.matches (resumed : Resumed mode.program true saved start loaded)
    (wellNamed : mode.program.WellNamed) (sound : Sound mode.program saved)
    (lasts : saved.Lasts mode.program) (unpatched : saved.patch = none)
    (accurate : saved.output.Accurate) (recorded : saved.Recorded)
    (defaults : saved.globals.defaults = start.globals.defaults)
    (errors : saved.errors = start.errors) (lockstep : mode.lockstep) (loose : ¬mode.verbatim)
    (free : ¬mode.exiting) (unwarned : ¬mode.warned) :
    Matches mode saved loaded := by
  have stored {contents : List Content}
      (same : ∀ content ∈ contents, content.stored = content) :
      contents = contents.map Content.stored :=
    ((map_congr_left same).trans (map_id _)).symm
  have visits := resumed.visits_eq wellNamed sound unpatched
  have turns := resumed.turns_eq wellNamed sound unpatched
  exact {
    callStack := resumed.stack.matches lasts.live resumed.live
    globals := by
      rw [resumed.globals, resumed.patch, unpatched]
      refine Globals.matches_load lockstep loose defaults recorded.declared (fun name there => ?_)
        (lasts.get?_savedGlobals unpatched)
      obtain ⟨value, there⟩ := isSome_iff_exists.mp there
      exact lasts.declared (name, value) (Table.get?_eq_some_iff.mp there)
    evaluation := (stored lasts.evaluation).trans resumed.evaluation.symm
    output := by
      rw [resumed.output]
      exact accurate.matches (accurate_ofStream _) (stored lasts.output)
    choices := forall₂_imp_of_mem resumed.choices fun choice offered other offeredToo same =>
      same.matches (lasts.choices choice offered) (resumed.offered other offeredToo)
    visited address := by rw [visited?, visited?, visits, unpatched, resumed.patch]
    turned address := by rw [turnOf?, turnOf?, turns, unpatched, resumed.patch]
    tally := fun verbatim => absurd verbatim loose
    turn := resumed.turn.symm
    seed := resumed.seed.symm
    previousDraw := resumed.previousDraw.symm
    exited := fun exiting => absurd exiting free
    diverted := lasts.straight.trans (resumed.straight lasts.straight).symm
    errors := errors.trans resumed.errors.symm
    warnings := fun warned => absurd warned unwarned }

end State

/-! ### Stories -/

/-- Stories of one program that are played alike, with functions of the host that answer alike and
the same globals declared. That all functions are there was found in both stories, or else none is
missing. -/
structure Story.EquippedAlike (story other : Story) : Prop where
  program : story.program = other.program
  config : story.config = other.config
  bindings : ∀ name,
    Option.Rel Binding.Matches (story.bindings.get? name) (other.bindings.get? name)
  checked : story.bindingsChecked = other.bindingsChecked ∨ story.missingFunctions = []
  defaults : story.state.globals.defaults = other.state.globals.defaults

theorem Story.SetUpAlike.equippedAlike {story other : Story} (alike : story.SetUpAlike other) :
    story.EquippedAlike other :=
  ⟨alike.program, alike.config, alike.bindings, alike.checked, alike.defaults⟩

/-- A play that goes on, and one that is loaded from its save into another story. -/
def Comparison.ofResumption (saved fresh : Story) : Comparison where
  program := saved.program
  lockstep := True
  exiting := False
  warned := False
  verbatim := False
  together := False.elim
  bound := ¬saved.bindingsChecked = fresh.bindingsChecked
  journal := []
  otherJournal := []

namespace Story

variable {source : String}

/-- A story cannot be told apart from one that was loaded from its save, if that keeps all that
counts. -/
theorem Played.abreast_resumed (played : Played program saved) (wellNamed : program.WellNamed)
    (targeted : program.Targeted) (complete : saved.inLine = false) (free : saved.isSaving = false)
    (lasts : saved.state.Lasts program) (reachable : fresh.Reachable)
    (completeToo : fresh.inLine = false) (freeToo : fresh.isSaving = false)
    (alike : saved.EquippedAlike fresh) (errors : saved.state.errors = fresh.state.errors)
    (resumed : State.Resumed program true saved.state fresh.state loaded) :
    Abreast (.ofResumption saved fresh) saved
      { fresh with state := loaded, snapshot := none } := by
  have savedReachable := played.reachable wellNamed targeted
  have idle := savedReachable.idle complete
  have idleToo := reachable.idle completeToo
  obtain ⟨rfl, sound, -⟩ := played.sound wellNamed targeted
  exact {
    program := rfl
    otherProgram := alike.program.symm
    config := alike.config
    state := by
      refine resumed.matches wellNamed sound lasts
        (played.unpatched wellNamed targeted complete free) savedReachable.arises.state.accurate
        savedReachable.kept.state alike.defaults errors trivial id ?_ id
      exact fun unfinished => Bool.false_ne_true (complete.symm.trans unfinished)
    snapshot := by
      rw [idle.settled]
      exact .none
    bindings := alike.bindings
    checked := Decidable.or_iff_not_imp_left.mpr fun different =>
      ⟨different, alike.checked.resolve_left different⟩
    inLine := complete.trans completeToo.symm
    callDeferred := idle.prompt.trans idleToo.prompt.symm
    saving := fun _ => free.trans freeToo.symm
    observers := False.elim
    journal := False.elim }

/-- Between lines, and while the host is not saving, the text of a story's save that keeps all that
counts is loaded into any other story that is equipped alike and has the same errors. That then
looks like the saved one and has the same save, and so it is behind any operations, which have the
same results, observers and loads apart. -/
theorem Played.plays_on (read : Program.read source = .ok program) (wellNamed : program.WellNamed)
    (played : Played program saved) (complete : saved.inLine = false)
    (free : saved.isSaving = false) (all : saved.config.saveDefaults = true)
    (fits : saved.state.Fits) (lasts : saved.state.Lasts program) (reachable : fresh.Reachable)
    (completeToo : fresh.inLine = false) (freeToo : fresh.isSaving = false)
    (alike : saved.EquippedAlike fresh) (errors : saved.state.errors = fresh.state.errors) :
    ∃ loaded, Play.load saved.save.write.render fresh = .ok () loaded ∧
      saved.LooksLike loaded ∧ saved.save.Alike loaded.save ∧
      ∀ operations : List Operation, (∀ operation ∈ operations, operation.plays = true) →
        saved.bindingsChecked = fresh.bindingsChecked ∨ (∀ name, .unbind name ∉ operations) →
        Forall₂
          (fun turn again => turn.LooksLike again ∧ turn.story.save.Alike again.story.save)
          (saved.history operations) (loaded.history operations) := by
  have targeted := Program.targeted_of_read read
  have sound := played.sound wellNamed targeted
  obtain ⟨loaded, run, resumed⟩ :=
    load_save wellNamed (alike.program.symm.trans sound.here) sound fits completeToo
  rw [all] at resumed
  have same := played.abreast_resumed wellNamed targeted complete free lasts reachable completeToo
    freeToo alike errors resumed
  have distinct : saved.program.DistinctPaths := by
    rw [sound.here]
    exact wellNamed.distinctPaths
  have tallied := (played.reachable wellNamed targeted).tallied
  have talliedToo := tallied_load reachable run
  refine ⟨_, run, same.looksLike, same.save distinct tallied talliedToo, ?_⟩
  intro operations plays left
  have comparable : ∀ operation ∈ operations, operation.Comparable (.ofResumption saved fresh) := by
    intro operation listed
    have plays := plays operation listed
    cases operation with
    | observe | removeObserver | reset | load => contradiction
    | unbind name =>
      intro different
      exact (left.resolve_left different) name listed
    | _ => trivial
  have turns := same.history tallied talliedToo comparable trivial
  apply turns.imp
  intro turn again same
  exact ⟨same.looksLike, same.story.save distinct same.tallied same.talliedToo⟩

/-! ### Stories to try -/

/-- A host that wants all globals in its saves. -/
def savingAll : Config := { saveDefaults := true }

/-- A story and another of the same program are equipped alike, if a test finds so. -/
theorem Played.equippedAlike (wellNamed : program.WellNamed) (targeted : program.Targeted)
    (played : Played program saved) (start : Played program fresh)
    (config : saved.config = fresh.config) (alike : setUpAlike saved fresh) :
    saved.EquippedAlike fresh :=
  have here := (played.sound wellNamed targeted).here.trans (start.sound wellNamed targeted).here.symm
  (SetUpAlike.of_test here config alike).equippedAlike

theorem plays_on_with_choice :
    ∃ saved fresh loaded, Played moodProgram saved ∧ saved.state.visibleChoices.length = 1 ∧
      Story.start moodProgram savingAll = .ok fresh ∧
      Play.load saved.save.write.render fresh = .ok () loaded ∧
      Forall₂
        (fun turn again => turn.LooksLike again ∧ turn.story.save.Alike again.story.save)
        (saved.history [.choose 0, .nextLine, .setGlobal "mood" (.int 3)])
        (loaded.history [.choose 0, .nextLine, .setGlobal "mood" (.int 3)]) := by
  have targeted := Program.targeted_of_read read_moodSource
  obtain ⟨fresh, started, completeToo, freeToo, saved, done, config, alike, complete, free, all, fits,
      lasts, errors, choice⟩ :
      ∃ fresh, Story.start moodProgram savingAll = .ok fresh ∧ fresh.inLine = false ∧
        fresh.isSaving = false ∧
        ∃ saved, Operation.performAll [.setGlobal "mood" (.string "fine"), .nextLine] fresh =
            .ok () saved ∧ saved.config = fresh.config ∧ setUpAlike saved fresh ∧
          saved.inLine = false ∧ saved.isSaving = false ∧ saved.config.saveDefaults = true ∧
          saved.state.Fits ∧ saved.state.Lasts moodProgram ∧
          saved.state.errors = fresh.state.errors ∧ saved.state.visibleChoices.length = 1 := by
    decide +kernel
  have played := (Played.start started).performAll (by simp) done
  have alike := played.equippedAlike wellNamed_moodProgram targeted (.start started) config alike
  obtain ⟨loaded, run, -, -, turns⟩ :=
    played.plays_on read_moodSource wellNamed_moodProgram complete free all fits lasts
      (.start started) completeToo freeToo alike errors
  refine ⟨saved, fresh, loaded, played, choice, started, run, turns _ ?_ (.inr ?_)⟩ <;>
    simp [Operation.plays]

/-- A save is loaded without its text, if its flow can be restored. -/
theorem load_reread {flow : SavedFlow} (sound : saved.Sound program) (fits : saved.state.Fits)
    (complete : fresh.inLine = false)
    (found : saved.save.reread.restoreFlow fresh.program = .ok flow) :
    Play.load saved.save.write.render fresh = .ok ()
      { fresh with
        snapshot := none
        state := State.reloaded fresh.program saved.program saved.config.saveDefaults saved.state
          flow fresh.state } :=
  have plain : saved.state.Plain := ⟨sound.state.evaluation, sound.state.output⟩
  Play.load_of_run complete (State.load_of_flow sound.state.flow.apart plain fits fresh.state found)

/-- A story that offers a choice within a function, whose output begins with blanks behind it. -/
@[irreducible]
def pausedSource : String :=
  "\x7b\"inkVersion\":21,\"root\":[\"^Hello\",\"\\n\",\"ev\",\x7b\"f()\":\"f\"\x7d,\"/ev\",\"done\"," ++
    "\x7b\"f\":[\"ev\",\"str\",\"^Go\",\"/str\",\"/ev\",\x7b\"*\":\"f.c\",\"flg\":4\x7d,\"done\"," ++
    "\x7b\"c\":[\"^ \",\"\\n\",\"^Gone\",\"\\n\",\"done\",null]\x7d]\x7d]\x7d"

@[irreducible]
def pausedProgram : Program where
  root :=
    .mk none {}
      [.content (.ofText "Hello"), .content (.ofText "\n"),
        .content (.command .beginEvaluation),
        .content (.divert ⟨.path (Path.parse "f"), some .function, false⟩),
        .content (.command .endEvaluation), .content (.command .done)]
      [("f",
        .mk (some "f") {}
          [.content (.command .beginEvaluation), .content (.command .beginString),
            .content (.ofText "Go"), .content (.command .endString),
            .content (.command .endEvaluation),
            .content (.choicePoint { target := Path.parse "f.c", hasChoiceOnlyContent := true }),
            .content (.command .done)]
          [("c",
            .mk (some "c") {}
              [.content (.ofText " "), .content (.ofText "\n"), .content (.ofText "Gone"),
                .content (.ofText "\n"), .content (.command .done)] [])])]

set_option maxRecDepth 100000 in
theorem read_pausedSource : Program.read pausedSource = .ok pausedProgram := by cbv

theorem wellNamed_pausedProgram : pausedProgram.WellNamed :=
  Program.wellNamed_of_isWellNamed (by decide +kernel)

/-- Where the output of a function began is not saved: behind a load, newlines are no longer trimmed
from it. -/
theorem trimming_not_resumed :
    ∃ saved fresh loaded, Program.read pausedSource = .ok pausedProgram ∧
      pausedProgram.WellNamed ∧ Played pausedProgram saved ∧ saved.inLine = false ∧
      saved.isSaving = false ∧ saved.config.saveDefaults = true ∧ saved.state.Fits ∧
      saved.state.errors = [] ∧ Story.start pausedProgram savingAll = .ok fresh ∧
      saved.EquippedAlike fresh ∧ Play.load saved.save.write.render fresh = .ok () loaded ∧
      (saved.history [.choose 0, .nextLine]).map (fun turn => turn.story.text) =
        ["Hello\n", "Gone\n"] ∧
      (loaded.history [.choose 0, .nextLine]).map (fun turn => turn.story.text) =
        ["Hello\n", "\n"] := by
  have targeted := Program.targeted_of_read read_pausedSource
  obtain ⟨fresh, started, completeToo, saved, done, config, alike, complete, free, all, fits, errors,
      texts, flow, found, textsToo⟩ :
      ∃ fresh, Story.start pausedProgram savingAll = .ok fresh ∧ fresh.inLine = false ∧
        ∃ saved, Operation.performAll [.nextLine] fresh = .ok () saved ∧
          saved.config = fresh.config ∧ setUpAlike saved fresh ∧ saved.inLine = false ∧
          saved.isSaving = false ∧ saved.config.saveDefaults = true ∧ saved.state.Fits ∧
          saved.state.errors = [] ∧
          (saved.history [.choose 0, .nextLine]).map (fun turn => turn.story.text) =
            ["Hello\n", "Gone\n"] ∧
          ∃ flow, saved.save.reread.restoreFlow fresh.program = .ok flow ∧
            (Story.history { fresh with
              snapshot := none
              state := State.reloaded fresh.program saved.program saved.config.saveDefaults
                saved.state flow fresh.state } [.choose 0, .nextLine]).map
              (fun turn => turn.story.text) = ["Hello\n", "\n"] := by
    decide +kernel
  have played := (Played.start started).performAll (by simp) done
  have run := load_reread (played.sound wellNamed_pausedProgram targeted) fits completeToo found
  exact ⟨saved, fresh, _, read_pausedSource, wellNamed_pausedProgram, played, complete, free, all,
    fits, errors, started,
    played.equippedAlike wellNamed_pausedProgram targeted (.start started) config alike, run, texts,
    textsToo⟩

end Story

end InkStory
