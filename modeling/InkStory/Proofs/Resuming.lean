import InkStory.Proofs.Notifications
import InkStory.Proofs.ReadContents
import InkStory.Proofs.SoundStories

/-! # Stories that resume from their saves

Between lines, and while the host is not saving, the text of a story's save leads a story that
begins to where the first one stands (`Story.resumes`). Only values change, to what their JSON form
can hold, and globals that have their declared value are left out unless the host wants them. -/

namespace InkStory

open Play Program

variable {globals : Globals} {saveDefaults : Bool} {name : String} {value default : Value}
  {program : Program} {loaded : State}

/-! ### Globals -/

/-- A save leaves out a global that has its declared value. -/
def Globals.leavesOut (globals : Globals) (saveDefaults : Bool) (name : String) (value : Value) :
    Bool :=
  !saveDefaults && (globals.default? name).any fun default => default.same value

theorem Globals.mem_toSave_iff :
    (name, value) ∈ globals.toSave saveDefaults none ↔
      globals.values.get? name = some value ∧ globals.leavesOut saveDefaults name value = false := by
  rw [toSave, Table.get?_eq_some_iff]
  unfold leavesOut
  cases saveDefaults <;> cases declared : globals.default? name <;> simp [declared]

/-- What is read back of a global: nothing if the save leaves it out. -/
theorem State.get?_savedGlobals {state : State} (unpatched : state.patch = none)
    (saveDefaults : Bool) (name : String) :
    (state.savedGlobals saveDefaults).get? name =
      ((state.globals.values.get? name).filter fun value =>
        !state.globals.leavesOut saveDefaults name value).map Value.stored := by
  have entries : (state.savedGlobals saveDefaults).entries =
      (state.globals.toSave saveDefaults state.patch).map fun entry =>
        (entry.1, entry.2.stored) := by
    apply Table.entries_ofList
    rw [List.map_map]
    exact Globals.distinct_toSave
  apply Option.ext
  intro stored
  rw [Option.map_eq_some_iff, Table.get?_eq_some_iff, entries, unpatched, List.mem_map]
  constructor
  · rintro ⟨⟨named, value⟩, member, same⟩
    obtain ⟨rfl, rfl⟩ := Prod.mk.inj same
    obtain ⟨there, kept⟩ := Globals.mem_toSave_iff.mp member
    exact ⟨value, by simp [there, kept], rfl⟩
  · rintro ⟨value, found, rfl⟩
    obtain ⟨there, kept⟩ := Option.filter_eq_some_iff.mp found
    exact ⟨(name, value), Globals.mem_toSave_iff.mpr ⟨there, by simpa using kept⟩, rfl⟩

/-- A declared global that is not saved has its declared value. -/
theorem Globals.get?_load {saved : Table String Value}
    (declared : globals.default? name = some default) :
    (globals.load saved).values.get? name = some ((saved.get? name).getD default) := by
  obtain ⟨defaults, there, found⟩ := Option.bind_eq_some_iff.mp declared
  simp only [load, there, Table.get?_mapWithKey, found, Option.map_some]

namespace State

variable {saved start : State}

/-- A global that the save leaves out has the value that is declared where it is loaded. -/
theorem Resumed.get?_global (resumed : Resumed program saveDefaults saved start loaded)
    (unpatched : saved.patch = none) (has : saved.globals.values.get? name = some value)
    (declared : start.globals.default? name = some default) :
    loaded.globals.values.get? name =
      some (if saved.globals.leavesOut saveDefaults name value then default else value.stored) := by
  rw [resumed.globals, Globals.get?_load declared, get?_savedGlobals unpatched, has,
    Option.filter_some]
  cases saved.globals.leavesOut saveDefaults name value <;> rfl

instance : DecidablePred Fits := fun state =>
  decidable_of_iff
    (state.callStack.counter < 2 ^ 64 ∧ (∀ thread ∈ state.callStack.threads, thread.Fits) ∧
      (∀ choice ∈ state.choices, choice.index < 2 ^ 64 ∧ choice.thread.Fits) ∧
      (∀ pointer ∈ state.diverted, ∀ position ∈ pointer.index, position < 2 ^ 64) ∧
      (∀ content ∈ state.evaluation, content.Fits) ∧
      (∀ content ∈ state.output.stream, content.Fits) ∧
      (∀ value ∈ state.globals.values.values, value.Fits) ∧
      (∀ count ∈ state.visits.values, count < 2 ^ 32) ∧
      (∀ patch ∈ state.patch, ∀ value ∈ patch.globals.values, value.Fits) ∧
      ∀ patch ∈ state.patch, ∀ count ∈ patch.visits.values, count < 2 ^ 32)
    ⟨fun ⟨counter, threads, choices, diverted, evaluation, output, globals, visits, patchGlobals,
        patchVisits⟩ =>
      { counter, threads, choices, diverted, evaluation, output, globals, visits, patchGlobals,
        patchVisits },
    fun fits => ⟨fits.counter, fits.threads, fits.choices, fits.diverted, fits.evaluation,
      fits.output, fits.globals, fits.visits, fits.patchGlobals, fits.patchVisits⟩⟩

end State

/-! ### The story goes on -/

namespace Story

/-- A story stands where another does, with its values as they are stored and the reports of a
third. -/
structure StandsAs (saved fresh loaded : Story) : Prop where
  threads : List.Forall₂ (Thread.Restored saved.program) saved.state.callStack.threads
    loaded.state.callStack.threads
  counter : loaded.state.callStack.counter = saved.state.callStack.counter
  choices : List.Forall₂ (Choice.Restored saved.program) saved.state.choices loaded.state.choices
  evaluation : loaded.state.evaluation = saved.state.evaluation.map Content.stored
  output : loaded.state.output.stream = saved.state.output.stream.map Content.stored
  visits : loaded.state.visits = saved.state.visits
  turns : loaded.state.turns = saved.state.turns
  turn : loaded.state.turn = saved.state.turn
  seed : loaded.state.seed = saved.state.seed
  previousDraw : loaded.state.previousDraw = saved.state.previousDraw
  diverted : loaded.state.diverted.bind saved.program.resolve? =
    saved.state.diverted.bind saved.program.resolve?
  /-- A declared global that the save leaves out has the value that the third story declares. -/
  globals : ∀ name value default, saved.state.globals.values.get? name = some value →
    fresh.state.globals.default? name = some default →
    loaded.state.globals.values.get? name = some
      (if saved.state.globals.leavesOut saved.config.saveDefaults name value then default
        else value.stored)
  errors : loaded.state.errors = fresh.state.errors
  warnings : loaded.state.warnings = fresh.state.warnings

variable {saved fresh : Story} {config : Config} {source : String} {operations : List Operation}

/-- Between lines, and while the host is not saving, all writes have been made. -/
theorem Played.unpatched (played : Played program saved) (wellNamed : program.WellNamed)
    (targeted : program.Targeted) (complete : saved.inLine = false)
    (free : saved.isSaving = false) : saved.state.patch = none :=
  have reachable := played.reachable wellNamed targeted
  reachable.kept.unpatched free (reachable.idle complete).settled

/-- A state that was loaded from a save with all writes made stands as the saved one. -/
theorem standsAs_of_resumed (wellNamed : saved.program.WellNamed)
    (sound : State.Sound saved.program saved.state) (unpatched : saved.state.patch = none)
    (resumed : State.Resumed saved.program saved.config.saveDefaults saved.state fresh.state loaded) :
    saved.StandsAs fresh { fresh with state := loaded, snapshot := none } where
  threads := resumed.stack.threads
  counter := resumed.stack.counter
  choices := resumed.choices
  evaluation := resumed.evaluation
  output := congrArg Output.stream resumed.output
  visits := resumed.visits_eq wellNamed sound unpatched
  turns := resumed.turns_eq wellNamed sound unpatched
  turn := resumed.turn
  seed := resumed.seed
  previousDraw := resumed.previousDraw
  diverted := resumed.diverted
  globals := fun _ _ _ has declared => resumed.get?_global unpatched has declared
  errors := resumed.errors
  warnings := resumed.warnings

/-- The save of a state of a story that was played, with all writes made, is loaded into one that
begins. -/
theorem Played.load_start (played : Played program saved)
    (wellNamed : program.WellNamed) (targeted : program.Targeted) (fits : saved.state.Fits)
    (started : Story.start program config = .ok fresh) (saveDefaults : Bool) :
    ∃ loaded, Play.load (saved.state.save program saveDefaults).write.render fresh =
        .ok () { fresh with state := loaded, snapshot := none } ∧
      State.Resumed program saveDefaults saved.state fresh.state loaded :=
  load_render wellNamed ((Played.start started).sound wellNamed targeted).here
    (played.sound wellNamed targeted).state fits (inLine_start started)

/-- Between lines, and while the host is not saving, the text of the save of a story is loaded into
a story that begins, which then stands where the first does, without any warning. -/
theorem resumes (read : Program.read source = .ok program) (wellNamed : program.WellNamed)
    (played : Played program saved) (complete : saved.inLine = false)
    (free : saved.isSaving = false) (fits : saved.state.Fits)
    (started : Story.start program config = .ok fresh) :
    ∃ loaded, Play.load saved.save.write.render fresh = .ok () loaded ∧
      saved.StandsAs fresh loaded := by
  have targeted := targeted_of_read read
  have unpatched := played.unpatched wellNamed targeted complete free
  obtain ⟨loaded, run, resumed⟩ :=
    played.load_start wellNamed targeted fits started saved.config.saveDefaults
  obtain ⟨rfl, sound, -⟩ := played.sound wellNamed targeted
  exact ⟨_, run, standsAs_of_resumed wellNamed sound unpatched resumed⟩

/-! ### Stories to try -/

theorem Played.performAll {story after : Story} (played : Played program story)
    (own : ∀ text, .load text ∉ operations)
    (done : Operation.performAll operations story = .ok () after) : Played program after := by
  refine Operation.performAll_invariant (fun operation listed before next run played => ?_) done
    played
  have further : Played program (operation.after before) := by
    refine .after played operation (fun text same => own text (same ▸ listed)) fun left => ?_
    rw [run]
    exact nofun
  rwa [Operation.after, run] at further

/-- A story with a line, and a choice that leads to the mood of the player. -/
@[irreducible]
def moodSource : String :=
  "\x7b\"inkVersion\":21,\"root\":[\"^Hello\",\"\\n\",\"ev\",\"str\",\"^Go\",\"/str\",\"/ev\"," ++
    "\x7b\"*\":\"go\",\"flg\":4\x7d,\"done\",\x7b\"go\":[\"ev\",\x7b\"VAR?\":\"mood\"\x7d,\"out\",\"/ev\"," ++
    "\"\\n\",\"done\",null],\"global decl\":[\"ev\",\x7b\"list\":\x7b\"moods.calm\":1," ++
    "\"moods.merry\":2\x7d\x7d,\x7b\"VAR=\":\"mood\"\x7d,\"/ev\",\"end\",null]\x7d]\x7d"

@[irreducible]
def moodProgram : Program where
  root :=
    .mk none {}
      [.content (.ofText "Hello"), .content (.ofText "\n"),
        .content (.command .beginEvaluation), .content (.command .beginString),
        .content (.ofText "Go"), .content (.command .endString),
        .content (.command .endEvaluation),
        .content (.choicePoint { target := Path.parse "go", hasChoiceOnlyContent := true }),
        .content (.command .done)]
      [("go",
        .mk (some "go") {}
          [.content (.command .beginEvaluation), .content (.variable "mood"),
            .content (.command .outputValue), .content (.command .endEvaluation),
            .content (.ofText "\n"), .content (.command .done)] []),
        (declarationName,
        .mk (some declarationName) {}
          [.content (.command .beginEvaluation),
            .content (.value (.list (.ofList [(.parse "moods.calm", 1), (.parse "moods.merry", 2)]))),
            .content (.assignment ⟨"mood", true, true⟩), .content (.command .endEvaluation),
            .content (.command .finish)] [])]

set_option maxRecDepth 100000 in
theorem read_moodSource : Program.read moodSource = .ok moodProgram := by cbv

theorem wellNamed_moodProgram : moodProgram.WellNamed :=
  wellNamed_of_isWellNamed (by decide +kernel)

/-- The number above all others. -/
def endless : Value := .float (Single.ofParts (.infinite false))

theorem resumes_with_choice :
    ∃ saved fresh loaded, Played moodProgram saved ∧ saved.state.choices.length = 1 ∧
      saved.state.globals.values.get? "mood" = some (.string "fine") ∧
      Story.start moodProgram {} = .ok fresh ∧
      load saved.save.write.render fresh = .ok () loaded ∧ saved.StandsAs fresh loaded := by
  obtain ⟨fresh, started, saved, done, complete, free, fits, choices, mood⟩ :
      ∃ fresh, start moodProgram {} = .ok fresh ∧
        ∃ saved, Operation.performAll [.setGlobal "mood" (.string "fine"), .nextLine] fresh =
            .ok () saved ∧ saved.inLine = false ∧ saved.isSaving = false ∧ saved.state.Fits ∧
          saved.state.choices.length = 1 ∧
          saved.state.globals.values.get? "mood" = some (.string "fine") := by
    decide +kernel
  have played := (Played.start started).performAll (by simp) done
  obtain ⟨loaded, run, stands⟩ :=
    resumes read_moodSource wellNamed_moodProgram played complete free fits started
  exact ⟨saved, fresh, loaded, played, choices, mood, started, run, stands⟩

/-- A number that is not finite is not read back. -/
theorem resumes_with_other_mood :
    ∃ saved fresh loaded, Played moodProgram saved ∧ saved.inLine = false ∧
      saved.isSaving = false ∧ Story.start moodProgram {} = .ok fresh ∧
      load saved.save.write.render fresh = .ok () loaded ∧
      saved.state.globals.values.get? "mood" = some endless ∧
      loaded.state.globals.values.get? "mood" ≠ some endless := by
  obtain ⟨fresh, started, saved, done, complete, free, fits, mood, declared, kept⟩ :
      ∃ fresh, start moodProgram {} = .ok fresh ∧
        ∃ saved, Operation.performAll [.setGlobal "mood" endless] fresh = .ok () saved ∧
          saved.inLine = false ∧ saved.isSaving = false ∧ saved.state.Fits ∧
          saved.state.globals.values.get? "mood" = some endless ∧
          (fresh.state.globals.default? "mood").isSome ∧
          saved.state.globals.leavesOut saved.config.saveDefaults "mood" endless = false := by
    decide +kernel
  have played := (Played.start started).performAll (by simp) done
  obtain ⟨default, declared⟩ := Option.isSome_iff_exists.mp declared
  have targeted := targeted_of_read read_moodSource
  have unpatched := played.unpatched wellNamed_moodProgram targeted complete free
  obtain ⟨loaded, run, resumed⟩ :=
    played.load_start wellNamed_moodProgram targeted fits started saved.config.saveDefaults
  have loads := resumed.get?_global unpatched mood declared
  rw [kept, if_neg Bool.false_ne_true] at loads
  rw [← (played.sound wellNamed_moodProgram targeted).here] at run
  refine ⟨saved, fresh, _, played, complete, free, started, run, mood, ?_⟩
  rw [loads]
  decide +kernel

/-! ### Globals that are left out -/

/-- Of a state with all writes made, the save without globals that have their declared values is
loaded as the one with all of them, but for globals that are the same to a story as their declared
values: these are loaded as declared. -/
theorem loads_without_defaults (read : Program.read source = .ok program)
    (wellNamed : program.WellNamed) (played : Played program saved)
    (unpatched : saved.state.patch = none) (fits : saved.state.Fits)
    (started : Story.start program config = .ok fresh) :
    ∃ full sparse,
      load (saved.state.save program true).write.render fresh = .ok () full ∧
      load (saved.state.save program false).write.render fresh = .ok () sparse ∧
      ∀ name value default declared, saved.state.globals.values.get? name = some value →
        saved.state.globals.default? name = some default →
        fresh.state.globals.default? name = some declared →
        full.state.globals.values.get? name = some value.stored ∧
        sparse.state.globals.values.get? name =
          some (if default.same value then declared else value.stored) := by
  have targeted := targeted_of_read read
  obtain ⟨full, runFull, fullResumed⟩ :=
    played.load_start wellNamed targeted fits started true
  obtain ⟨sparse, runSparse, sparseResumed⟩ :=
    played.load_start wellNamed targeted fits started false
  refine ⟨_, _, runFull, runSparse, fun name value default declared has own there => ⟨?_, ?_⟩⟩
  · exact fullResumed.get?_global unpatched has there
  · have leaves : saved.state.globals.leavesOut false name value = default.same value := by
      rw [Globals.leavesOut, own]
      rfl
    have loads := sparseResumed.get?_global unpatched has there
    rwa [leaves] at loads

/-- The moods in the order of their names, and the other way round. -/
def moods : Value := .list (.ofList [(.parse "moods.calm", 1), (.parse "moods.merry", 2)])

def moodsReversed : Value := .list (.ofList [(.parse "moods.merry", 2), (.parse "moods.calm", 1)])

theorem loads_without_defaults_reversed :
    ∃ saved fresh full sparse, Played moodProgram saved ∧ saved.state.patch = none ∧
      Story.start moodProgram {} = .ok fresh ∧
      load (saved.state.save moodProgram true).write.render fresh = .ok () full ∧
      load (saved.state.save moodProgram false).write.render fresh = .ok () sparse ∧
      full.state.globals.values.get? "mood" = some moodsReversed ∧
      sparse.state.globals.values.get? "mood" = some moods := by
  obtain ⟨fresh, started, saved, done, unpatched, fits, mood, own, declared⟩ :
      ∃ fresh, start moodProgram {} = .ok fresh ∧
        ∃ saved, Operation.performAll [.setGlobal "mood" moodsReversed] fresh = .ok () saved ∧
          saved.state.patch = none ∧ saved.state.Fits ∧
          saved.state.globals.values.get? "mood" = some moodsReversed ∧
          saved.state.globals.default? "mood" = some moods ∧
          fresh.state.globals.default? "mood" = some moods := by
    decide +kernel
  have played := (Played.start started).performAll (by simp) done
  obtain ⟨full, sparse, runFull, runSparse, loads⟩ :=
    loads_without_defaults read_moodSource wellNamed_moodProgram played unpatched fits started
  obtain ⟨here, there⟩ := loads "mood" moodsReversed moods moods mood own declared
  refine ⟨saved, fresh, full, sparse, played, unpatched, started, runFull, runSparse, ?_, ?_⟩
  · rw [here]
    decide +kernel
  · rw [there]
    decide +kernel

/-- Items that come in another order than they are declared in do so only if all globals are
saved. -/
theorem order_lost_without_defaults :
    ∃ saved fresh full sparse, Played moodProgram saved ∧ saved.state.patch = none ∧
      Story.start moodProgram {} = .ok fresh ∧
      load (saved.state.save moodProgram true).write.render fresh = .ok () full ∧
      load (saved.state.save moodProgram false).write.render fresh = .ok () sparse ∧
      full.state.globals.values.get? "mood" ≠ sparse.state.globals.values.get? "mood" := by
  obtain ⟨fresh, started, saved, done, unpatched, fits, mood, leaves, declared⟩ :
      ∃ fresh, start moodProgram {} = .ok fresh ∧
        ∃ saved, Operation.performAll [.setGlobal "mood" moodsReversed] fresh = .ok () saved ∧
          saved.state.patch = none ∧ saved.state.Fits ∧
          saved.state.globals.values.get? "mood" = some moodsReversed ∧
          saved.state.globals.leavesOut false "mood" moodsReversed ∧
          fresh.state.globals.default? "mood" = some moods := by
    decide +kernel
  have played := (Played.start started).performAll (by simp) done
  have targeted := targeted_of_read read_moodSource
  obtain ⟨full, runFull, fullResumed⟩ :=
    played.load_start wellNamed_moodProgram targeted fits started true
  obtain ⟨sparse, runSparse, sparseResumed⟩ :=
    played.load_start wellNamed_moodProgram targeted fits started false
  refine ⟨saved, fresh, _, _, played, unpatched, started, runFull, runSparse, ?_⟩
  have kept : saved.state.globals.leavesOut true "mood" moodsReversed = false := rfl
  change full.globals.values.get? "mood" ≠ sparse.globals.values.get? "mood"
  rw [fullResumed.get?_global unpatched mood declared,
    sparseResumed.get?_global unpatched mood declared, leaves, kept]
  decide +kernel

end Story

end InkStory
