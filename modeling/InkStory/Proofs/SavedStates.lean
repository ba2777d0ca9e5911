import InkStory.Proofs.Restoring
import InkStory.Proofs.Tallies

/-! # States restored from their saves

A sound state whose numbers can be stored is loaded back from the text of its save, into whatever
state the story is in then (`State.load_render`). -/

namespace InkStory

open List

variable {saveDefaults : Bool} {saved start loaded : State} {thread : Thread}

variable {program : Program}

/-! ### Counts -/

theorem Program.WellNamed.distinctPaths (wellNamed : program.WellNamed) : program.DistinctPaths :=
  fun _ _ has otherHas same => program.eq_of_containerPath_text wellNamed has otherHas same

section Counts

variable {counts : Table Address α}

theorem patched_none :
    program.addresses.filterMap (fun address =>
      ((none : Option (Table Address α)).bind fun patch => patch.get? address).map fun count =>
        (address, count)) = [] := by
  simp

theorem entries_countsByPath (wellNamed : program.WellNamed) (sound : program.Counts counts) :
    (State.countsByPath program counts none).entries =
      counts.entries.map fun (address, count) => ((program.containerPath address).text, count) := by
  rw [State.countsByPath, patched_none]
  exact sound.entries_byPath wellNamed.distinctPaths

/-- Counts are restored from the paths of their containers. -/
theorem restoreCounts_save (wellNamed : program.WellNamed) (sound : program.Counts counts) :
    restoreCounts program (State.countsByPath program counts none).entries = counts := by
  have restored : ∀ entry ∈ counts.entries,
      (program.followPath [] (Path.parse (program.containerPath entry.1).text)).exactContainer? =
        some entry.1 := by
    intro entry member
    have has := sound entry.1 (mem_map_of_mem member)
    have leads : program.followPath [] (program.containerPath entry.1) = ⟨.container entry.1, false⟩ :=
      program.followAll_componentsOf wellNamed has
    rw [Path.parse_text (program.canonical_containerPath wellNamed has), leads]
    rfl
  rw [restoreCounts, entries_countsByPath wellNamed sound, filterMap_map]
  have same : counts.entries.filterMap ((fun (path, count) =>
      (program.followPath [] (Path.parse path)).exactContainer?.map fun address => (address, count)) ∘
      fun (address, count) => ((program.containerPath address).text, count)) = counts.entries := by
    refine (filterMap_congr fun entry member => ?_).trans filterMap_some
    simp [restored entry member]
  rw [same, Table.ofList_entries]

/-- What is counted is a count of the state or of its patch. -/
theorem mem_countsByPath {patch : Option (Table Address α)} {named : String × α}
    (member : named ∈ (State.countsByPath program counts patch).entries) :
    named.2 ∈ counts.values ∨ ∃ table ∈ patch, named.2 ∈ table.values := by
  obtain ⟨entry, listed, rfl⟩ := mem_map.mp (Table.mem_of_mem_ofList member)
  rcases Table.mem_entries_insertAll listed with own | patched
  · exact .inl (mem_map_of_mem own)
  · obtain ⟨address, -, found⟩ := mem_filterMap.mp patched
    obtain ⟨count, there, rfl⟩ := Option.map_eq_some_iff.mp found
    obtain ⟨table, some_, got⟩ := Option.bind_eq_some_iff.mp there
    exact .inr ⟨table, some_, mem_map.mpr ⟨_, Table.get?_eq_some_iff.mp got, rfl⟩⟩

end Counts

/-! ### Globals -/

namespace Globals

variable {globals : Globals} {patch : Option Patch}

/-- Every global that is saved is saved with the value it has. -/
theorem mem_toSave {name : String} {value : Value}
    (member : (name, value) ∈ globals.toSave saveDefaults patch) :
    value ∈ globals.values.values ∨ ∃ table ∈ patch, value ∈ table.globals.values := by
  obtain ⟨listed, -⟩ := mem_filter.mp member
  obtain ⟨entry, there, same⟩ := mem_map.mp listed
  obtain ⟨rfl, rfl⟩ := Prod.mk.inj same
  cases patched : patch.bind fun patch => patch.globals.get? entry.1 with
  | none => exact .inl (mem_map_of_mem there)
  | some value =>
    obtain ⟨table, some_, got⟩ := Option.bind_eq_some_iff.mp patched
    exact .inr ⟨table, some_, mem_map.mpr ⟨_, Table.get?_eq_some_iff.mp got, rfl⟩⟩

theorem distinct_toSave : ((globals.toSave saveDefaults patch).map Prod.fst).Nodup := by
  refine Nodup.sublist (filter_sublist.map Prod.fst) ?_
  rw [map_map]
  exact globals.values.distinct

end Globals

/-! ### States -/

namespace State

/-- A state whose numbers can be stored. -/
structure Fits (state : State) : Prop where
  counter : state.callStack.counter < 2 ^ 64
  threads : ∀ thread ∈ state.callStack.threads, thread.Fits
  choices : ∀ choice ∈ state.choices, choice.index < 2 ^ 64 ∧ choice.thread.Fits
  diverted : ∀ pointer ∈ state.diverted, ∀ position ∈ pointer.index, position < 2 ^ 64
  evaluation : ∀ content ∈ state.evaluation, content.Fits
  output : ∀ content ∈ state.output.stream, content.Fits
  globals : ∀ value ∈ state.globals.values.values, value.Fits
  visits : ∀ count ∈ state.visits.values, count < 2 ^ 32
  patchGlobals : ∀ patch ∈ state.patch, ∀ value ∈ patch.globals.values, value.Fits
  patchVisits : ∀ patch ∈ state.patch, ∀ count ∈ patch.visits.values, count < 2 ^ 32

variable {state : State} {contents : List Content}

theorem Fits.toSave (fits : state.Fits) :
    ∀ entry ∈ state.globals.toSave saveDefaults state.patch, entry.2.Fits := by
  intro entry member
  rcases Globals.mem_toSave member with own | ⟨patch, patched, there⟩
  · exact fits.globals entry.2 own
  · exact fits.patchGlobals patch patched entry.2 there

theorem allSound_writeContents (plain : ∀ content ∈ contents, content.isPlain)
    (fits : ∀ content ∈ contents, content.Fits) :
    Save.AllSound (writeContents program contents) := by
  intro depth json member
  obtain ⟨content, listed, rfl⟩ := mem_map.mp member
  exact Content.sound_write (plain content listed) (fits content listed)

theorem storable_save (apart : state.Apart) (plain : state.Plain) (fits : state.Fits) :
    (state.save program saveDefaults).Storable where
  threads := forall_mem_map.mpr fun thread member => Thread.storable_save (fits.threads thread member)
  threadCounter := fits.counter
  output := allSound_writeContents
    (fun content member => plain.output content (mem_reverse.mp member))
    (fun content member => fits.output content (mem_reverse.mp member))
  choices := forall_mem_map.mpr fun choice offered =>
    ⟨(fits.choices choice offered).1, (fits.choices choice offered).2.1⟩
  choiceNames := (state.choiceThreads program).distinct
  choiceThreads named member := by
    change named ∈ (state.choiceThreads program).entries at member
    rw [entries_choiceThreads apart] at member
    obtain ⟨choice, offered, rfl⟩ := mem_map.mp member
    exact Thread.storable_save (fits.choices choice offered).2
  globalNames := by
    change ((map _ _).map Prod.fst).Nodup
    rw [map_map]
    exact Globals.distinct_toSave
  globals depth json member := by
    obtain ⟨named, listed, rfl⟩ := mem_map.mp member
    obtain ⟨entry, saved, rfl⟩ := mem_map.mp listed
    exact Value.sound_write (fits.toSave entry saved)
  evaluation := allSound_writeContents
    (fun content member => plain.evaluation content (mem_reverse.mp member))
    (fun content member => fits.evaluation content (mem_reverse.mp member))
  visitNames := (countsByPath program state.visits _).distinct
  visits counted member := by
    rcases mem_countsByPath member with own | ⟨table, patched, there⟩
    · exact fits.visits _ own
    · obtain ⟨patch, some_, rfl⟩ := Option.map_eq_some_iff.mp patched
      exact fits.patchVisits patch some_ _ there
  turnNames := (countsByPath program state.turns _).distinct
  version := show Save.currentVersion < 2 ^ 32 by decide
  storyVersion := show currentVersion < 2 ^ 32 by decide

theorem parse_save (apart : state.Apart) (plain : state.Plain) (fits : state.Fits) :
    Save.parse (state.save program saveDefaults).write.render =
      .ok (state.save program saveDefaults).reread :=
  Save.parse_render (storable_save apart plain fits)
    (show Save.oldestVersion ≤ Save.currentVersion by decide)

/-- The globals of a save as they are restored. -/
def savedGlobals (state : State) (saveDefaults : Bool) : Table String Value :=
  Table.ofList <| (state.globals.toSave saveDefaults state.patch).map fun entry =>
    (entry.1, entry.2.stored)

theorem restoreAll_globals (fits : state.Fits) :
    Value.restoreAll (state.save program saveDefaults).reread.globals =
      .ok (state.savedGlobals saveDefaults) :=
  Value.restoreAll_write fits.toSave

theorem restorePath_diverted (wellNamed : program.WellNamed) (sound : SoundFlow program state)
    (fits : state.Fits) :
    ∃ restored, restorePath program (state.diverted.map fun pointer =>
        (program.pointerPath pointer).text) = .ok restored ∧
      program.PointsIf restored ∧
      restored.bind program.resolve? = state.diverted.bind program.resolve? ∧
      (state.diverted = none → restored = none) := by
  cases diverted : state.diverted with
  | none => exact ⟨none, rfl, nofun, rfl, id⟩
  | some pointer =>
    obtain ⟨restored, path, points, same⟩ :=
      program.restorePath_pointerPath wellNamed (sound.diverted pointer diverted)
        (fits.diverted pointer diverted)
    refine ⟨some restored, path, fun target equal => ?_, same, nofun⟩
    cases equal
    exact points

/-- Where a saved state stood is where its save leads. -/
theorem restoreFlow_save (wellNamed : program.WellNamed) (sound : SoundFlow program state)
    (fits : state.Fits) (saveDefaults : Bool) :
    ∃ flow, (state.save program saveDefaults).reread.restoreFlow program = .ok flow ∧
      state.callStack.Restored program flow.callStack ∧
      Forall₂ (Choice.Restored program) state.choices flow.choices ∧
      (∀ thread ∈ flow.callStack.live, thread.Anchored program) ∧
      (∀ choice ∈ flow.choices, choice.thread.Anchored program) ∧
      flow.globals = state.savedGlobals saveDefaults ∧
      program.PointsIf flow.diverted ∧
      flow.diverted.bind program.resolve? = state.diverted.bind program.resolve? ∧
      (state.diverted = none → flow.diverted = none) ∧
      flow.warnings = [] := by
  obtain ⟨threads, stack, readThreads, running, noWarnings, sameStack, live⟩ :=
    CallStack.restore_save wellNamed sound.stack fits.threads
  obtain ⟨choices, readChoices, sameChoices, offered, noOthers⟩ :=
    restore_choices wellNamed sound (fun choice offered => (fits.choices choice offered).2) sameStack
  obtain ⟨diverted, path, points, sameDiverted, straight⟩ :=
    restorePath_diverted wellNamed sound fits
  have globals : Value.restoreAll (state.save program saveDefaults).reread.globals = _ :=
    restoreAll_globals fits
  have savedThreads : (state.save program saveDefaults).reread.threads =
      state.callStack.threads.map fun thread => (thread.save program).reread := by
    simp [save, Save.reread]
  refine ⟨⟨stack, choices.map Prod.fst, state.savedGlobals saveDefaults, diverted, []⟩, ?_, sameStack,
    sameChoices, live, offered, rfl, points, sameDiverted, straight, rfl⟩
  have running : CallStack.ofThreads? (threads.map Prod.fst)
      (state.save program saveDefaults).reread.threadCounter = some stack := running
  have readChoices : (state.save program saveDefaults).reread.choices.mapM
      (SavedChoice.restore program stack (state.save program saveDefaults).reread.choiceThreads) =
      .ok choices := readChoices
  have path : restorePath program (state.save program saveDefaults).reread.diverted = .ok diverted :=
    path
  rw [Save.restoreFlow, savedThreads, readThreads]
  simp only [running, readChoices, globals, path, bind, Except.bind, noWarnings, noOthers]
  rfl

theorem restore_contents (plain : ∀ content ∈ contents, content.isPlain)
    (fits : ∀ content ∈ contents, content.Fits) :
    ((writeContents program contents).map Json.reread).mapM Content.restore =
      .ok (contents.map Content.stored) := by
  rw [writeContents, map_map]
  exact Content.mapM_ok fun content member =>
    Content.restore_write (plain content member) (fits content member)

/-- What a load makes of a state: one with the objects and the counts of another as they are stored,
where the flow stands that its save was found to hold. -/
def reloaded (program origin : Program) (saveDefaults : Bool) (saved : State) (flow : SavedFlow)
    (start : State) : State :=
  takeCounts program (saved.save origin saveDefaults).reread flow
    { start.takeFlow flow with
      evaluation := saved.evaluation.map Content.stored
      output := Output.ofStream (saved.output.stream.map Content.stored) }

section Loads

variable {origin : Program} (apart : saved.Apart) (plain : saved.Plain) (fits : saved.Fits)
  (start : State)

include apart plain fits

/-- A save fails to be loaded only where it does not say where the story stands. -/
theorem load_of_lost {error : Error}
    (lost : (saved.save origin saveDefaults).reread.restoreFlow program = .error error) :
    Run.load program (saved.save origin saveDefaults).write.render start = .error error start := by
  rw [Run.load_apply, Save.open, parse_save apart plain fits]
  simp only [bind, Except.bind, lost]

theorem load_of_flow {flow : SavedFlow}
    (found : (saved.save origin saveDefaults).reread.restoreFlow program = .ok flow) :
    Run.load program (saved.save origin saveDefaults).write.render start =
      .ok () (reloaded program origin saveDefaults saved flow start) := by
  have evaluation : (saved.save origin saveDefaults).reread.evaluation.mapM Content.restore =
      .ok (saved.evaluation.reverse.map Content.stored) :=
    restore_contents (fun content member => plain.evaluation content (mem_reverse.mp member))
      (fun content member => fits.evaluation content (mem_reverse.mp member))
  have output : (saved.save origin saveDefaults).reread.output.mapM Content.restore =
      .ok (saved.output.stream.reverse.map Content.stored) :=
    restore_contents (fun content member => plain.output content (mem_reverse.mp member))
      (fun content member => fits.output content (mem_reverse.mp member))
  have opened : Save.open program (saved.save origin saveDefaults).write.render =
      .ok ((saved.save origin saveDefaults).reread, flow) := by
    rw [Save.open, parse_save apart plain fits]
    simp only [bind, Except.bind, found]
    rfl
  simp only [Run.load, opened, Run.takeOver, evaluation, output, bind_apply, ofExcept_ok,
    modify_apply, reloaded, Output.ofList, map_reverse, reverse_reverse]

end Loads

/-- What a loaded state takes from a saved one, and what it keeps of the state that the story was
in. -/
structure Resumed (program : Program) (saveDefaults : Bool) (saved start loaded : State) : Prop where
  stack : saved.callStack.Restored program loaded.callStack
  choices : Forall₂ (Choice.Restored program) saved.choices loaded.choices
  live : ∀ thread ∈ loaded.callStack.live, thread.Anchored program
  offered : ∀ choice ∈ loaded.choices, choice.thread.Anchored program
  evaluation : loaded.evaluation = saved.evaluation.map Content.stored
  output : loaded.output = Output.ofStream (saved.output.stream.map Content.stored)
  globals : loaded.globals = start.globals.load (saved.savedGlobals saveDefaults)
  points : program.PointsIf loaded.diverted
  diverted : loaded.diverted.bind program.resolve? = saved.diverted.bind program.resolve?
  straight : saved.diverted = none → loaded.diverted = none
  visits : loaded.visits =
    restoreCounts program (countsByPath program saved.visits (saved.patch.map Patch.visits)).entries
  turns : loaded.turns =
    restoreCounts program (countsByPath program saved.turns (saved.patch.map Patch.turns)).entries
  turn : loaded.turn = saved.turn
  seed : loaded.seed = saved.seed
  previousDraw : loaded.previousDraw = saved.previousDraw
  patch : loaded.patch = none
  errors : loaded.errors = start.errors
  warnings : loaded.warnings = start.warnings

section Counts

/-- Where all writes were made, visits are loaded as they were. -/
theorem Resumed.visits_eq (resumed : Resumed program saveDefaults saved start loaded)
    (wellNamed : program.WellNamed) (sound : Sound program saved)
    (unpatched : saved.patch = none) : loaded.visits = saved.visits := by
  have visits := resumed.visits
  rw [unpatched] at visits
  exact visits.trans (restoreCounts_save wellNamed sound.counts.visits)

theorem Resumed.turns_eq (resumed : Resumed program saveDefaults saved start loaded)
    (wellNamed : program.WellNamed) (sound : Sound program saved)
    (unpatched : saved.patch = none) : loaded.turns = saved.turns := by
  have turns := resumed.turns
  rw [unpatched] at turns
  exact turns.trans (restoreCounts_save wellNamed sound.counts.turns)

end Counts

/-- A state is loaded from the text of its save. -/
theorem load_render (wellNamed : program.WellNamed) (sound : Sound program state) (fits : state.Fits)
    (start : State) :
    ∃ loaded, Run.load program (state.save program saveDefaults).write.render start = .ok () loaded ∧
      Resumed program saveDefaults state start loaded := by
  obtain ⟨flow, found, stack, choices, live, offered, globals, points, diverted, straight,
    noWarnings⟩ := restoreFlow_save wellNamed sound.flow fits saveDefaults
  refine ⟨_, load_of_flow sound.flow.apart ⟨sound.evaluation, sound.output⟩ fits start found, ?_⟩
  simp only [reloaded, takeCounts, noWarnings]
  exact
    { stack := stack
      choices := choices
      live := live
      offered := offered
      evaluation := rfl
      output := rfl
      globals := congrArg start.globals.load globals
      points := points
      diverted := diverted
      straight := straight
      visits := rfl
      turns := rfl
      turn := rfl
      seed := rfl
      previousDraw := rfl
      patch := rfl
      errors := rfl
      warnings := rfl }

end State

/-! ### What is loaded can be saved again -/

theorem Thread.Restored.sound {restored : Thread} (same : thread.Restored program restored)
    (sound : thread.Sound program) : restored.Sound program where
  frames := by
    rw [same.frames]
    exact forall_mem_map.mpr sound.frames
  previous := same.points

theorem CallStack.Restored.exists_live {stack restored : CallStack}
    (same : stack.Restored program restored) (member : thread ∈ restored.live) :
    ∃ former ∈ stack.live, former.Restored program thread := by
  obtain ⟨former, there, related⟩ := exists_of_forall₂ same.threads (CallStack.mem_threads.mpr member)
  exact ⟨former, CallStack.mem_threads.mp there, related⟩

theorem Choice.indices_eq {choices restored : List Choice}
    (same : Forall₂ (Choice.Restored program) choices restored) :
    (restored.map fun choice => choice.thread.index) = choices.map fun choice => choice.thread.index := by
  induction same with
  | nil => rfl
  | cons here _ ih => rw [map_cons, map_cons, here.thread.index, ih]

theorem Content.isPlain_stored {content : Content} (plain : content.isPlain) :
    content.stored.isPlain := by
  cases content with
  | value held => exact Run.isPlain_ofValue _
  | _ => exact plain

namespace State

theorem Resumed.flow (resumed : Resumed program saveDefaults saved start loaded)
    (sound : SoundFlow program saved) : SoundFlow program loaded where
  stack thread member := by
    obtain ⟨former, there, same⟩ := resumed.stack.exists_live member
    obtain ⟨former, numbered⟩ := sound.stack former there
    rw [same.index, resumed.stack.counter]
    exact ⟨same.sound former, numbered⟩
  choices choice offered := by
    obtain ⟨former, there, same⟩ := exists_of_forall₂ resumed.choices offered
    obtain ⟨thread, numbered, apart, target⟩ := sound.choices former there
    refine ⟨same.thread.sound thread, ?_, fun running member => ?_, ?_⟩
    · rw [same.thread.index, resumed.stack.counter]
      exact numbered
    · obtain ⟨waiting, live, related⟩ := resumed.stack.exists_live member
      rw [related.index, same.thread.index]
      exact apart waiting live
    · rw [same.target]
      exact target
  distinct := by
    rw [Choice.indices_eq resumed.choices]
    exact sound.distinct
  diverted := resumed.points

/-- A state that was loaded from the save of a sound one is sound. -/
theorem Resumed.sound (resumed : Resumed program saveDefaults saved start loaded)
    (sound : Sound program saved) : Sound program loaded where
  flow := resumed.flow sound.flow
  evaluation := by
    rw [resumed.evaluation]
    exact forall_mem_map.mpr fun content member =>
      Content.isPlain_stored (sound.evaluation content member)
  output := by
    rw [resumed.output]
    exact forall_mem_map.mpr fun content member =>
      Content.isPlain_stored (sound.output content member)
  counts := by
    refine ⟨?_, ?_, ?_, ?_⟩
    · rw [resumed.visits]
      exact counts_restoreCounts program _
    · rw [resumed.turns]
      exact counts_restoreCounts program _
    all_goals
      rw [resumed.patch]
      exact nofun

end State

end InkStory
