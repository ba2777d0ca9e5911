import InkStory.Proofs.MatchingPlays
import InkStory.Proofs.Tallies

/-! # What a host sees of stories that cannot be told apart

Stories that match look alike, have the same saves but for the order of their entries, and answer
every sequence of operations alike (`Story.Abreast.history`). -/

namespace InkStory

open List Operation

variable {mode : Comparison} {story : Story} {operations : List Operation}

variable {program : Program} {choice other : Choice}

/-- What a choice shows: all but the thread in which the story goes on. -/
def Choice.shown (choice : Choice) : Choice := { choice with thread := Thread.atStart }

/-- Stories that look alike to a host. -/
structure Story.LooksLike (story other : Story) : Prop where
  goesOn : story.canContinue = other.canContinue
  unfinished : story.inLine = other.inLine
  text : story.text = other.text
  tags : story.tags = other.tags
  choices : story.state.visibleChoices.map Choice.shown =
    other.state.visibleChoices.map Choice.shown
  errors : story.state.errors = other.state.errors
  globals : ∀ name, story.state.global? name = other.state.global? name
  visits : ∀ address, story.state.visitsOf address = other.state.visitsOf address
  turns : ∀ address, story.state.turnOf? address = other.state.turnOf? address
  turn : story.state.turn = other.state.turn
  seed : story.state.seed = other.state.seed
  path : story.state.path? story.program = other.state.path? other.program

theorem Choice.Matches.shown (same : Choice.Matches program choice other) :
    choice.shown = other.shown := by
  obtain ⟨text, source, target, isInvisible, tags, index, -⟩ := same
  simp only [Choice.shown, text, source, target, isInvisible, tags, index]

theorem Story.Matches.looksLike {other : Story} (same : Story.Matches mode story other) :
    story.LooksLike other where
  goesOn := same.state.canContinue
  unfinished := same.inLine
  text := same.state.output.text
  tags := same.state.output.tags
  choices := map_eq_of_forall₂ same.state.visibleChoices fun _ _ same => same.shown
  errors := same.state.errors
  globals := same.state.globals.get?
  visits address := congrArg (Option.getD · 0) (same.state.visited address)
  turns := same.state.turned
  turn := same.state.turn
  seed := same.state.seed
  path := by
    rw [State.path?, State.path?, same.state.pointer, same.program, same.otherProgram]

/-! ### Saves -/

/-- Saves that differ at most in the order of globals and counts. -/
structure Save.Alike (save other : Save) : Prop where
  globals : save.globals.Perm other.globals
  visits : save.visits.Perm other.visits
  turns : save.turns.Perm other.turns
  rest : { save with globals := [], visits := [], turns := [] } =
    { other with globals := [], visits := [], turns := [] }

theorem Frame.Matches.save {frame other : Frame} (same : frame.Matches other) (program : Program) :
    frame.save program = other.save program := by
  simp only [Frame.save, same.pointer, same.evaluating, same.kind, same.temporaries]

theorem Thread.Matches.save {thread other : Thread} (same : Thread.Matches program thread other) :
    thread.save program = other.save program := by
  unfold Thread.save
  rw [map_eq_of_forall₂ same.frames fun _ _ same => same.save program, same.index,
    same.previous.place]

theorem Choice.Matches.save (same : Choice.Matches program choice other) :
    choice.save = other.save := by
  simp only [Choice.save, same.text, same.source, same.target, same.isInvisible, same.tags,
    same.index, same.thread.index]

namespace Globals

/-- The globals to save in terms of the values that they were given. -/
theorem toSave_eq (globals : Globals) (saveDefaults : Bool) (patch : Option Patch) :
    globals.toSave saveDefaults patch =
      (globals.values.keys.map fun name =>
        (name, (globals.stored? patch name).getD .void)).filter fun (name, value) =>
          saveDefaults ||
            match globals.default? name with
            | some default => !default.same value
            | none => true := by
  unfold toSave Table.keys
  dsimp only
  rw [map_map]
  congr 1
  apply map_congr_left
  intro entry listed
  have there : globals.values.get? entry.1 = some entry.2 := Table.get?_eq_some_iff.mpr listed
  simp only [Function.comp_apply, stored?, there]
  cases patch.bind fun patch => patch.globals.get? entry.1 <;> rfl

theorem Matches.toSave {globals other : Globals} {patch otherPatch : Option Patch}
    (same : Matches mode globals patch other otherPatch) (saveDefaults : Bool) :
    (globals.toSave saveDefaults patch).Perm (other.toSave saveDefaults otherPatch) := by
  have declared (name : String) : globals.default? name = other.default? name := by
    unfold Globals.default?
    rw [same.defaults]
  simp only [toSave_eq, same.stored, declared]
  exact ((Table.keys_perm same.there).map _).filter _

end Globals

namespace State

variable {state other : State}

section

variable (same : Matches mode state other)

include same

theorem Matches.choiceThreads :
    state.choiceThreads mode.program = other.choiceThreads mode.program := by
  unfold State.choiceThreads
  simp only [same.callStack.isSome_thread?]
  congr 1
  apply filterMap_eq_of_forall₂ same.choices
  intro choice other same
  rw [same.thread.index, same.thread.save]

/-- Saves of states that match are the same but for globals and counts. -/
theorem Matches.save_rest (saveDefaults : Bool) (globals : List (String × Json))
    (visits : List (String × Nat)) (turns : List (String × Int32)) :
    { state.save mode.program saveDefaults with
        globals := globals, visits := visits, turns := turns } =
      { other.save mode.program saveDefaults with
        globals := globals, visits := visits, turns := turns } := by
  have threads : state.callStack.threads.map (Thread.save mode.program) =
      other.callStack.threads.map (Thread.save mode.program) :=
    map_eq_of_forall₂ same.callStack.threads fun _ _ same => same.save
  have choices : state.choices.map Choice.save = other.choices.map Choice.save :=
    map_eq_of_forall₂ same.choices fun _ _ same => same.save
  have output : state.output.toList = other.output.toList :=
    congrArg reverse same.output.stream
  simp only [save, threads, same.callStack.counter, output, choices, same.choiceThreads,
    same.evaluation, same.diverted, same.turn, same.seed, same.previousDraw]

/-- States that match have saves that differ in the order of globals and counts only. -/
theorem Matches.save (distinct : mode.program.DistinctPaths)
    (sound : SoundCounts mode.program state) (soundToo : SoundCounts mode.program other)
    (saveDefaults : Bool) :
    (state.save mode.program saveDefaults).Alike
      (other.save mode.program saveDefaults) where
  globals := (same.globals.toSave saveDefaults).map _
  visits := by
    have patched {state : State} (sound : SoundCounts mode.program state) :
        ∀ table, state.patch.map Patch.visits = some table → mode.program.Counts table := by
      intro table mapped
      obtain ⟨patch, there, rfl⟩ := Option.map_eq_some_iff.mp mapped
      exact sound.patchVisits patch there
    apply countsByPath_perm distinct sound.visits (patched sound) soundToo.visits (patched soundToo)
    intro address
    rw [Option.bind_map, Option.bind_map]
    exact same.visited address
  turns := by
    have patched {state : State} (sound : SoundCounts mode.program state) :
        ∀ table, state.patch.map Patch.turns = some table → mode.program.Counts table := by
      intro table mapped
      obtain ⟨patch, there, rfl⟩ := Option.map_eq_some_iff.mp mapped
      exact sound.patchTurns patch there
    apply countsByPath_perm distinct sound.turns (patched sound) soundToo.turns (patched soundToo)
    intro address
    rw [Option.bind_map, Option.bind_map]
    exact same.turned address
  rest := same.save_rest saveDefaults [] [] []

end

end State

namespace Story.Abreast

variable {other : Story}

theorem save (same : Abreast mode story other) (distinct : mode.program.DistinctPaths)
    (tallied : story.Tallied) (talliedToo : other.Tallied) : story.save.Alike other.save := by
  have sound := tallied.state
  have soundToo := talliedToo.state
  rw [same.program] at sound
  rw [same.otherProgram] at soundToo
  unfold Story.save saveOf
  rw [same.program, same.otherProgram, same.config]
  exact same.state.save distinct sound soundToo other.config.saveDefaults

end Story.Abreast

/-! ### Sequences of operations -/

/-- What a host gets from an operation. -/
def Operation.result (operation : Operation) (story : Story) : Except Error Answer :=
  match operation.ask story with
  | .ok answer _ => .ok answer
  | .error error _ => .error error

/-- An operation with its result and the story that it leaves. -/
structure Turn where
  operation : Operation
  result : Except Error Answer
  story : Story

namespace Story

/-- The turns of operations one after another, whether they fail or not. -/
def history (story : Story) : List Operation → List Turn
  | [] => []
  | operation :: rest =>
    ⟨operation, operation.result story, operation.after story⟩ ::
      (operation.after story).history rest

/-- The stories from which operations take their steps. -/
def allSteps (story : Story) : List Operation → List Story
  | [] => []
  | operation :: rest => operation.steps story ++ (operation.after story).allSteps rest

end Story

/-- Turns that look alike to a host, whose saves differ at most in their order. -/
structure Turn.LooksLike (turn other : Turn) : Prop where
  operation : turn.operation = other.operation
  result : turn.result = other.result
  story : turn.story.LooksLike other.story
  save : turn.story.program.DistinctPaths → turn.story.save.Alike other.story.save

/-- Turns whose stories cannot be told apart. -/
structure Turn.Abreast (mode : Comparison) (turn other : Turn) : Prop where
  operation : turn.operation = other.operation
  result : turn.result = other.result
  story : Story.Abreast mode turn.story other.story
  tallied : turn.story.Tallied
  talliedToo : other.story.Tallied

theorem Turn.Abreast.looksLike {turn other : Turn} (same : Turn.Abreast mode turn other) :
    turn.LooksLike other where
  operation := same.operation
  result := same.result
  story := same.story.looksLike
  save distinct := by
    rw [same.story.program] at distinct
    exact same.story.save distinct same.tallied same.talliedToo

namespace Story.Abreast

variable {other : Story}

theorem turn {operation : Operation} (same : Abreast mode story other)
    (comparable : operation.Comparable mode)
    (declared : mode.lockstep ∨ ∀ step ∈ operation.steps story, step.AssignsDeclared) :
    operation.result story = operation.result other ∧
      Abreast mode (operation.after story) (operation.after other) := by
  have agrees := agrees_ask same comparable declared
  unfold AgreesOn at agrees
  rw [← leaves_ask, ← leaves_ask]
  unfold result
  generalize operation.ask story = first at agrees
  generalize operation.ask other = second at agrees
  cases agrees with
  | ok answers left =>
    subst answers
    exact ⟨rfl, left⟩
  | error error left => exact ⟨rfl, left⟩

/-- Stories that cannot be told apart go through the same turns, also if one of them does more that
leaves them so. -/
theorem history_skipping (skipped : Operation → Bool) (same : Abreast mode story other)
    (tallied : story.Tallied) (talliedToo : other.Tallied)
    (aside : ∀ operation story other, skipped operation →
      Abreast mode story other → Abreast mode story (operation.after other))
    (comparable : ∀ operation ∈ operations, skipped operation = false → operation.Comparable mode)
    (declared : mode.lockstep ∨
      ∀ step ∈ story.allSteps (operations.filter fun operation => !skipped operation),
        step.AssignsDeclared) :
    Forall₂ (Turn.Abreast mode)
      (story.history (operations.filter fun operation => !skipped operation))
      ((other.history operations).filter fun turn => !skipped turn.operation) := by
  induction operations generalizing story other with
  | nil => exact .nil
  | cons operation rest ih =>
    have later : ∀ operation ∈ rest, skipped operation = false →
        operation.Comparable mode :=
      fun operation listed => comparable operation (mem_cons_of_mem _ listed)
    cases skips : skipped operation with
    | true =>
      simp only [filter_cons, skips, history] at declared ⊢
      exact ih (aside operation story other skips same) tallied
        (tallied_after talliedToo operation) later declared
    | false =>
      simp only [filter_cons, skips, history, allSteps, Bool.not_false,
        if_true, mem_append] at declared ⊢
      obtain ⟨results, left⟩ := same.turn (comparable operation mem_cons_self skips)
        (declared.imp_right fun declared step taken => declared step (.inl taken))
      have tallied := tallied_after tallied operation
      have talliedToo := tallied_after talliedToo operation
      refine .cons ⟨rfl, results, left, tallied, talliedToo⟩ ?_
      exact ih left tallied talliedToo later
        (declared.imp_right fun declared step taken => declared step (.inr taken))

theorem history (same : Abreast mode story other) (tallied : story.Tallied)
    (talliedToo : other.Tallied) (comparable : ∀ operation ∈ operations, operation.Comparable mode)
    (lockstep : mode.lockstep) :
    Forall₂ (Turn.Abreast mode) (story.history operations)
      (other.history operations) := by
  have turns := same.history_skipping (fun _ => false) tallied talliedToo
    (fun _ _ _ skips => absurd skips Bool.false_ne_true)
    (fun operation listed _ => comparable operation listed) (.inl lockstep)
  simpa using turns

end Story.Abreast

end InkStory
