import InkStory.Proofs.VisitCounts

/-! # What is known of the output

The text and the tags of the output are worked out once and then known, until the output changes. A
state takes them along wherever it is copied or gone back to. They are never those of an output that
is no longer there (`State.known_never_stale`). -/

namespace InkStory

open List Option Output

namespace Output

/-- The text and the tags that are known are those of the objects. -/
structure Accurate (output : Output) : Prop where
  text : ∀ text ∈ output.knownText, text = output.buildText
  tags : ∀ tags ∈ output.knownTags, tags = output.buildTags

variable {output : Output} {stack : CallStack} {content : Content}

theorem accurate_ofStream (stream : List Content) : (ofStream stream).Accurate := ⟨nofun, nofun⟩

namespace Accurate

section

variable (accurate : output.Accurate)

include accurate

theorem text_eq : output.text = output.buildText := by
  unfold Output.text
  cases known : output.knownText with
  | none => rfl
  | some text => exact accurate.text text known

theorem tags_eq : output.tags = output.buildTags := by
  unfold Output.tags
  cases known : output.knownTags with
  | none => rfl
  | some tags => exact accurate.tags tags known

theorem known : output.known.Accurate where
  text _ known := (mem_some.mp known).symm.trans accurate.text_eq
  tags _ known := (mem_some.mp known).symm.trans accurate.tags_eq

theorem push : (output.push stack content).1.Accurate := by
  refine push_invariant (P := fun reached => reached.1.Accurate) ?_ accurate
  rintro piece before after - (_ | _) accurate
  · exact accurate
  · exact accurate_ofStream _

end

theorem endTag {text : String} {after : Output} (ended : output.endTag = .ok (text, after)) :
    after.Accurate := by
  unfold Output.endTag at ended
  dsimp only at ended
  split at ended
  · cases ended
    exact accurate_ofStream _
  · cases ended
    exact accurate_ofStream _
  · contradiction

/-- Outputs of the same objects look alike, if what is known of them is right. -/
theorem «matches» {other : Output} (accurate : output.Accurate) (accurateToo : other.Accurate)
    (stream : output.stream = other.stream) : output.Matches other where
  stream := stream
  text := by
    rw [accurate.text_eq, accurateToo.text_eq, buildText, buildText, toList, toList, stream]
  tags := by
    rw [accurate.tags_eq, accurateToo.tags_eq, buildTags, buildTags, toList, toList, stream]

end Accurate

end Output

namespace State

theorem invariant_accurate (program : Program) :
    Invariant program fun state => state.output.Accurate where
  startPatch accurate := accurate
  applyPatch accurate := by
    unfold applyPatch
    split <;> exact accurate
  known accurate := accurate.known
  reports _ _ accurate := accurate
  aside _ _ accurate := accurate
  cleared _ := accurate_ofStream []
  restored _ _ := accurate_ofStream _
  change {_ state _} change accurate := by
    cases change with
    | emit => exact accurate.push
    | trim | endString => exact accurate_ofStream _
    | endTag ended => exact .endTag ended
    | visit visits =>
      rw [(counted_visitAll program state visits).eq]
      exact accurate
    | _ => exact accurate

end State

theorem Run.accurate_load (program : Program) (text : String) (state : State)
    (accurate : state.output.Accurate) :
    (leaves (Run.load program text state)).output.Accurate := by
  cases outcome : Run.load program text state with
  | ok value after =>
    obtain ⟨save, flow, evaluation, output, -, -, -, rfl⟩ := (Run.load_eq_ok_iff ..).mp outcome
    exact (State.invariant_accurate program).warnAll (accurate_ofStream _) flow.warnings
  | error error after =>
    rcases (Run.load_eq_error_iff ..).mp outcome with ⟨-, rfl⟩ | ⟨save, flow, -, taken⟩
    · exact accurate
    · rcases (Run.takeOver_eq_error_iff ..).mp taken with ⟨-, rfl⟩ | ⟨evaluation, -, -, rfl⟩ <;>
        exact accurate

namespace State

variable {program : Program} {state : State}

/-- The states that any operations on states lead to, one after another. -/
inductive Arises (program : Program) : State → Prop where
  | start (config : Config) : Arises program (State.atStart config)
  | change {writable : String → Prop} {state after : State} (arises : Arises program state)
      (change : Change program writable state after) : Arises program after
  | startPatch {state : State} (arises : Arises program state) : Arises program state.startPatch
  | applyPatch {state : State} (arises : Arises program state) : Arises program state.applyPatch
  | known {state : State} (arises : Arises program state) :
      Arises program { state with output := state.output.known }
  | reports {state : State} (errors warnings : List String) (arises : Arises program state) :
      Arises program { state with errors := errors, warnings := warnings }
  | aside {state : State} (globals : Globals) (exitedSafely : Bool)
      (arises : Arises program state) :
      Arises program { state with globals := globals, exitedSafely := exitedSafely }
  | cleared {state : State} (arises : Arises program state) :
      Arises program { state with output := {} }
  | restored {state former : State} (arises : Arises program state)
      (before : Arises program former) :
      Arises program { state with output := Output.ofStream former.output.stream }
  | load {state : State} (text : String) (arises : Arises program state) :
      Arises program (leaves (Run.load program text state))

theorem invariant_arises (program : Program) : Invariant program (Arises program) where
  change change arises := arises.change change
  startPatch := .startPatch
  applyPatch := .applyPatch
  known := .known
  reports := .reports
  aside := .aside
  cleared := .cleared
  restored := .restored

/-- What is kept by every operation on states holds of every state that they lead to. -/
theorem Arises.holds {holds : State → Prop} (arises : Arises program state)
    (invariant : Invariant program holds) (atStart : ∀ config, holds (State.atStart config))
    (load : ∀ text state, holds state → holds (leaves (Run.load program text state))) :
    holds state := by
  induction arises with
  | start config => exact atStart config
  | change _ change held => exact invariant.change change held
  | startPatch _ held => exact invariant.startPatch held
  | applyPatch _ held => exact invariant.applyPatch held
  | known _ held => exact invariant.known held
  | reports errors warnings _ held => exact invariant.reports errors warnings held
  | aside globals exitedSafely _ held => exact invariant.aside globals exitedSafely held
  | cleared _ held => exact invariant.cleared held
  | restored _ _ held before => exact invariant.restored held before
  | load text _ held => exact load text _ held

theorem Arises.accurate (arises : Arises program state) : state.output.Accurate :=
  arises.holds (invariant_accurate program) (fun _ => accurate_ofStream [])
    (Run.accurate_load program)

end State

theorem Story.Reachable.arises {story : Story} (reachable : story.Reachable) :
    story.Throughout story.program (State.Arises story.program) :=
  reachable.throughout State.invariant_arises (fun _ => .start) fun _ text _ => .load text

/-- **What is known is never stale.** In every state that operations on states lead to, a text or tags
that are known are those of the output. Every state of a story that a host leads is such a one, at
every step and at the newline that the story may go back to. -/
theorem State.known_never_stale (program : Program) :
    (∀ state, Arises program state →
      (∀ text ∈ state.output.knownText, text = state.output.buildText) ∧
        ∀ tags ∈ state.output.knownTags, tags = state.output.buildTags) ∧
    ∀ story : Story, story.Reachable → story.program = program → ∀ operation : Operation,
      ∀ moment ∈ story :: operation.steps story,
        Arises program moment.state ∧ ∀ newline ∈ moment.snapshot, Arises program newline := by
  refine ⟨fun state arises => ⟨arises.accurate.text, arises.accurate.tags⟩, ?_⟩
  rintro story reachable rfl operation moment there
  have every : moment.Throughout story.program (Arises story.program) := by
    rcases mem_cons.mp there with rfl | step
    · exact reachable.arises
    · refine operation.steps_invariant (fun before after action kept => ?_) (fun _ => ?_)
        reachable.arises moment step
      · exact kept.action (invariant_arises _) action
      · exact Story.throughout_of_none rfl rfl (.start _)
  exact ⟨every.state, every.snapshot⟩

/-- A text is written, worked out, and followed by another. -/
theorem State.greeting_known :
    ∃ state, Arises default state ∧ state.output.knownText = some "Hi you" ∧
      "Hi you" = state.output.buildText := by
  have written (text : String) {state : State} (arises : Arises default state) :
      Arises default (state.emit (.ofText text)) := by
    have change : Change default (fun _ => True) state (state.emit (.ofText text)) :=
      .emit _ rfl (.inl trivial)
    exact arises.change change
  have arises := Arises.known (written " you" (.known (written "Hi" (.start {}))))
  refine ⟨_, arises, by decide +kernel, ?_⟩
  exact ((known_never_stale default).1 _ arises).1 _ (by decide +kernel)

end InkStory
