import InkStory.Proofs.Changes
import InkStory.Proofs.Paths

/-! # States that can be saved

In a state that a story can be in, pointers lead into the tree, the threads of choices have numbers
of their own, and the stacks hold nothing but values and marks. Everything that evaluation does to a
state keeps this (`State.Sound.changes`). -/

namespace InkStory

open List CallStack Output

variable {stack after : CallStack} {choice : Choice} {state : State} {frame : Frame} {name : String}
  {value : Value} {address : Address}

variable {program : Program} {counts : Table Address α}

/-- A pointer that may be missing, and else leads into the tree. -/
def Program.PointsIf (program : Program) (pointer : Option Pointer) : Prop :=
  ∀ target, pointer = some target → program.Points target

theorem Program.pointsIf_none : program.PointsIf none := by
  intro target same
  cases same

/-- The frames of a thread and what it evaluates behind are in the tree. -/
structure Thread.Sound (program : Program) (thread : Thread) : Prop where
  frames : ∀ frame ∈ thread.frames, program.PointsIf frame.pointer
  previous : program.PointsIf thread.previous

namespace CallStack

/-- The running thread and those that wait for it. -/
def live (stack : CallStack) : List Thread := stack.current :: stack.waiting

/-- Every thread is in the tree and was given a number. -/
def Sound (program : Program) (stack : CallStack) : Prop :=
  ∀ thread ∈ stack.live, thread.Sound program ∧ thread.index ≤ stack.counter

/-- A call stack that differs in the frames of the running thread only, which stand where others
stood. -/
structure Alike (stack after : CallStack) : Prop where
  index : after.current.index = stack.current.index
  previous : after.current.previous = stack.current.previous
  waiting : after.waiting = stack.waiting
  counter : after.counter = stack.counter
  frames : ∀ frame ∈ after.current.frames, ∃ former ∈ stack.current.frames,
    frame.pointer = former.pointer

namespace Alike

variable {middle : CallStack}

theorem refl (stack : CallStack) : Alike stack stack :=
  ⟨rfl, rfl, rfl, rfl, fun frame member => ⟨frame, member, rfl⟩⟩

theorem trans (first : Alike stack middle) (second : Alike middle after) : Alike stack after where
  index := second.index.trans first.index
  previous := second.previous.trans first.previous
  waiting := second.waiting.trans first.waiting
  counter := second.counter.trans first.counter
  frames := fun frame member => by
    obtain ⟨former, between, same⟩ := second.frames frame member
    obtain ⟨oldest, there, before⟩ := first.frames former between
    exact ⟨oldest, there, same.trans before⟩

end Alike

end CallStack

/-- A choice leads somewhere, in a thread of its own. -/
structure Choice.Sound (program : Program) (stack : CallStack) (choice : Choice) : Prop where
  thread : choice.thread.Sound program
  numbered : choice.thread.index ≤ stack.counter
  apart : ∀ thread ∈ stack.live, thread.index ≠ choice.thread.index
  target : choice.target.Canonical

/-- Counts of containers in the tree. -/
def Program.Counts (program : Program) (counts : Table Address α) : Prop :=
  ∀ address ∈ counts.keys, program.Has address

namespace State

/-- Where a state stands. -/
structure SoundFlow (program : Program) (state : State) : Prop where
  stack : state.callStack.Sound program
  choices : ∀ choice ∈ state.choices, choice.Sound program state.callStack
  distinct : (state.choices.map fun choice => choice.thread.index).Nodup
  diverted : program.PointsIf state.diverted

/-- What a state counted. -/
structure SoundCounts (program : Program) (state : State) : Prop where
  visits : program.Counts state.visits
  turns : program.Counts state.turns
  patchVisits : ∀ patch, state.patch = some patch → program.Counts patch.visits
  patchTurns : ∀ patch, state.patch = some patch → program.Counts patch.turns

/-- A state with nothing but values and marks on its stacks. -/
structure Plain (state : State) : Prop where
  evaluation : ∀ content ∈ state.evaluation, content.isPlain = true
  output : ∀ content ∈ state.output.stream, content.isPlain = true

/-- A state that can be saved. -/
structure Sound (program : Program) (state : State) : Prop where
  flow : SoundFlow program state
  evaluation : ∀ content ∈ state.evaluation, content.isPlain = true
  output : ∀ content ∈ state.output.stream, content.isPlain = true
  counts : SoundCounts program state

end State

namespace CallStack

/-- A call stack is sound if only the running thread changed, and that is sound. -/
theorem Sound.current (sound : stack.Sound program) (thread : after.current.Sound program)
    (index : after.current.index = stack.current.index) (waiting : after.waiting = stack.waiting)
    (counter : after.counter = stack.counter) : after.Sound program := by
  intro found member
  rcases mem_cons.mp member with rfl | member
  · refine ⟨thread, ?_⟩
    rw [index, counter]
    exact (sound stack.current mem_cons_self).2
  · rw [waiting] at member
    rw [counter]
    exact sound found (mem_cons_of_mem _ member)

theorem Alike.sound (alike : Alike stack after) (sound : stack.Sound program) :
    after.Sound program := by
  obtain ⟨former, -⟩ := sound stack.current mem_cons_self
  refine sound.current ⟨fun frame member => ?_, ?_⟩ alike.index alike.waiting alike.counter
  · obtain ⟨old, there, same⟩ := alike.frames frame member
    rw [same]
    exact former.frames old there
  · rw [alike.previous]
    exact former.previous

end CallStack

/-- Choices stay what they are while the running thread does something. -/
theorem Choice.Sound.current (sound : choice.Sound program stack)
    (index : after.current.index = stack.current.index) (waiting : after.waiting = stack.waiting)
    (counter : after.counter = stack.counter) :
    choice.Sound program after where
  thread := sound.thread
  numbered := by
    rw [counter]
    exact sound.numbered
  apart thread member := by
    rcases mem_cons.mp member with rfl | member
    · rw [index]
      exact sound.apart stack.current mem_cons_self
    · rw [waiting] at member
      exact sound.apart thread (mem_cons_of_mem _ member)
  target := sound.target

namespace State

namespace SoundFlow

section

variable (sound : SoundFlow program state)

include sound

theorem running : state.callStack.current.Sound program :=
  (sound.stack _ mem_cons_self).1

theorem pointer : program.PointsIf state.pointer :=
  sound.running.frames _ mem_cons_self

/-- The flow stays sound while the running thread goes from one place of the tree to another. -/
theorem current (thread : stack.current.Sound program)
    (index : stack.current.index = state.callStack.current.index)
    (waiting : stack.waiting = state.callStack.waiting)
    (counter : stack.counter = state.callStack.counter) :
    SoundFlow program { state with callStack := stack } where
  stack := sound.stack.current thread index waiting counter
  choices := fun choice offered => (sound.choices choice offered).current index waiting counter
  distinct := sound.distinct
  diverted := sound.diverted

theorem alike (alike : Alike state.callStack stack) :
    SoundFlow program { state with callStack := stack } where
  stack := alike.sound sound.stack
  choices := fun choice offered =>
    (sound.choices choice offered).current alike.index alike.waiting alike.counter
  distinct := sound.distinct
  diverted := sound.diverted

theorem setPointer {pointer : Option Pointer} (points : program.PointsIf pointer) :
    SoundFlow program (state.setPointer pointer) := by
  refine sound.current ⟨fun frame member => ?_, sound.running.previous⟩ rfl rfl rfl
  rcases mem_cons.mp member with rfl | below
  · exact points
  · exact sound.running.frames frame (mem_cons_of_mem _ below)

theorem setPrevious {pointer : Option Pointer} (points : program.PointsIf pointer) :
    SoundFlow program (state.setPrevious pointer) :=
  sound.current ⟨sound.running.frames, points⟩ rfl rfl rfl

end

/-- With no choices left, the flow is sound if the threads are. -/
theorem unchosen (stack : state.callStack.Sound program) (none : state.choices = [])
    (diverted : program.PointsIf state.diverted) : SoundFlow program state where
  stack := stack
  choices := by simp [none]
  distinct := by simp [none]
  diverted := diverted

theorem pushFrame (sound : SoundFlow program state) (kind : FrameKind)
    (stackHeight outputLength : Nat) :
    SoundFlow program
      { state with callStack := state.callStack.push kind stackHeight outputLength } := by
  refine sound.current ⟨fun frame member => ?_, sound.running.previous⟩ rfl rfl rfl
  rcases mem_cons.mp member with rfl | below
  · exact sound.pointer
  · exact sound.running.frames frame below

theorem dropFrame (sound : SoundFlow program state) :
    SoundFlow program { state with callStack := state.callStack.drop } := by
  unfold CallStack.drop
  split
  · next next below lower =>
    refine sound.current ⟨fun frame member => ?_, sound.running.previous⟩ rfl rfl rfl
    refine sound.running.frames frame (mem_cons_of_mem _ ?_)
    rw [lower]
    exact member
  · exact sound

theorem fork (sound : SoundFlow program state) : state.callStack.fork.1.Sound program :=
  ⟨sound.running.frames, sound.running.previous⟩

/-- A choice keeps its thread while other threads get new numbers. -/
theorem renumbered (sound : choice.Sound program state.callStack)
    (counter : after.counter = state.callStack.counter + 1)
    (live : ∀ thread ∈ after.live, thread ∈ state.callStack.live ∨ thread.index = after.counter) :
    choice.Sound program after where
  thread := sound.thread
  numbered := by
    have numbered := sound.numbered
    omega
  apart thread member := by
    rcases live thread member with former | new
    · exact sound.apart thread former
    · have numbered := sound.numbered
      omega
  target := sound.target

section

variable (sound : SoundFlow program state)

include sound

theorem sound_renumbered (counter : after.counter = state.callStack.counter + 1)
    (live : ∀ thread ∈ after.live, thread ∈ state.callStack.live ∨ thread = state.callStack.fork.1) :
    SoundFlow program { state with callStack := after } where
  stack thread member := by
    rcases live thread member with former | rfl
    · obtain ⟨thread, numbered⟩ := sound.stack thread former
      exact ⟨thread, numbered.trans (by simp [counter])⟩
    · exact ⟨sound.fork, by simp [CallStack.fork, counter]⟩
  choices := fun choice offered => by
    refine renumbered (sound.choices choice offered) counter fun thread member => ?_
    rcases live thread member with former | rfl
    · exact .inl former
    · exact .inr counter.symm
  distinct := sound.distinct
  diverted := sound.diverted

theorem renumber : SoundFlow program { state with callStack := state.callStack.renumber } := by
  refine sound.sound_renumbered rfl fun thread member => ?_
  rcases mem_cons.mp member with rfl | waiting
  · exact .inr rfl
  · exact .inl (mem_cons_of_mem _ waiting)

theorem pushThread : SoundFlow program { state with callStack := state.callStack.pushThread } := by
  refine sound.sound_renumbered rfl fun thread member => ?_
  rcases mem_cons.mp member with rfl | former
  · exact .inr rfl
  · exact .inl former

theorem popThread : SoundFlow program { state with callStack := state.callStack.popThread } := by
  unfold CallStack.popThread
  split
  · next next waiting others =>
    have still : ∀ thread ∈ next :: waiting, thread ∈ state.callStack.live := by
      intro thread member
      rw [← others] at member
      exact mem_cons_of_mem _ member
    exact
      { stack := fun thread member => sound.stack thread (still thread member)
        choices := fun choice offered =>
          { sound.choices choice offered with
            apart := fun thread member =>
              (sound.choices choice offered).apart thread (still thread member) }
        distinct := sound.distinct
        diverted := sound.diverted }
  · exact sound

theorem offer (thread : choice.thread = state.callStack.fork.1) (target : choice.target.Canonical) :
    SoundFlow program (state.offer choice) := by
  have forked : SoundFlow program { state with callStack := state.callStack.fork.2 } :=
    sound.sound_renumbered rfl fun thread member => .inl member
  have number : choice.thread.index = state.callStack.counter + 1 := by
    rw [thread]
    rfl
  refine ⟨forked.stack, fun found member => ?_, ?_, sound.diverted⟩
  · rcases mem_append.mp member with former | new
    · exact forked.choices found former
    · obtain rfl := mem_singleton.mp new
      refine ⟨?_, number.le, fun running live => ?_, target⟩
      · rw [thread]
        exact sound.fork
      · have former := (sound.stack running live).2
        omega
  · rw [State.offer, map_append, nodup_append]
    refine ⟨sound.distinct, by simp, fun former listed own new => ?_⟩
    obtain ⟨other, offered, rfl⟩ := mem_map.mp listed
    obtain rfl : own = choice.thread.index := by simpa using new
    have numbered := (sound.choices other offered).numbered
    omega

theorem take (offered : choice ∈ state.choices) : SoundFlow program (state.take choice) := by
  refine unchosen (fun thread member => ?_) rfl sound.diverted
  obtain rfl : thread = choice.thread := by
    simpa [State.take, live, runOnly] using member
  exact ⟨(sound.choices choice offered).thread, (sound.choices choice offered).numbered⟩

theorem forceEnd : SoundFlow program state.forceEnd := by
  refine unchosen (fun thread member => ?_) rfl sound.diverted
  obtain rfl : thread = { Thread.atStart with
      top := { Thread.atStart.top with pointer := none }, previous := none } := by
    simpa [State.forceEnd, live, reset, CallStack.setPointer,
      modifyFrame, CallStack.setPrevious] using member
  refine ⟨⟨fun frame member => ?_, Program.pointsIf_none⟩, Nat.zero_le _⟩
  obtain rfl : frame = { Thread.atStart.top with pointer := none } := by
    simpa [Thread.frames, Thread.atStart] using member
  exact Program.pointsIf_none

end

end SoundFlow

end State

/-! ### Frames that stand where others stood -/

namespace Thread

theorem mem_modify {α : Type u} {change : α → α} {items : List α} {position : Nat} {item : α}
    (member : item ∈ items.modify position change) :
    item ∈ items ∨ ∃ former ∈ items, item = change former := by
  obtain ⟨found, inside, rfl⟩ := mem_iff_getElem.mp member
  rw [getElem_modify]
  split
  · exact .inr ⟨_, getElem_mem _, rfl⟩
  · exact .inl (getElem_mem _)

theorem mem_modifyAt {thread : Thread} {height : Nat} {change : Frame → Frame}
    (member : frame ∈ (thread.modifyAt height change).frames)
    (keeps : ∀ frame, (change frame).pointer = frame.pointer) :
    ∃ former ∈ thread.frames, frame.pointer = former.pointer := by
  unfold modifyAt at member
  split at member
  · next top below modified =>
    have listed : frame ∈ (thread.frames.reverse.modify height change).reverse := by
      rw [modified]
      exact member
    rcases mem_modify (mem_reverse.mp listed) with same | ⟨former, there, rfl⟩
    · exact ⟨frame, mem_reverse.mp same, rfl⟩
    · exact ⟨former, mem_reverse.mp there, keeps former⟩
  · exact ⟨frame, member, rfl⟩

theorem modifyAt_eq (thread : Thread) (height : Nat) (change : Frame → Frame) :
    (thread.modifyAt height change).index = thread.index ∧
      (thread.modifyAt height change).previous = thread.previous := by
  unfold modifyAt
  split <;> exact ⟨rfl, rfl⟩

end Thread

namespace CallStack

theorem alike_setTemporary {declare : Bool} {context : Context}
    (assigned : stack.setTemporary name value declare context = .ok after) : Alike stack after := by
  simp only [setTemporary] at assigned
  split at assigned
  · split at assigned
    · contradiction
    · cases assigned
      obtain ⟨index, previous⟩ := Thread.modifyAt_eq stack.current (stack.heightOf context) _
      exact ⟨index, previous, rfl, rfl, fun _ member => Thread.mem_modifyAt member fun _ => rfl⟩
  · contradiction

theorem mem_stopTrimming {frames : List Frame} (member : frame ∈ stopTrimming frames) :
    ∃ former ∈ frames, frame.pointer = former.pointer := by
  induction frames with
  | nil => contradiction
  | cons first below ih =>
    rw [stopTrimming] at member
    split at member
    · rcases mem_cons.mp member with rfl | lower
      · exact ⟨first, mem_cons_self, rfl⟩
      · obtain ⟨former, there, same⟩ := ih lower
        exact ⟨former, mem_cons_of_mem _ there, same⟩
    · exact ⟨frame, member, rfl⟩

theorem alike_stopFunctionTrimming (stack : CallStack) :
    Alike stack (stopFunctionTrimming stack) := by
  unfold stopFunctionTrimming
  split
  · next top below trimmed =>
    refine ⟨rfl, rfl, rfl, rfl, fun frame member => mem_stopTrimming ?_⟩
    rw [trimmed]
    exact member
  · exact .refl stack

end CallStack

/-! ### The output -/

namespace Output

/-- What comes out where an object is added: objects that were there or that are plain, and a call
stack that only stops to trim. -/
structure Pushed (output : Output) (stack : CallStack) (pushed : Output × CallStack) : Prop where
  stream : ∀ content ∈ pushed.1.stream, content ∈ output.stream ∨ content.isPlain = true
  stack : stack.Alike pushed.2

variable {output : Output} {content : Content} {stream : List Content}

theorem mem_removeGlue (member : content ∈ removeGlue stream) : content ∈ stream := by
  rcases mem_append.mp member with kept | behind
  · exact takeWhile_subset _ (mem_of_mem_filter kept)
  · exact dropWhile_subset _ behind

theorem mem_trimNewlines (member : content ∈ trimNewlines stream) : content ∈ stream := by
  rcases mem_append.mp member with cut | behind
  · have run := dropWhile_subset _ (mem_reverse.mp (mem_of_mem_filter cut))
    exact takeWhile_subset _ (mem_reverse.mp run)
  · exact mem_of_mem_drop behind

theorem pushed_push (plain : content.isPlain) :
    Pushed output stack (output.push stack content) := by
  refine push_invariant ?_ ⟨fun _ => .inl, .refl stack⟩
  rintro piece before after kind (_ | ⟨left, marks⟩) pushed
  · exact pushed
  refine ⟨fun found member => ?_, ?_⟩
  · rcases mem_cons.mp member with rfl | member
    · rcases kind with rfl | ⟨text, rfl⟩
      · exact .inr plain
      · exact .inr rfl
    · refine pushed.stream found ?_
      rcases left with rfl | rfl | rfl
      · exact member
      · exact mem_removeGlue member
      · exact mem_trimNewlines member
  · rcases marks with rfl | rfl
    · exact pushed.stack
    · exact pushed.stack.trans (alike_stopFunctionTrimming _)

theorem mem_trimFunctionEnd {start : Nat} (member : content ∈ trimFunctionEnd start stream) :
    content ∈ stream := by
  induction stream with
  | nil => contradiction
  | cons first rest ih =>
    rw [trimFunctionEnd] at member
    split at member
    · exact member
    · split at member
      · rcases mem_cons.mp member with rfl | kept
        · exact mem_cons_self
        · exact mem_cons_of_mem _ (ih kept)
      · split at member
        · exact mem_cons_of_mem _ (ih member)
        · exact member

theorem mem_endString (member : content ∈ output.endString.2.stream) : content ∈ output.stream := by
  rcases mem_append.mp member with tag | before
  · exact takeWhile_subset _ (mem_of_mem_filter tag)
  · exact mem_of_mem_drop before

theorem mem_endTag {text : String} {after : Output} (ended : output.endTag = .ok (text, after))
    (member : content ∈ after.stream) : content ∈ output.stream := by
  simp only [endTag] at ended
  split at ended
  · cases ended
    contradiction
  · next before behind =>
    cases ended
    have listed : content ∈ output.stream.drop
        (output.stream.takeWhile fun content => !content.isCommand).length := by
      rw [behind]
      exact mem_cons_of_mem _ member
    exact mem_of_mem_drop listed
  · contradiction

end Output

/-! ### Counts -/

theorem Program.Counts.insert (sound : program.Counts counts) (has : program.Has address)
    (count : α) : program.Counts (counts.insert address count) := by
  intro found member
  obtain ⟨entry, listed, rfl⟩ := mem_map.mp member
  obtain rfl | former := Table.mem_entries_insert listed
  · exact has
  · exact sound _ (mem_map_of_mem former)

theorem Program.Counts.insertAll {others : List (Address × α)} (sound : program.Counts counts)
    (has : ∀ entry ∈ others, program.Has entry.1) : program.Counts (counts.insertAll others) := by
  intro found member
  obtain ⟨entry, listed, rfl⟩ := mem_map.mp member
  rcases Table.mem_entries_insertAll listed with former | new
  · exact sound _ (mem_map_of_mem former)
  · exact has entry new

namespace State

section

variable (sound : SoundCounts program state)

include sound

theorem SoundCounts.countVisit (has : program.Has address) :
    SoundCounts program (state.countVisit address) := by
  unfold State.countVisit
  cases patched : state.patch with
  | none => exact ⟨sound.visits.insert has _, sound.turns, nofun, nofun⟩
  | some patch =>
    refine ⟨sound.visits, sound.turns, fun found same => ?_, fun found same => ?_⟩
    all_goals cases same
    · exact (sound.patchVisits patch patched).insert has _
    · exact sound.patchTurns patch patched

theorem SoundCounts.recordTurn (has : program.Has address) :
    SoundCounts program (state.recordTurn address) := by
  unfold State.recordTurn
  cases patched : state.patch with
  | none => exact ⟨sound.visits, sound.turns.insert has _, nofun, nofun⟩
  | some patch =>
    refine ⟨sound.visits, sound.turns, fun found same => ?_, fun found same => ?_⟩
    all_goals cases same
    · exact sound.patchVisits patch patched
    · exact (sound.patchTurns patch patched).insert has _

/-- Only containers of the tree are counted. -/
theorem SoundCounts.visit {atStart : Bool} :
    SoundCounts program (state.visit program address atStart) := by
  have visited : SoundCounts program
      (if (program.container address).counting.visits then state.countVisit address
      else state) := by
    split
    · next counts => exact sound.countVisit (program.has_of_counting (.inl counts))
    · exact sound
  unfold State.visit
  dsimp only
  split
  · exact sound
  · split
    · next counts => exact visited.recordTurn (program.has_of_counting (.inr counts))
    · exact visited

theorem SoundCounts.visitAll {visits : List (Address × Bool)} :
    SoundCounts program (state.visitAll program visits) := by
  induction visits generalizing state with
  | nil => exact sound
  | cons visit rest ih => exact ih sound.visit

end

theorem patch_write (state : State) (name : String) (value : Value) :
    ∀ patch, (state.write name value).patch = some patch →
      ∃ former, state.patch = some former ∧ patch.visits = former.visits ∧
        patch.turns = former.turns := by
  intro patch written
  simp only [write, Globals.set] at written
  split at written
  · next former _ patched _ =>
    cases written
    refine ⟨former, patched, ?_⟩
    split <;> exact ⟨rfl, rfl⟩
  · next former patched _ =>
    cases written
    exact ⟨former, patched, rfl, rfl⟩
  all_goals cases written

theorem SoundCounts.write (sound : SoundCounts program state) :
    SoundCounts program (state.write name value) where
  visits := sound.visits
  turns := sound.turns
  patchVisits := fun patch written => by
    obtain ⟨former, patched, same, -⟩ := patch_write state name value patch written
    rw [same]
    exact sound.patchVisits former patched
  patchTurns := fun patch written => by
    obtain ⟨former, patched, -, same⟩ := patch_write state name value patch written
    rw [same]
    exact sound.patchTurns former patched

end State

/-- The targets of choice points are paths that can be written. -/
def Program.Targeted (program : Program) : Prop :=
  ∀ place point, program.Holds place (.choicePoint point) → point.target.Canonical

namespace State

variable {writable : String → Prop} {after : State}

theorem SoundFlow.change (flow : SoundFlow program state) (wellNamed : program.WellNamed)
    (targeted : program.Targeted) (change : Change program writable state after) :
    SoundFlow program after := by
  cases change with
  | emit content plain =>
    have alike : state.callStack.Alike (state.output.push state.callStack content).2 :=
      (pushed_push plain).stack
    obtain ⟨stack, choices, distinct, diverted⟩ := flow.alike alike
    exact ⟨stack, choices, distinct, diverted⟩
  | evaluating evaluating =>
    refine flow.alike ⟨rfl, rfl, rfl, rfl, fun frame member => ?_⟩
    rcases mem_cons.mp member with rfl | below
    · exact ⟨_, mem_cons_self, rfl⟩
    · exact ⟨frame, mem_cons_of_mem _ below, rfl⟩
  | point pointer points => exact flow.setPointer points
  | advance pointer here =>
    exact flow.setPointer fun target next => program.points_next (flow.pointer pointer here).has next
  | down pointer here =>
    refine flow.setPointer fun target same => ?_
    cases same
    exact program.points_descend (flow.pointer pointer here)
  | visit visits =>
    rw [(counted_visitAll program state visits).eq]
    exact ⟨flow.stack, flow.choices, flow.distinct, flow.diverted⟩
  | depart => exact flow.setPrevious flow.pointer
  | divert pointer points => exact ⟨flow.stack, flow.choices, flow.distinct, points⟩
  | land pointer diverted =>
    have landed : SoundFlow program { state with diverted := none } :=
      ⟨flow.stack, flow.choices, flow.distinct, nofun⟩
    refine landed.setPointer fun target same => ?_
    cases same
    exact flow.diverted pointer diverted
  | dropChoices => exact .unchosen flow.stack rfl flow.diverted
  | offer origin point choice holds thread target _ =>
    refine flow.offer thread ?_
    rw [target]
    exact program.canonical_absolutePath wellNamed holds.hasPlace (targeted origin point holds)
  | take choice offered => exact flow.take offered
  | renumber => exact flow.renumber
  | pushFrame kind stackHeight outputLength _ => exact flow.pushFrame kind stackHeight outputLength
  | dropFrame => exact flow.dropFrame
  | pushThread => exact flow.pushThread
  | popThread => exact flow.popThread
  | forceEnd => exact flow.forceEnd
  | temporary assigned => exact flow.alike (alike_setTemporary assigned)
  | stack | trim | endString | endTag | warn | beginTurn | draw | exitSafely | write =>
    exact ⟨flow.stack, flow.choices, flow.distinct, flow.diverted⟩

theorem SoundCounts.change (counts : SoundCounts program state)
    (change : Change program writable state after) : SoundCounts program after := by
  cases change with
  | visit visits => exact counts.visitAll
  | write name value _ => exact counts.write
  | _ => exact ⟨counts.visits, counts.turns, counts.patchVisits, counts.patchTurns⟩

theorem Plain.counted (plain : Plain state) (counted : Counted state after) : Plain after := by
  obtain ⟨visits, turns, patch, rfl, -⟩ := counted
  exact ⟨plain.evaluation, plain.output⟩

/-- Whatever evaluation does at once leaves nothing else on the stacks. -/
theorem Plain.change (plain : Plain state) (change : Change program writable state after) :
    Plain after := by
  obtain ⟨evaluation, output⟩ := plain
  cases change with
  | stack pushed added =>
    exact ⟨fun content member => (added content member).elim (evaluation content) id, output⟩
  | emit content added =>
    refine ⟨evaluation, fun found member => ?_⟩
    exact ((pushed_push added).stream found member).elim (output found) id
  | trim =>
    exact ⟨evaluation, fun content member => output content (mem_trimFunctionEnd member)⟩
  | endString =>
    exact ⟨evaluation, fun content member => output content (mem_endString member)⟩
  | endTag ended =>
    exact ⟨evaluation, fun content member => output content (mem_endTag ended member)⟩
  | visit visits => exact Plain.counted ⟨evaluation, output⟩ (counted_visitAll program state visits)
  | _ => exact ⟨evaluation, output⟩

/-- Whatever evaluation does at once keeps a state sound. -/
theorem Sound.change (sound : Sound program state) (wellNamed : program.WellNamed)
    (targeted : program.Targeted) (change : Change program writable state after) :
    Sound program after := by
  obtain ⟨evaluation, output⟩ := Plain.change ⟨sound.evaluation, sound.output⟩ change
  exact ⟨sound.flow.change wellNamed targeted change, evaluation, output, sound.counts.change change⟩

end State

end InkStory
