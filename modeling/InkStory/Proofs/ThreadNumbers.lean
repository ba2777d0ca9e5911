import InkStory.Proofs.Resuming

/-! # Numbers of threads and choices

Every thread, whether it runs, waits or belongs to a choice, has a number that no other has, and the
choices that are shown are numbered in their order. Whatever evaluation does at once keeps this
(`State.Numbered.change`), and so does everything that a host does with a story, as long as it loads
nothing but saves of such stories. -/

namespace InkStory

open List CallStack State Thread

variable {stack : CallStack} {choices others : List Choice} {choice : Choice} {thread : Thread}
  {counter : Nat} {program : Program} {state : State}

namespace CallStack

variable {after : CallStack}

/-- The numbers of all threads, of those that run or wait and of those of choices. -/
def numbers (stack : CallStack) (choices : List Choice) : List Nat :=
  stack.live.map index ++ choices.map fun choice => choice.thread.index

/-- The threads have numbers of their own, which were given out, and the choices that are shown are
numbered in their order. -/
structure Numbered (stack : CallStack) (choices : List Choice) : Prop where
  distinct : (stack.numbers choices).Nodup
  given : ∀ number ∈ stack.numbers choices, number ≤ stack.counter
  positions : (choices.filter fun choice => !choice.isInvisible).map Choice.index =
    range (choices.filter fun choice => !choice.isInvisible).length

namespace Numbered

section

variable (numbered : stack.Numbered choices)

include numbered

/-- The numbers stay while the running thread does something. -/
theorem current (index : after.current.index = stack.current.index)
    (waiting : after.waiting = stack.waiting) (counter : after.counter = stack.counter) :
    after.Numbered choices := by
  have same : after.numbers choices = stack.numbers choices := by
    simp [numbers, live, index, waiting]
  obtain ⟨distinct, given, positions⟩ := numbered
  refine ⟨?_, ?_, positions⟩
  · rwa [same]
  · rwa [same, counter]

theorem fresh : stack.counter + 1 ∉ stack.numbers choices :=
  fun member => Nat.not_succ_le_self _ (numbered.given _ member)

/-- Some of the threads may be left, as long as all choices stay. -/
theorem sublist (fewer : (after.numbers choices).Sublist (stack.numbers choices))
    (counter : after.counter = stack.counter) : after.Numbered choices where
  distinct := numbered.distinct.sublist fewer
  given number member := by
    rw [counter]
    exact numbered.given number (fewer.subset member)
  positions := numbered.positions

/-- The next number may go to another thread. -/
theorem next {others : List Nat} (fewer : others.Sublist (stack.numbers choices))
    (numbers : after.numbers choices = (stack.counter + 1) :: others)
    (counter : after.counter = stack.counter + 1) : after.Numbered choices where
  distinct := by
    rw [numbers]
    exact nodup_cons.mpr
      ⟨fun member => numbered.fresh (fewer.subset member), numbered.distinct.sublist fewer⟩
  given number member := by
    rw [numbers] at member
    rw [counter]
    rcases mem_cons.mp member with rfl | former
    · exact Nat.le_refl _
    · exact (numbered.given number (fewer.subset former)).trans (Nat.le_succ _)
  positions := numbered.positions

theorem renumber : stack.renumber.Numbered choices :=
  numbered.next (sublist_cons_self _ _) rfl rfl

theorem pushThread : stack.pushThread.Numbered choices :=
  numbered.next (List.Sublist.refl _) rfl rfl

theorem popThread : stack.popThread.Numbered choices := by
  unfold CallStack.popThread
  split
  · next next waiting others =>
    refine numbered.sublist ?_ rfl
    have former : stack.numbers choices = stack.current.index ::
        numbers { stack with current := next, waiting := waiting } choices := by
      simp [numbers, live, others]
    rw [former]
    exact sublist_cons_self _ _
  · exact numbered

end

/-- With one thread and no choices there is nothing to tell apart. -/
theorem alone (given : thread.index ≤ counter) :
    Numbered ⟨thread, [], counter⟩ [] where
  distinct := nodup_singleton _
  given := forall_mem_singleton.mpr given
  positions := rfl

/-- The thread of a choice was given a number. -/
theorem choice_le (numbered : stack.Numbered choices) (offered : choice ∈ choices) :
    choice.thread.index ≤ stack.counter :=
  numbered.given _ (mem_append_right _ (mem_map.mpr ⟨choice, offered, rfl⟩))

theorem dropChoices (numbered : stack.Numbered choices) : stack.Numbered [] := by
  have fewer : (stack.numbers []).Sublist (stack.numbers choices) :=
    (nil_sublist _).append_left _
  exact ⟨numbered.distinct.sublist fewer,
    fun number member => numbered.given number (fewer.subset member), rfl⟩

/-- A choice comes with a new number and behind those that are shown. -/
theorem offer (numbered : stack.Numbered choices) (thread : choice.thread = stack.fork.1)
    (index : choice.index = (choices.filter fun choice => !choice.isInvisible).length) :
    stack.fork.2.Numbered (choices ++ [choice]) := by
  have number : choice.thread.index = stack.counter + 1 := by
    rw [thread]
    rfl
  have numbers : stack.fork.2.numbers (choices ++ [choice]) =
      stack.numbers choices ++ [stack.counter + 1] := by
    simp [numbers, number, live, fork]
  refine ⟨?_, ?_, ?_⟩
  · rw [numbers, nodup_append]
    refine ⟨numbered.distinct, nodup_singleton _, fun former member last new => ?_⟩
    rw [mem_singleton.mp new]
    rintro rfl
    exact numbered.fresh member
  · rw [numbers]
    intro number member
    rcases mem_append.mp member with former | new
    · exact (numbered.given number former).trans (Nat.le_succ _)
    · exact (mem_singleton.mp new).le
  · rw [filter_append]
    cases shown : choice.isInvisible with
    | true => simpa [shown] using numbered.positions
    | false =>
      have last : [choice].filter (fun choice => !choice.isInvisible) = [choice] := by
        simp [shown]
      rw [last, map_append, map_singleton, index, numbered.positions,
        length_append, length_singleton, range_succ]

end Numbered

end CallStack

namespace State

variable {writable : String → Prop} {after : State}

/-- The threads of a state have numbers of their own, and its stacks hold nothing but values and
marks. -/
structure Numbered (state : State) : Prop extends Plain state where
  threads : state.callStack.Numbered state.choices

theorem Numbered.counted (numbered : state.Numbered) (counted : Counted state after) :
    after.Numbered := by
  have plain := numbered.toPlain.counted counted
  obtain ⟨visits, turns, patch, rfl, -⟩ := counted
  exact ⟨plain, numbered.threads⟩

/-- Whatever evaluation does at once keeps the numbers. -/
theorem Numbered.change (numbered : state.Numbered)
    (change : Change program writable state after) : after.Numbered := by
  have threads := numbered.threads
  refine ⟨numbered.toPlain.change change, ?_⟩
  cases change with
  | emit content plain =>
    have alike : state.callStack.Alike (state.output.push state.callStack content).2 :=
      (Output.pushed_push plain).stack
    exact threads.current alike.index alike.waiting alike.counter
  | temporary assigned =>
    have alike := alike_setTemporary assigned
    exact threads.current alike.index alike.waiting alike.counter
  | evaluating | point | advance | down | depart | land | pushFrame =>
    exact threads.current rfl rfl rfl
  | visit visits => exact (numbered.counted (counted_visitAll program state visits)).threads
  | dropChoices => exact threads.dropChoices
  | offer origin point choice holds thread target index => exact threads.offer thread index
  | take choice offered => exact .alone (threads.choice_le offered)
  | renumber => exact threads.renumber
  | dropFrame =>
    have kept : state.callStack.drop.current.index = state.callStack.current.index ∧
        state.callStack.drop.waiting = state.callStack.waiting ∧
        state.callStack.drop.counter = state.callStack.counter := by
      unfold CallStack.drop
      split <;> exact ⟨rfl, rfl, rfl⟩
    exact threads.current kept.1 kept.2.1 kept.2.2
  | pushThread => exact threads.pushThread
  | popThread => exact threads.popThread
  | forceEnd => exact .alone (Nat.zero_le _)
  | stack | trim | endString | endTag | divert | warn | beginTurn | draw | exitSafely | write =>
    exact threads

/-- The numbers of a state are those of another with the same threads and choices. -/
theorem Numbered.congr {other : State} (numbered : state.Numbered)
    (callStack : other.callStack = state.callStack) (choices : other.choices = state.choices)
    (evaluation : other.evaluation = state.evaluation)
    (output : ∀ content ∈ other.output.stream, content.isPlain) : other.Numbered where
  evaluation := by
    rw [evaluation]
    exact numbered.evaluation
  output := output
  threads := by
    rw [callStack, choices]
    exact numbered.threads

theorem numbered_atStart (config : Config) : (atStart config).Numbered :=
  ⟨⟨forall_mem_nil _, forall_mem_nil _⟩, .alone (Nat.le_refl _)⟩

theorem invariant_numbered (program : Program) : Invariant program Numbered where
  change changed numbered := numbered.change changed
  startPatch numbered := numbered.congr rfl rfl rfl numbered.output
  applyPatch numbered := by
    unfold applyPatch
    split
    · exact numbered
    · exact numbered.congr rfl rfl rfl numbered.output
  reports _ _ numbered := numbered.congr rfl rfl rfl numbered.output
  aside _ _ numbered := numbered.congr rfl rfl rfl numbered.output
  cleared numbered := numbered.congr rfl rfl rfl (forall_mem_nil _)
  known numbered := numbered.congr rfl rfl rfl numbered.output
  restored numbered former := numbered.congr rfl rfl rfl former.output

theorem Numbered.apart (numbered : state.Numbered) : state.Apart := by
  obtain ⟨-, choices, apart⟩ := nodup_append.mp numbered.threads.distinct
  refine ⟨fun choice offered thread live => ?_, choices⟩
  exact apart _ (mem_map_of_mem live) _ (mem_map.mpr ⟨choice, offered, rfl⟩)

/-- The numbers of all threads, in the order in which they are listed. -/
theorem perm_numbers (state : State) :
    ((state.callStack.threads ++ state.choices.map Choice.thread).map index).Perm
      (state.callStack.numbers state.choices) := by
  rw [map_append, map_map]
  exact (state.callStack.live.reverse_perm.map _).append_right _

theorem Numbered.distinct (numbered : state.Numbered) :
    ((state.callStack.threads ++ state.choices.map Choice.thread).map index).Nodup :=
  (perm_numbers state).nodup_iff.mpr numbered.threads.distinct

theorem Numbered.given (numbered : state.Numbered)
    (member : thread ∈ state.callStack.threads ++ state.choices.map Choice.thread) :
    thread.index ≤ state.callStack.counter :=
  numbered.threads.given _ ((perm_numbers state).mem_iff.mp (mem_map_of_mem member))

/-- No thread that runs or waits is taken for that of a choice. -/
theorem Numbered.dead (numbered : state.Numbered) (offered : choice ∈ state.choices) :
    state.callStack.thread? choice.thread.index = none := by
  rw [thread?, find?_eq_none]
  intro thread member
  simpa using numbered.apart.live choice offered thread (mem_threads.mp member)

theorem Numbered.position {position : Nat} (numbered : state.Numbered)
    (shown : (state.choices.filter fun choice => !choice.isInvisible)[position]? = some choice) :
    choice.index = position := by
  have index :
      (range (state.choices.filter fun choice => !choice.isInvisible).length)[position]? =
        some choice.index := by
    rw [← numbered.threads.positions, getElem?_map, shown]
    rfl
  obtain ⟨_, same⟩ := List.getElem?_eq_some_iff.mp index
  rw [← same, getElem_range]

end State

/-! ### Numbers in saves

A save keeps the numbers, also where it is loaded by a story of another program. -/

theorem Gives.mapM_map {α β γ ε : Type} {read : β → Except ε γ} {write : α → β}
    {related : α → γ → Prop} {records : List α}
    (each : ∀ record ∈ records, Gives (related record) (read (write record))) :
    Gives (Forall₂ related records) ((records.map write).mapM read) := by
  rw [List.mapM_map]
  exact Gives.mapM each

theorem map_eq_map_of_forall₂ {α β γ : Type} {lefts : List α} {rights : List β} {left : α → γ}
    {right : β → γ}
    (same : Forall₂ (fun first second => right second = left first) lefts rights) :
    rights.map right = lefts.map left := by
  induction same with
  | nil => rfl
  | cons here _ ih => rw [map_cons, map_cons, here, ih]

theorem SavedThread.gives_index (program : Program) (saved : SavedThread) :
    Gives (fun found => found.1.index = saved.index) (saved.restore program) := by
  refine gives_bind fun frames => gives_bind fun previous => ?_
  unfold ofFrames?
  cases (frames.map Prod.fst).reverse with
  | nil => exact gives_error _
  | cons top below => exact gives_ok rfl

namespace CallStack

variable {threads : List Thread}

theorem ofThreads?_eq_some (found : CallStack.ofThreads? threads counter = some stack) :
    stack.threads = threads ∧ stack.counter = counter := by
  unfold CallStack.ofThreads? at found
  split at found
  · next current waiting order =>
    cases found
    refine ⟨?_, rfl⟩
    rw [CallStack.threads, ← order, reverse_reverse]
  · contradiction

end CallStack

namespace Choice

/-- A choice with the numbers of another, which is shown if that is. -/
structure Alike (choice other : Choice) : Prop where
  index : other.index = choice.index
  isInvisible : other.isInvisible = choice.isInvisible
  thread : other.thread.index = choice.thread.index

theorem Alike.shown (alike : Forall₂ Alike choices others) :
    Forall₂ Alike (choices.filter fun choice => !choice.isInvisible)
      (others.filter fun choice => !choice.isInvisible) := by
  induction alike with
  | nil => exact .nil
  | @cons choice other _ _ here _ ih =>
    simp only [filter_cons, here.isInvisible]
    split
    · exact .cons here ih
    · exact ih

end Choice

/-- Threads and choices with the numbers of others are numbered if those are. -/
theorem CallStack.Numbered.alike {other : CallStack} (numbered : stack.Numbered choices)
    (threads : other.threads.map index = stack.threads.map index)
    (counter : other.counter = stack.counter) (alike : Forall₂ Choice.Alike choices others) :
    other.Numbered others := by
  have live : other.live.map index = stack.live.map index := by
    simpa [CallStack.threads, CallStack.live, and_comm] using threads
  have offered : others.map (fun choice => choice.thread.index) =
      choices.map fun choice => choice.thread.index :=
    map_eq_map_of_forall₂ (alike.imp fun _ _ same => same.thread)
  have numbers : other.numbers others = stack.numbers choices := by
    rw [CallStack.numbers, CallStack.numbers, live, offered]
  have shown := Choice.Alike.shown alike
  refine ⟨?_, ?_, ?_⟩
  · rw [numbers]
    exact numbered.distinct
  · rw [numbers, counter]
    exact numbered.given
  · rw [map_eq_map_of_forall₂ (shown.imp fun _ _ same => same.index), ← shown.length_eq]
    exact numbered.positions

namespace State

variable {origin : Program} {saveDefaults : Bool}

/-- A choice is read with the thread that was stored for it. -/
theorem Apart.gives_choice (program origin : Program) (apart : state.Apart)
    (offered : choice ∈ state.choices)
    (threads : stack.threads.map index = state.callStack.threads.map index) :
    Gives (fun found => choice.Alike found.1)
      (choice.save.restore program stack (state.rereadThreads origin)) := by
  have dead : stack.thread? choice.thread.index = none := by
    rw [thread?, find?_eq_none]
    intro thread member
    have among := mem_map_of_mem (f := index) member
    rw [threads] at among
    obtain ⟨former, there, same⟩ := mem_map.mp among
    rw [← same]
    simpa using apart.live choice offered former (mem_threads.mp there)
  have stored := lookup_rereadThreads origin apart offered
  have number : choice.save.thread = choice.thread.index := rfl
  rw [SavedChoice.restore, number, dead, stored]
  refine (SavedThread.gives_index program _).bind fun found same => ?_
  exact gives_ok ⟨rfl, rfl, same⟩

/-- Where a saved story stands, the threads have the numbers they had. -/
theorem Numbered.gives_flow (numbered : state.Numbered) :
    Gives (fun flow => flow.callStack.Numbered flow.choices)
      ((state.save origin saveDefaults).reread.restoreFlow program) := by
  have threads : (state.save origin saveDefaults).reread.threads =
      state.callStack.threads.map fun thread => (thread.save origin).reread := by
    simp [save, Save.reread]
  rw [Save.restoreFlow, threads]
  have readThreads : Gives (Forall₂
      (fun (thread : Thread) (found : Thread × List Warning) => found.1.index = thread.index)
      state.callStack.threads) _ :=
    Gives.mapM_map fun thread _ => SavedThread.gives_index program (thread.save origin).reread
  refine readThreads.bind fun founds same => ?_
  cases running : ofThreads? (founds.map Prod.fst)
      (state.save origin saveDefaults).reread.threadCounter with
  | none => exact gives_error _
  | some stack =>
    obtain ⟨listed, counter⟩ := ofThreads?_eq_some running
    have indices : stack.threads.map index = state.callStack.threads.map index := by
      rw [listed, map_map]
      exact map_eq_map_of_forall₂ same
    have readChoices : Gives (Forall₂
        (fun (choice : Choice) (found : Choice × List Warning) => choice.Alike found.1)
        state.choices) _ :=
      Gives.mapM_map fun choice offered =>
        numbered.apart.gives_choice program origin offered indices
    refine readChoices.bind fun choices alike => gives_bind fun globals => ?_
    refine gives_bind fun diverted => gives_ok ?_
    refine numbered.threads.alike indices counter ?_
    rwa [forall₂_map_right_iff]

/-- A load of a save that was written leaves a state with numbers, also where it fails. -/
theorem Numbered.load {saved : State} (numbered : state.Numbered) (former : saved.Numbered)
    (fits : saved.Fits) :
    (leaves (Run.load program (saved.save origin saveDefaults).write.render state)).Numbered := by
  have stored {contents : List Content} (plain : ∀ content ∈ contents, content.isPlain) :
      ∀ content ∈ contents.map Content.stored, content.isPlain :=
    forall_mem_map.mpr fun content member => Content.isPlain_stored (plain content member)
  cases flow : (saved.save origin saveDefaults).reread.restoreFlow program with
  | error fault =>
    rw [load_of_lost former.apart former.toPlain fits state flow]
    exact numbered
  | ok found =>
    rw [load_of_flow former.apart former.toPlain fits state flow]
    exact (invariant_numbered _).warnAll ⟨⟨stored former.evaluation, stored former.output⟩,
      former.gives_flow found flow⟩ found.warnings

end State

/-! ### Stories -/

namespace Story

variable {story : Story}

/-- A story that a host began, and led on by operations of which none met an endless line. What it
loads are saves of such stories, of whatever program, whose numbers can be stored. -/
inductive Genuine : Story → Prop where
  | start {program : Program} {config : Config} {story : Story}
      (started : Story.start program config = .ok story) : Genuine story
  | after {story : Story} (genuine : Genuine story) (operation : Operation)
      (own : ∀ text, operation ≠ .load text)
      (ends : ∀ left, operation.perform story ≠ .error .endless left) :
      Genuine (operation.after story)
  | load {story saved : Story} (genuine : Genuine story) (origin : Genuine saved)
      (fits : saved.state.Fits) :
      Genuine ((Operation.load saved.save.write.render).after story)

/-- Threads and choices are numbered, also where a story may go back to. -/
theorem Genuine.numbered (genuine : story.Genuine) :
    story.Throughout story.program Numbered := by
  have self {story : Story} {program : Program}
      (numbered : story.Throughout program Numbered) :
      story.Throughout story.program Numbered := ⟨rfl, numbered.state, numbered.snapshot⟩
  induction genuine with
  | start started =>
    exact self (throughout_start (invariant_numbered _) numbered_atStart started)
  | after _ _ own _ numbered =>
    exact self (numbered.operation (invariant_numbered _) numbered_atStart own)
  | load _ _ fits numbered origin =>
    exact self (numbered.load (numbered.state.load origin.state fits))

theorem Played.genuine (played : Played program story) : story.Genuine := by
  induction played with
  | start started => exact .start started
  | after _ operation own ends genuine => exact .after genuine operation own ends
  | load _ _ fits genuine origin => exact .load genuine origin fits

/-- Wherever a host leads a story, and wherever that may go back to, every thread has a frame, the
threads that run or wait and those of choices have numbers of their own that were given out, so no
choice is saved with a thread that runs or waits, and the choices that are shown are numbered in
their order. -/
theorem Genuine.numbers_apart (genuine : story.Genuine) :
    ∀ state ∈ story.state :: story.snapshot.toList,
      state.callStack.threads ≠ [] ∧
      (∀ thread ∈ state.callStack.threads ++ state.choices.map Choice.thread,
        thread.frames ≠ [] ∧ thread.index ≤ state.callStack.counter) ∧
      ((state.callStack.threads ++ state.choices.map Choice.thread).map Thread.index).Nodup ∧
      (∀ choice ∈ state.choices, state.callStack.thread? choice.thread.index = none) ∧
      ∀ (position : Nat) (choice : Choice),
        (state.choices.filter fun choice => !choice.isInvisible)[position]? = some choice →
        choice.index = position := by
  intro state reached
  have numbered : state.Numbered := by
    rcases List.mem_cons.mp reached with rfl | kept
    · exact genuine.numbered.state
    · exact genuine.numbered.snapshot state (Option.mem_toList.mp kept)
  refine ⟨by simp [CallStack.threads], fun thread member => ⟨by simp [frames], ?_⟩,
    numbered.distinct, fun choice => numbered.dead, fun position choice => numbered.position⟩
  exact numbered.given member

theorem numbers_apart_with_choice :
    ∃ saved fresh, saved.Genuine ∧ saved.state.choices.length = 1 ∧
      ((Operation.load saved.save.write.render).after fresh).Genuine ∧
      ∀ story ∈ [saved, (Operation.load saved.save.write.render).after fresh],
        ∀ choice ∈ story.state.choices,
          story.state.callStack.thread? choice.thread.index = none := by
  obtain ⟨fresh, started, saved, done, fits, choice⟩ :
      ∃ fresh, start moodProgram {} = .ok fresh ∧
        ∃ saved, Operation.performAll [.nextLine] fresh = .ok () saved ∧ saved.state.Fits ∧
          saved.state.choices.length = 1 := by
    decide +kernel
  have played := (Played.start started).performAll (by simp) done
  have loaded : ((Operation.load saved.save.write.render).after fresh).Genuine :=
    .load (.start started) played.genuine fits
  refine ⟨saved, fresh, played.genuine, choice, loaded, fun story listed => ?_⟩
  have genuine : story.Genuine := by
    rcases List.mem_cons.mp listed with rfl | last
    · exact played.genuine
    · rw [mem_singleton.mp last]
      exact loaded
  exact (genuine.numbers_apart story.state mem_cons_self).2.2.2.1

end Story

end InkStory
