import InkStory.Proofs.CarryingOut

/-! # Frames along a walk

A step passes moments: its object is carried out, and then functions and threads that reached their
end are left one after another. Between two of them the call stack makes one shift
(`Story.Takes.chain_later`), so a frame that is there at all moments of a walk keeps those beneath it
(`Story.Walks.stays`), and a thread that waits at all of them is kept (`Story.Walks.waits`). -/

namespace InkStory

open List Play

variable {outer : State} {place : Place} {content : Content} {position height : Nat}
  {middle last : Story} {steps : List Story}

/-! ### Moving on -/

/-- There is a frame at least. -/
theorem CallStack.exists_frameCount (stack : CallStack) : ∃ count, stack.frameCount = count + 1 := by
  have grows (threads : List Thread) (start : Nat) :
      start ≤ threads.foldr (fun thread count => thread.depth + count) start := by
    induction threads with
    | nil => exact Nat.le_refl _
    | cons thread rest ih => exact Nat.le_add_left_of_le ih
  have own := grows stack.waiting.reverse stack.current.depth
  have frames : stack.frameCount =
      stack.waiting.reverse.foldr (fun thread count => thread.depth + count) stack.current.depth := by
    rw [frameCount, threads_eq, foldr_append]
    rfl
  have top : stack.current.depth = stack.current.below.length + 1 := rfl
  exact ⟨stack.frameCount - 1, by omega⟩

namespace State

variable {program : Program} {state : State}

theorem callStack_visitEntered (program : Program) (state : State) :
    (state.visitEntered program).callStack = state.callStack := by
  rw [(counted_visitEntered program state).eq]

theorem quiet_increment : state.callStack.Quiet (state.increment program).callStack := by
  unfold increment
  split
  · exact CallStack.quiet_setPointer _
  · exact .refl _

/-- Moving on comes to the end of a function or thread, leaves it and goes on from there. -/
def leavesOne (program : Program) (state : State) : Bool :=
  let moved := (state.setPrevious state.pointer).increment program
  state.diverted.isNone && moved.pointer.isNone &&
    moved.unwind?.any fun outer => outer.pointer.isSome

/-- Moving on leaves functions and threads one after another. -/
theorem moveOnWithin_succ (limit : Nat) :
    state.moveOnWithin program (limit + 1) =
      if state.leavesOne program then (state.moveOnWithin program 1).moveOnWithin program limit
      else state.moveOnWithin program 1 := by
  have nowhere : (state.setPrevious state.pointer).diverted = state.diverted := rfl
  simp only [moveOnWithin, leavesOne, nowhere]
  cases state.diverted with
  | some pointer => rfl
  | none =>
    cases moved : ((state.setPrevious state.pointer).increment program).pointer with
    | some pointer => rfl
    | none =>
      cases ((state.setPrevious state.pointer).increment program).unwind? with
      | none => rfl
      | some outer => cases there : outer.pointer <;> simp [there]

theorem steady_unwind {reaches : String → Nat → Prop} (unwound : state.unwind? = some outer) :
    state.callStack.Steady reaches outer.callStack := by
  rcases Run.unwind?_cases unwound with rfl | rfl
  · have left : state.returnFromFunction.callStack = state.callStack.drop := by
      simp only [returnFromFunction]
      split <;> rfl
    rw [left]
    exact CallStack.steady_drop
  · exact CallStack.steady_popThread

/-- One function or thread is left at once. -/
theorem steady_moveOnce :
    state.callStack.Steady (fun _ _ => False) (state.moveOnWithin program 1).callStack := by
  have departed : state.callStack.Quiet (state.setPrevious state.pointer).callStack :=
    ⟨rfl, rfl, rfl, rfl⟩
  rw [moveOnWithin]
  generalize state.setPrevious state.pointer = behind at departed ⊢
  dsimp only
  split
  · rw [callStack_visitEntered]
    exact (departed.trans (CallStack.quiet_setPointer _)).steady
  · have moved : state.callStack.Quiet (behind.increment program).callStack :=
      departed.trans quiet_increment
    split
    · exact moved.steady
    · split
      · next outer unwound =>
        rw [moveOnWithin, ite_self]
        exact moved.steady_trans (steady_unwind unwound)
      · split
        · exact (moved.trans (CallStack.quiet_setPointer none)).steady
        · exact moved.steady

/-- Between the moments of moving on, one function or thread is left at most. -/
theorem steady_moveOnWithin (limit : Nat) :
    (state.moveOnWithin program limit).callStack.Steady (fun _ _ => False)
      (state.moveOnWithin program (limit + 1)).callStack := by
  induction limit generalizing state with
  | zero => exact steady_moveOnce
  | succ limit ih =>
    rw [moveOnWithin_succ limit, moveOnWithin_succ (limit + 1)]
    split
    · exact ih
    · exact .refl _

theorem diverted_increment : (state.increment program).diverted = state.diverted := by
  unfold increment
  split <;> rfl

theorem diverted_unwind (unwound : state.unwind? = some outer) :
    outer.diverted = state.diverted := by
  rcases Run.unwind?_cases unwound with rfl | rfl
  · simp only [returnFromFunction]
    split <;> rfl
  · rfl

theorem diverted_moveOnce : (state.moveOnWithin program 1).diverted = none := by
  rw [moveOnWithin]
  have kept : (state.setPrevious state.pointer).diverted = state.diverted := rfl
  generalize state.setPrevious state.pointer = behind at kept ⊢
  dsimp only
  split
  · rw [(counted_visitEntered program _).eq]
    rfl
  · next nowhere =>
    have moved : (behind.increment program).diverted = none := diverted_increment.trans nowhere
    split
    · exact moved
    · split
      · next outer unwound =>
        rw [moveOnWithin, ite_self]
        exact (diverted_unwind unwound).trans moved
      · split
        · exact moved
        · exact moved

/-- Having moved on, a story is not diverted. -/
theorem diverted_moveOn : (state.moveOn program).diverted = none := by
  have some_ (limit : Nat) (state : State) :
      (state.moveOnWithin program (limit + 1)).diverted = none := by
    induction limit generalizing state with
    | zero => exact diverted_moveOnce
    | succ limit ih =>
      rw [moveOnWithin_succ]
      split
      · exact ih _
      · exact diverted_moveOnce
  obtain ⟨count, frames⟩ := state.callStack.exists_frameCount
  rw [moveOn, frames]
  exact some_ count state

/-- A divert is followed in the running frame. -/
theorem moveOn_of_diverted {pointer : Pointer} (diverted : state.diverted = some pointer) :
    state.callStack.Quiet (state.moveOn program).callStack := by
  obtain ⟨count, frames⟩ := state.callStack.exists_frameCount
  have kept : (state.setPrevious state.pointer).diverted = some pointer := diverted
  rw [moveOn, frames, moveOnWithin]
  rw [kept]
  rw [callStack_visitEntered]
  exact ⟨rfl, rfl, rfl, rfl⟩

/-- Without a divert a story goes on to the object that follows, in the running frame. -/
theorem moveOn_of_next {here next : Pointer} (diverted : state.diverted = none)
    (stands : state.pointer = some here) (follows : program.next? here = some next) :
    state.moveOn program = (state.setPrevious state.pointer).setPointer (some next) := by
  obtain ⟨count, frames⟩ := state.callStack.exists_frameCount
  have kept : (state.setPrevious state.pointer).diverted = none := diverted
  have moved : (state.setPrevious state.pointer).increment program =
      (state.setPrevious state.pointer).setPointer (some next) := by
    have standsToo : (state.setPrevious state.pointer).pointer = some here := stands
    rw [increment, standsToo]
    dsimp only
    rw [follows]
  rw [moveOn, frames, moveOnWithin]
  rw [kept, moved]
  rfl

end State

/-! ### The moments of a step -/

namespace Story

open CallStack

variable {story next : Story}

/-- The next step assigns a temporary variable of the frame at a height through a pointer. -/
def Reaches (story : Story) (name : String) (height : Nat) : Prop :=
  ∃ place content, story.object? = some (place, content) ∧
    story.descended.state.Reaches story.program content name height

/-- The next step ends the story by force. -/
def forcesEnd (story : Story) : Bool :=
  story.object?.any fun object => object.2 = .command .finish

/-- The call stack at the moments of the next step: before it, when its object is carried out, each
time that one more function or thread is left, and behind it. -/
def moments (story : Story) : List CallStack :=
  let carried := story.carriedOut.state
  let limit := if carried.pointer.isNone then 0 else carried.callStack.frameCount
  story.state.callStack ::
    ((range (limit + 1)).map fun count =>
      (carried.moveOnWithin story.program count).callStack) ++ [story.movedOn.callStack]

theorem quiet_descended (story : Story) :
    story.state.callStack.Quiet story.descended.state.callStack := by
  unfold descended
  split
  · next start _ =>
    change story.state.callStack.Quiet (story.state.descend story.program start).callStack
    rw [(State.counted_descend ..).eq]
    exact quiet_setPointer _
  · exact .refl _

theorem holds_of_object (object : story.object? = some (place, content)) :
    story.descended.program.Holds place content := by
  obtain ⟨pointer, -, found⟩ := Option.bind_eq_some_iff.mp object
  exact ⟨pointer, story.program_descended ▸ found⟩

section

variable (takes : story.Takes next)

include takes

theorem Takes.carried_cases (object : story.object? = some (place, content))
    (goesOn : story.forcesEnd = false) :
    Run.Carried (story.descended.state.Reaches story.program content) content
      story.descended.state story.carriedOut.state := by
  have going : content ≠ .command .finish := by
    simpa [forcesEnd, object] using goesOn
  have carried := carried_carryOut (holds_of_object object) going (takes.carried object)
  rw [program_descended] at carried
  exact carried.2

theorem Takes.steady_carriedOut (goesOn : story.forcesEnd = false) :
    story.state.callStack.Steady story.Reaches story.carriedOut.state.callStack := by
  cases object : story.object? with
  | none =>
    have idle : story.carriedOut = story.descended := by rw [carriedOut, object]
    rw [idle]
    exact story.quiet_descended.steady
  | some found =>
    obtain ⟨place, content⟩ := found
    have reached (name : String) (height : Nat)
        (reaches : story.descended.state.Reaches story.program content name height) :
        story.Reaches name height := ⟨place, content, object, reaches⟩
    cases takes.carried_cases object goesOn with
    | quiet quiet => exact (story.quiet_descended.trans quiet).steady
    | call isDivert still pushed diverted =>
      rw [pushed]
      exact (story.quiet_descended.trans still.quiet).steady_trans (steady_push _ _ _)
    | back left =>
      rw [left]
      exact story.quiet_descended.steady_trans steady_drop
    | join joined =>
      rw [joined]
      exact story.quiet_descended.steady_trans steady_popThread
    | assign assigned reaches =>
      exact story.quiet_descended.steady_trans
        (steady_setTemporary assigned fun height beneath named => reached _ _ (reaches height beneath named))

/-- From the moment that its object is carried out, a step assigns nothing. -/
theorem Takes.chain_later :
    story.moments.tail.IsChain (Steady fun _ _ => False) ∧
      story.moments.tail.head? = some story.carriedOut.state.callStack ∧
      story.moments.tail.getLast? = some next.state.callStack := by
  have ends : (story.carriedOut.state.moveOnWithin story.program
      (if story.carriedOut.state.pointer.isNone then 0
      else story.carriedOut.state.callStack.frameCount)).callStack.Steady (fun _ _ => False)
        story.movedOn.callStack := by
    unfold movedOn
    split
    · exact .refl _
    · dsimp only
      split
      · exact steady_pushThread
      · exact .refl _
  simp only [moments, takes.state]
  refine ⟨isChain_append.mpr ⟨?_, isChain_singleton _, ?_⟩, ?_, ?_⟩
  · rw [isChain_map, isChain_range_succ]
    exact fun count _ => State.steady_moveOnWithin count
  · intro moment last behind same
    rw [range_succ, map_append, map_singleton, getLast?_concat] at last
    cases last
    cases same
    exact ends
  · rw [range_succ_eq_map]
    rfl
  · exact getLast?_concat

/-- Over a step a frame stays that is there at all of its moments. -/
theorem Takes.stays (goesOn : story.forcesEnd = false)
    (there : ∀ moment ∈ story.moments, (moment.frameAt? position height).isSome) :
    Stays (fun name lower => story.Reaches name lower ∧
        position = story.state.callStack.waiting.length) position height
      story.state.callStack next.state.callStack := by
  obtain ⟨chain, first, last⟩ := takes.chain_later
  have later (moment : CallStack) (member : moment ∈ story.moments.tail) :=
    there moment (mem_of_mem_tail member)
  have carried : (story.carriedOut.state.callStack.frameAt? position height).isSome :=
    later _ (mem_of_mem_head? first)
  have start := (takes.steady_carriedOut goesOn).stays (there _ mem_cons_self) carried
  exact start.trans ((stays_of_chain chain later first last).mono fun _ _ => False.elim)

/-- Over a step a thread is kept that waits at all of its moments. -/
theorem Takes.waits (goesOn : story.forcesEnd = false)
    (waits : ∀ moment ∈ story.moments, position < moment.waiting.length) :
    next.state.callStack.threads[position]? = story.state.callStack.threads[position]? := by
  obtain ⟨chain, first, last⟩ := takes.chain_later
  have later (moment : CallStack) (member : moment ∈ story.moments.tail) :=
    waits moment (mem_of_mem_tail member)
  rw [waits_of_chain chain later first last]
  exact (takes.steady_carriedOut goesOn).waits (waits _ mem_cons_self)
    (later _ (mem_of_mem_head? first))

end

/-! ### Walks -/

/-- A story stands where another does. -/
structure StandsBy (story other : Story) : Prop where
  program : other.program = story.program
  callStack : other.state.callStack = story.state.callStack
  diverted : other.state.diverted = story.state.diverted

theorem StandsBy.refl (story : Story) : story.StandsBy story := ⟨rfl, rfl, rfl⟩

theorem StandsBy.trans (first : story.StandsBy middle) (second : middle.StandsBy next) :
    story.StandsBy next :=
  ⟨second.program.trans first.program, second.callStack.trans first.callStack,
    second.diverted.trans first.diverted⟩

/-- A walk: a story takes steps, of which none fails or ends it by force, and which are listed. Between
steps everything may change but where the story stands, as it does where lines begin and end and while
the story looks ahead; no choice is taken. -/
inductive Walks : Story → List Story → Story → Prop where
  | stay (story : Story) : Walks story [] story
  | step {story next last : Story} {steps : List Story} (goesOn : story.forcesEnd = false)
      (taken : Play.step story = .ok () next) (rest : Walks next steps last) :
      Walks story (story :: steps) last
  | aside {story other last : Story} {steps : List Story} (stands : story.StandsBy other)
      (rest : Walks other steps last) : Walks story steps last

/-- The call stack at all moments of steps that end at a story. -/
def trail (steps : List Story) (last : Story) : List CallStack :=
  steps.flatMap moments ++ [last.state.callStack]

theorem mem_trail_cons {moment : CallStack} :
    moment ∈ trail (story :: steps) last ↔ moment ∈ story.moments ∨ moment ∈ trail steps last := by
  simp [trail]

theorem Walks.stays (walk : story.Walks steps last)
    (there : ∀ moment ∈ trail steps last, (moment.frameAt? position height).isSome) :
    Stays (fun name lower => ∃ step ∈ steps, step.Reaches name lower ∧
        position = step.state.callStack.waiting.length) position height
      story.state.callStack last.state.callStack := by
  induction walk with
  | stay story =>
    have here := there story.state.callStack mem_cons_self
    exact ((Steady.refl _).stays here here).mono fun _ _ reached => reached.1
  | @step story next last steps goesOn taken rest ih =>
    have takes := takes_of_step taken
    have first := takes.stays goesOn fun moment member => there moment (mem_trail_cons.mpr (.inl member))
    have others := ih fun moment member => there moment (mem_trail_cons.mpr (.inr member))
    refine (first.mono ?_).trans (others.mono ?_)
    · rintro name lower reached
      exact ⟨story, mem_cons_self, reached⟩
    · rintro name lower ⟨step, member, reached⟩
      exact ⟨step, mem_cons_of_mem _ member, reached⟩
  | aside stands rest ih =>
    rw [← stands.callStack]
    exact ih there

theorem Walks.waits (walk : story.Walks steps last)
    (waits : ∀ moment ∈ trail steps last, position < moment.waiting.length) :
    last.state.callStack.threads[position]? = story.state.callStack.threads[position]? := by
  induction walk with
  | stay story => rfl
  | @step story next last steps goesOn taken rest ih =>
    rw [ih fun moment member => waits moment (mem_trail_cons.mpr (.inr member))]
    exact (takes_of_step taken).waits goesOn fun moment member =>
      waits moment (mem_trail_cons.mpr (.inl member))
  | aside stands rest ih =>
    rw [← stands.callStack]
    exact ih waits

theorem Walks.program_eq (walk : story.Walks steps last) : last.program = story.program := by
  induction walk with
  | stay story => rfl
  | step goesOn taken rest ih => exact ih.trans (takes_of_step taken).program
  | aside stands rest ih => exact ih.trans stands.program

/-- A story is not diverted between steps, unless it stopped. -/
def Landed (story : Story) : Prop := story.state.diverted = none ∨ story.state.pointer = none

theorem Takes.landed (takes : story.Takes next) : next.Landed := by
  unfold Landed
  rw [takes.state, movedOn]
  split
  · next stopped => exact .inr (Option.isNone_iff_eq_none.mp stopped)
  · dsimp only
    split
    · exact .inl State.diverted_moveOn
    · exact .inl State.diverted_moveOn

theorem Walks.landed (walk : story.Walks steps last) (landed : story.Landed) : last.Landed := by
  induction walk with
  | stay story => exact landed
  | step goesOn taken rest ih => exact ih (takes_of_step taken).landed
  | aside stands rest ih =>
    apply ih
    unfold Landed State.pointer at landed ⊢
    rwa [stands.callStack, stands.diverted]

/-! ### Steps of a line -/

/-- Behind the next step the story stops where it has nothing to offer but invisible choices, of which
it takes one. -/
def takesChoice (story : Story) : Bool :=
  let after := (leaves (step story)).state
  !after.canContinue && !after.callStack.inHostCall && !after.choices.isEmpty &&
    after.choices.all Choice.isInvisible

theorem standsBy_keepLookahead (story : Story) : story.StandsBy story.keepLookahead := by
  have applied : story.state.applyPatch.callStack = story.state.callStack ∧
      story.state.applyPatch.diverted = story.state.diverted := by
    unfold State.applyPatch
    split <;> exact ⟨rfl, rfl⟩
  unfold keepLookahead settle
  split
  · exact ⟨rfl, rfl, rfl⟩
  · exact ⟨rfl, applied.1, applied.2⟩

/-- Unless it goes back to the end of the line, the story stays where it stands. -/
theorem standsBy_checkLine (checked : checkLine story = .ok false next) :
    story.StandsBy next := by
  have known : story.StandsBy story.workOutText := ⟨rfl, rfl, rfl⟩
  obtain ⟨-, back⟩ | ⟨middle, _, same, first, second⟩ := checkLine_cases story
  · cases checked.symm.trans back
  · cases checked.symm.trans same
    have reached : story.StandsBy middle := by
      rcases first with rfl | rfl | rfl
      · exact .refl _
      · exact known
      · exact known.trans (standsBy_keepLookahead _)
    rcases second with rfl | rfl | ⟨-, -, rfl⟩
    · exact reached
    · exact reached.trans (standsBy_keepLookahead _)
    · exact reached.trans ⟨rfl, rfl, rfl⟩

/-- A step of a line is a step of a walk, unless the story takes a choice behind it or goes back to
the end of the line. -/
theorem walks_of_singleStep (goesOn : story.forcesEnd = false) (noChoice : story.takesChoice = false)
    (taken : singleStep story = .ok false next) : story.Walks [story] next := by
  obtain ⟨_, after, stepped, taken⟩ := bind_eq_ok_iff.mp taken
  obtain ⟨_, middle, left, checked⟩ := bind_eq_ok_iff.mp taken
  have stays : middle = after := by
    rw [leaveDeadEnd, get_bind_apply] at left
    split at left
    · next deadEnd =>
      rw [followInvisibleChoice, get_bind_apply] at left
      simp only [takesChoice, stepped, leaves, deadEnd] at noChoice
      cases offered : after.state.choices with
      | nil =>
        rw [offered] at left
        cases left
        rfl
      | cons choice others =>
        rw [offered] at left noChoice
        simp only [isEmpty_cons, Bool.not_false, Bool.true_and] at noChoice
        dsimp only at left
        rw [if_neg (by rw [noChoice]; exact Bool.false_ne_true)] at left
        cases left
        rfl
    · cases left
      rfl
  rw [stays] at checked
  exact .step goesOn stepped (.aside (standsBy_checkLine checked) (.stay next))

theorem Walks.trans {others : List Story} (first : story.Walks steps middle)
    (second : middle.Walks others last) : story.Walks (steps ++ others) last := by
  induction first with
  | stay story => exact second
  | step goesOn taken rest ih => exact .step goesOn taken (ih second)
  | aside stands rest ih => exact .aside stands (ih second)

/-- The stories from which a story takes a number of steps of its line, and the one that it comes
to; nothing if a step fails, ends it by force, takes a choice or goes back. -/
def walk? (story : Story) : Nat → Option (List Story × Story)
  | 0 => some ([], story)
  | count + 1 =>
    if story.forcesEnd || story.takesChoice then none
    else
      match singleStep story with
      | .ok false next => (next.walk? count).map fun (steps, last) => (story :: steps, last)
      | _ => none

theorem walks_of_walk? {count : Nat} (walked : story.walk? count = some (steps, last)) :
    story.Walks steps last := by
  induction count generalizing story steps with
  | zero =>
    cases walked
    exact .stay _
  | succ count ih =>
    rw [walk?] at walked
    split at walked
    · contradiction
    · next plain =>
      simp only [Bool.or_eq_true, not_or, Bool.not_eq_true] at plain
      split at walked
      · next next taken =>
        obtain ⟨⟨others, end_⟩, rest, same⟩ := Option.map_eq_some_iff.mp walked
        cases same
        exact (walks_of_singleStep plain.1 plain.2 taken).trans (ih rest)
      · contradiction

end Story

end InkStory
