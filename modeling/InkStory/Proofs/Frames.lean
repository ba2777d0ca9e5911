import InkStory.Proofs.Changes

/-! # Frames at rest

A call leaves the frames beneath it where they are, and a thread that waits is not touched. Whatever
evaluation does to a call stack is a few things: something happens in the running frame, a frame or a
thread is pushed or dropped, or a temporary variable is assigned. Over each of them a frame that lies
beneath another before and after it is kept, and so is a thread that waits (`CallStack.Steady`). -/

namespace InkStory

open List Option Thread

variable {frame after later : Frame} {thread : Thread} {height : Nat}

/-- A frame is where it was: where it stands, its kind, whether it evaluates and the height that it
remembers are kept. -/
structure Frame.Keeps (frame after : Frame) : Prop where
  pointer : after.pointer = frame.pointer
  kind : after.kind = frame.kind
  evaluating : after.evaluating = frame.evaluating
  stackHeight : after.stackHeight = frame.stackHeight

theorem Frame.Keeps.refl (frame : Frame) : frame.Keeps frame := ⟨rfl, rfl, rfl, rfl⟩

theorem Frame.Keeps.trans {middle : Frame} (first : frame.Keeps middle)
    (second : middle.Keeps after) : frame.Keeps after :=
  ⟨second.pointer.trans first.pointer, second.kind.trans first.kind,
    second.evaluating.trans first.evaluating, second.stackHeight.trans first.stackHeight⟩

/-- A frame without the mark of where its output begins, which output takes away even from frames
that rest. -/
def Frame.unmarked (frame : Frame) : Frame := { frame with outputStart := none }

theorem Frame.Keeps.of_unmarked (same : after.unmarked = frame.unmarked) :
    frame.Keeps after ∧ after.temporaries = frame.temporaries := by
  simp only [unmarked, Frame.mk.injEq] at same
  obtain ⟨pointer, evaluating, temporaries, kind, stackHeight, -⟩ := same
  exact ⟨⟨pointer, kind, evaluating, stackHeight⟩, temporaries⟩

/-! ### Frames by their height -/

namespace Thread

theorem reverse_frames (thread : Thread) :
    thread.frames.reverse = thread.below.reverse ++ [thread.top] := reverse_cons

theorem frameAt?_of_lt (beneath : height < thread.below.length) :
    thread.frameAt? height = thread.below.reverse[height]? := by
  rw [frameAt?, reverse_frames, getElem?_append_left (by simpa using beneath)]

theorem frameAt?_top (thread : Thread) : thread.frameAt? thread.below.length = some thread.top := by
  rw [frameAt?, reverse_frames]
  simp

theorem le_of_frameAt? (there : thread.frameAt? height = some frame) :
    height ≤ thread.below.length := by
  have within := (List.getElem?_eq_some_iff.mp there).1
  simp only [reverse_frames, length_append, length_reverse, length_singleton] at within
  omega

theorem exists_frameAt? (within : height ≤ thread.below.length) :
    ∃ frame, thread.frameAt? height = some frame := by
  have inside : height < thread.frames.reverse.length := by
    rw [reverse_frames]
    simp
    omega
  exact ⟨_, getElem?_eq_getElem inside⟩

theorem frames_modifyAt (thread : Thread) (height : Nat) (change : Frame → Frame) :
    (thread.modifyAt height change).frames.reverse = thread.frames.reverse.modify height change := by
  unfold modifyAt
  split
  · next top below modified =>
    have back := congrArg reverse modified
    rw [reverse_reverse] at back
    exact back.symm
  · next modified =>
    have nothing := congrArg length modified
    simp [reverse_frames] at nothing

theorem frameAt?_modifyAt (thread : Thread) (height other : Nat) (change : Frame → Frame) :
    (thread.modifyAt height change).frameAt? other =
      if height = other then (thread.frameAt? other).map change else thread.frameAt? other := by
  rw [frameAt?, frames_modifyAt, getElem?_modify]
  split <;> simp [frameAt?]

theorem length_below_modifyAt (thread : Thread) (height : Nat) (change : Frame → Frame) :
    (thread.modifyAt height change).below.length = thread.below.length := by
  have frames := congrArg length (thread.frames_modifyAt height change)
  simpa [Thread.frames] using frames

/-- A thread agrees with one that has more frames on top. -/
theorem agree_of_append {after : Thread} {others : List Frame}
    (more : after.frames.reverse = thread.frames.reverse ++ others)
    (here : thread.frameAt? height = some frame) (there : after.frameAt? height = some later) :
    later = frame := by
  have within := (List.getElem?_eq_some_iff.mp here).1
  rw [frameAt?, more, getElem?_append_left within] at there
  exact some.inj (there.symm.trans here)

end Thread

/-! ### Call stacks from one moment to the next -/

namespace CallStack

/-- The frame of a thread, counted from the first one, at a height above its bottom. -/
def frameAt? (stack : CallStack) (position height : Nat) : Option Frame :=
  stack.threads[position]?.bind fun thread => thread.frameAt? height

/-- Nothing happens but in the running frame, which stays of its kind; the frames beneath it may lose
the mark of where their output begins. -/
structure Quiet (stack after : CallStack) : Prop where
  waiting : after.waiting = stack.waiting
  below : after.current.below.map Frame.unmarked = stack.current.below.map Frame.unmarked
  kind : after.frame.kind = stack.frame.kind
  stackHeight : after.frame.stackHeight = stack.frame.stackHeight

/-- A frame stays: it is of the same kind, and those beneath it on its thread are kept. Of their
temporary variables those change only that `reaches` names, with the height of the frame. -/
structure Stays (reaches : String → Nat → Prop) (position height : Nat) (stack after : CallStack) :
    Prop where
  own : ∃ frame later, stack.frameAt? position height = some frame ∧
    after.frameAt? position height = some later ∧
    later.kind = frame.kind ∧ later.stackHeight = frame.stackHeight
  beneath : ∀ lower < height, ∃ frame later, stack.frameAt? position lower = some frame ∧
    after.frameAt? position lower = some later ∧ frame.Keeps later ∧
    ∀ name, later.temporaries.get? name ≠ frame.temporaries.get? name → reaches name lower

/-- From one moment to the next a frame stays that is there at both, and a thread is kept that waits at
both. -/
structure Steady (reaches : String → Nat → Prop) (stack after : CallStack) : Prop where
  stays : ∀ {position height : Nat}, (stack.frameAt? position height).isSome →
    (after.frameAt? position height).isSome →
    Stays (fun name lower => reaches name lower ∧ position = stack.waiting.length) position height
      stack after
  waits : ∀ {position : Nat}, position < stack.waiting.length → position < after.waiting.length →
    after.threads[position]? = stack.threads[position]?

variable {reaches : String → Nat → Prop} {stack middle after : CallStack} {position : Nat}
  {context : Context} {name : String} {value : Value} {declare : Bool} {moments : List CallStack}

theorem threads_eq (stack : CallStack) : stack.threads = stack.waiting.reverse ++ [stack.current] :=
  reverse_cons

theorem length_threads (stack : CallStack) : stack.threads.length = stack.waiting.length + 1 := by
  simp [threads_eq]

theorem threads_of_lt (waits : position < stack.waiting.length) :
    stack.threads[position]? = stack.waiting.reverse[position]? := by
  rw [threads_eq, getElem?_append_left (by simpa using waits)]

theorem threads_last (stack : CallStack) :
    stack.threads[stack.waiting.length]? = some stack.current := by
  rw [threads_eq]
  simp

theorem frameAt?_running (stack : CallStack) (height : Nat) :
    stack.frameAt? stack.waiting.length height = stack.current.frameAt? height := by
  rw [frameAt?, threads_last]
  rfl

theorem le_of_isSome (there : (stack.frameAt? position height).isSome) :
    position ≤ stack.waiting.length := by
  obtain ⟨frame, there⟩ := isSome_iff_exists.mp there
  obtain ⟨thread, there, -⟩ := bind_eq_some_iff.mp there
  have within := (List.getElem?_eq_some_iff.mp there).1
  rw [length_threads] at within
  omega

/-- Beneath a frame there are frames down to the bottom. -/
theorem exists_lower {lower : Nat} (isLower : lower ≤ height)
    (there : (stack.frameAt? position height).isSome) :
    ∃ frame, stack.frameAt? position lower = some frame := by
  obtain ⟨frame, there⟩ := isSome_iff_exists.mp there
  obtain ⟨thread, runs, has⟩ := bind_eq_some_iff.mp there
  obtain ⟨found, has⟩ := exists_frameAt? (isLower.trans (le_of_frameAt? has))
  exact ⟨found, bind_eq_some_iff.mpr ⟨thread, runs, has⟩⟩

/-- A frame stays if it and those beneath it do. -/
theorem stays_of_frames (here : (stack.frameAt? position height).isSome)
    (there : (after.frameAt? position height).isSome)
    (frames : ∀ lower frame later, lower ≤ height → stack.frameAt? position lower = some frame →
      after.frameAt? position lower = some later →
      (later.kind = frame.kind ∧ later.stackHeight = frame.stackHeight) ∧
        (lower < height → frame.Keeps later ∧ ∀ name,
          later.temporaries.get? name ≠ frame.temporaries.get? name → reaches name lower)) :
    Stays reaches position height stack after where
  own := by
    obtain ⟨frame, here⟩ := isSome_iff_exists.mp here
    obtain ⟨later, there⟩ := isSome_iff_exists.mp there
    exact ⟨frame, later, here, there, (frames height frame later le_rfl here there).1⟩
  beneath lower isLower := by
    obtain ⟨frame, here⟩ := exists_lower isLower.le here
    obtain ⟨later, there⟩ := exists_lower isLower.le there
    exact ⟨frame, later, here, there, (frames lower frame later isLower.le here there).2 isLower⟩

theorem Stays.trans (first : Stays reaches position height stack middle)
    (second : Stays reaches position height middle after) :
    Stays reaches position height stack after := by
  constructor
  · obtain ⟨frame, between, here, met, kind, stackHeight⟩ := first.own
    obtain ⟨same, later, metToo, there, kindToo, stackHeightToo⟩ := second.own
    cases met.symm.trans metToo
    exact ⟨frame, later, here, there, kindToo.trans kind, stackHeightToo.trans stackHeight⟩
  · intro lower isLower
    obtain ⟨frame, between, here, met, keeps, reached⟩ := first.beneath lower isLower
    obtain ⟨same, later, metToo, there, keepsToo, reachedToo⟩ := second.beneath lower isLower
    cases met.symm.trans metToo
    refine ⟨frame, later, here, there, keeps.trans keepsToo, fun name changed => ?_⟩
    by_cases since : later.temporaries.get? name = between.temporaries.get? name
    · exact reached name (since ▸ changed)
    · exact reachedToo name since

theorem Stays.mono {wider : String → Nat → Prop} (stays : Stays reaches position height stack after)
    (includes : ∀ name lower, reaches name lower → wider name lower) :
    Stays wider position height stack after where
  own := stays.own
  beneath lower isLower := by
    obtain ⟨frame, later, here, there, keeps, reached⟩ := stays.beneath lower isLower
    exact ⟨frame, later, here, there, keeps, fun name changed =>
      includes name lower (reached name changed)⟩

/-- A frame stays where it and those beneath it are the same. -/
theorem stays_of_agree (here : (stack.frameAt? position height).isSome)
    (there : (after.frameAt? position height).isSome)
    (agree : ∀ {lower frame later}, stack.frameAt? position lower = some frame →
      after.frameAt? position lower = some later → later = frame) :
    Stays reaches position height stack after := by
  refine stays_of_frames here there fun lower frame later _ here there => ?_
  obtain rfl := agree here there
  exact ⟨⟨rfl, rfl⟩, fun _ => ⟨.refl _, fun _ changed => absurd rfl changed⟩⟩

/-- Threads are kept where others are run or left on top of them. -/
theorem Steady.of_threads (agree : ∀ {position : Nat} {thread later : Thread},
    stack.threads[position]? = some thread →
    after.threads[position]? = some later → later = thread) : stack.Steady reaches after where
  stays here there := by
    refine stays_of_agree here there fun here there => ?_
    obtain ⟨thread, runs, here⟩ := bind_eq_some_iff.mp here
    obtain ⟨later, runsLater, there⟩ := bind_eq_some_iff.mp there
    obtain rfl := agree runs runsLater
    exact some.inj (there.symm.trans here)
  waits {position} here there := by
    have within : position < stack.threads.length := by rw [length_threads]; omega
    have withinLater : position < after.threads.length := by rw [length_threads]; omega
    have runs := getElem?_eq_getElem within
    have runsLater := getElem?_eq_getElem withinLater
    rw [runs, runsLater, agree runs runsLater]

theorem Steady.refl (stack : CallStack) : stack.Steady reaches stack :=
  .of_threads fun here there => some.inj (there.symm.trans here)

/-- Where only the running thread changes, the others are kept. -/
theorem Steady.of_current (waiting : after.waiting = stack.waiting)
    (frames : ∀ {lower frame later}, stack.current.frameAt? lower = some frame →
      after.current.frameAt? lower = some later →
      (later.kind = frame.kind ∧ later.stackHeight = frame.stackHeight) ∧
        (lower < stack.height → lower < after.height → frame.Keeps later ∧ ∀ name,
          later.temporaries.get? name ≠ frame.temporaries.get? name → reaches name lower)) :
    stack.Steady reaches after where
  stays {position height} here there := by
    rcases Nat.lt_or_eq_of_le (le_of_isSome here) with waits | rfl
    · refine stays_of_agree here there fun here there => ?_
      rw [CallStack.frameAt?, threads_of_lt (waiting ▸ waits), waiting, ← threads_of_lt waits] at there
      exact some.inj (there.symm.trans here)
    · refine stays_of_frames here there fun lower frame later isLower found foundLater => ?_
      rw [frameAt?_running] at here found
      rw [← waiting, frameAt?_running] at there foundLater
      obtain ⟨top, here⟩ := isSome_iff_exists.mp here
      obtain ⟨topLater, there⟩ := isSome_iff_exists.mp there
      obtain ⟨kinds, keeps⟩ := frames found foundLater
      refine ⟨kinds, fun isLower => ?_⟩
      obtain ⟨keeps, reached⟩ := keeps (isLower.trans_le (le_of_frameAt? here))
        (isLower.trans_le (le_of_frameAt? there))
      exact ⟨keeps, fun name changed => ⟨reached name changed, rfl⟩⟩
  waits here there := by rw [threads_of_lt here, threads_of_lt there, waiting]

theorem Quiet.refl (stack : CallStack) : stack.Quiet stack := ⟨rfl, rfl, rfl, rfl⟩

theorem Quiet.trans (first : stack.Quiet middle) (second : middle.Quiet after) :
    stack.Quiet after :=
  ⟨second.waiting.trans first.waiting, second.below.trans first.below, second.kind.trans first.kind,
    second.stackHeight.trans first.stackHeight⟩

theorem Quiet.length_below (quiet : stack.Quiet after) :
    after.current.below.length = stack.current.below.length := by
  simpa using congrArg length quiet.below

/-- A frame beneath the running one rests. -/
theorem Quiet.beneath (quiet : stack.Quiet after) (beneath : height < stack.current.below.length)
    (here : stack.current.frameAt? height = some frame)
    (there : after.current.frameAt? height = some later) :
    frame.Keeps later ∧ later.temporaries = frame.temporaries := by
  apply Frame.Keeps.of_unmarked
  have same : (after.current.below.map Frame.unmarked).reverse[height]? =
      (stack.current.below.map Frame.unmarked).reverse[height]? := by rw [quiet.below]
  rw [frameAt?_of_lt beneath] at here
  rw [frameAt?_of_lt (quiet.length_below ▸ beneath)] at there
  rw [← map_reverse, ← map_reverse, getElem?_map, getElem?_map, here, there]
    at same
  exact some.inj same

theorem Quiet.steady (quiet : stack.Quiet after) : stack.Steady reaches after := by
  refine .of_current quiet.waiting fun {height frame later} here there => ?_
  rcases Nat.lt_or_eq_of_le (le_of_frameAt? here) with beneath | rfl
  · obtain ⟨keeps, temporaries⟩ := quiet.beneath beneath here there
    exact ⟨⟨keeps.kind, keeps.stackHeight⟩, fun _ _ =>
      ⟨keeps, fun _ changed => absurd (by rw [temporaries]) changed⟩⟩
  · rw [frameAt?_top] at here
    rw [← quiet.length_below, frameAt?_top] at there
    cases here
    cases there
    exact ⟨⟨quiet.kind, quiet.stackHeight⟩, fun beneath => absurd beneath (Nat.lt_irrefl _)⟩

/-- What happens in the running frame before does not matter. -/
theorem Quiet.steady_trans (quiet : stack.Quiet middle) (steady : middle.Steady reaches after) :
    stack.Steady reaches after where
  stays {position height} here there := by
    have between : (middle.frameAt? position height).isSome := by
      rcases Nat.lt_or_eq_of_le (le_of_isSome here) with waits | rfl
      · rwa [CallStack.frameAt?, threads_of_lt (quiet.waiting ▸ waits), quiet.waiting,
          ← threads_of_lt waits]
      · rw [frameAt?_running] at here
        obtain ⟨frame, here⟩ := isSome_iff_exists.mp here
        rw [← quiet.waiting, frameAt?_running]
        exact isSome_iff_exists.mpr
          (exists_frameAt? (quiet.length_below ▸ le_of_frameAt? here))
    have first : Stays (fun _ _ => False) position height stack middle :=
      (quiet.steady.stays here between).mono fun _ _ reached => reached.1
    have second := steady.stays between there
    rw [quiet.waiting] at second
    exact (first.mono fun _ _ => False.elim).trans second
  waits {position} here there := by
    have waits : position < middle.waiting.length := quiet.waiting ▸ here
    rw [steady.waits waits there, threads_of_lt waits, threads_of_lt here, quiet.waiting]

theorem steady_push (kind : FrameKind) (stackHeight outputLength : Nat) :
    stack.Steady reaches (stack.push kind stackHeight outputLength) := by
  have more : (stack.push kind stackHeight outputLength).current.frames.reverse =
      stack.current.frames.reverse ++ [(stack.push kind stackHeight outputLength).frame] :=
    reverse_cons
  refine .of_current rfl fun here there => ?_
  obtain rfl := agree_of_append more here there
  exact ⟨⟨rfl, rfl⟩, fun _ _ => ⟨.refl _, fun _ changed => absurd rfl changed⟩⟩

theorem steady_drop : stack.Steady reaches stack.drop := by
  unfold drop
  split
  · next next below frames =>
    refine .of_current rfl fun here there => ?_
    have more : stack.current.frames.reverse = (next :: below).reverse ++ [stack.current.top] := by
      rw [Thread.frames, frames, reverse_cons]
    obtain rfl := agree_of_append more there here
    exact ⟨⟨rfl, rfl⟩, fun _ _ => ⟨.refl _, fun _ changed => absurd rfl changed⟩⟩
  · exact .refl stack

/-- A thread is kept where another is run on top of it. -/
theorem eq_of_append {others : List Thread} (more : after.threads = stack.threads ++ others)
    {later : Thread} (here : stack.threads[position]? = some thread)
    (there : after.threads[position]? = some later) : later = thread := by
  have within := (List.getElem?_eq_some_iff.mp here).1
  rw [more, getElem?_append_left within] at there
  exact some.inj (there.symm.trans here)

theorem steady_pushThread : stack.Steady reaches stack.pushThread := by
  have more : stack.pushThread.threads = stack.threads ++ [stack.pushThread.current] :=
    reverse_cons
  exact .of_threads fun here there => eq_of_append more here there

theorem steady_popThread : stack.Steady reaches stack.popThread := by
  unfold popThread
  split
  · next next waiting threads =>
    have more : stack.threads = (next :: waiting).reverse ++ [stack.current] := by
      rw [CallStack.threads, threads, reverse_cons]
    exact .of_threads fun here there => (eq_of_append more there here).symm
  · exact .refl stack

/-- Only a context that names a frame means one beneath the running frame. -/
theorem context_of_heightOf (beneath : height < stack.height)
    (target : stack.heightOf context = height) : context = .frame height := by
  cases context with
  | frame other => rw [← target]; rfl
  | global | unknown => exact absurd target (Nat.ne_of_gt beneath)

theorem setTemporary_eq_ok (assigned : stack.setTemporary name value declare context = .ok after) :
    ∃ frame, stack.current.frameAt? (stack.heightOf context) = some frame ∧
      after = { stack with
        current := stack.current.modifyAt (stack.heightOf context) fun later =>
          { later with
            temporaries := later.temporaries.insert name
              (value.replacing (frame.temporaries.get? name)) } } := by
  simp only [setTemporary] at assigned
  split at assigned
  · next frame there =>
    split at assigned
    · contradiction
    · exact ⟨frame, there, (Except.ok.inj assigned).symm⟩
  · contradiction

/-- An assignment changes one temporary variable of one frame. -/
theorem steady_setTemporary (assigned : stack.setTemporary name value declare context = .ok after)
    (reached : ∀ height < stack.height, context = .frame height → reaches name height) :
    stack.Steady reaches after := by
  obtain ⟨_, -, rfl⟩ := setTemporary_eq_ok assigned
  refine .of_current rfl fun {height frame later} here there => ?_
  rw [frameAt?_modifyAt, here] at there
  split at there
  · next target =>
    cases there
    refine ⟨⟨rfl, rfl⟩, fun beneath _ => ⟨⟨rfl, rfl, rfl, rfl⟩, fun changed differs => ?_⟩⟩
    obtain rfl : changed = name := by
      by_contra other
      exact differs (by rw [Table.get?_insert, if_neg other])
    exact reached height beneath (context_of_heightOf beneath target)
  · cases there
    exact ⟨⟨rfl, rfl⟩, fun _ _ => ⟨.refl _, fun _ changed => absurd rfl changed⟩⟩

theorem height_setTemporary {stack after : CallStack}
    (assigned : stack.setTemporary name value declare context = .ok after) :
    after.height = stack.height := by
  obtain ⟨_, -, rfl⟩ := setTemporary_eq_ok assigned
  exact length_below_modifyAt _ _ _

theorem height_drop_le (stack : CallStack) : stack.drop.height ≤ stack.height := by
  unfold drop
  split
  · next next below frames =>
    rw [CallStack.height, CallStack.height, frames]
    exact Nat.le_succ _
  · exact Nat.le_refl _

/-! ### Call stacks over many moments -/

/-- Over moments without assignments a frame stays that is there at all of them. -/
theorem stays_of_chain (chain : moments.IsChain (Steady fun _ _ => False))
    (there : ∀ moment ∈ moments, (moment.frameAt? position height).isSome)
    (first : moments.head? = some stack) (last : moments.getLast? = some after) :
    Stays (fun _ _ => False) position height stack after := by
  induction moments generalizing stack with
  | nil => contradiction
  | cons moment others ih =>
    cases first
    have here := there moment mem_cons_self
    have later := fun other member => there other (mem_cons_of_mem moment member)
    cases others with
    | nil =>
      cases last
      exact ((Steady.refl moment).stays here here).mono fun _ _ reached => reached.1
    | cons next others =>
      obtain ⟨steady, rest⟩ := isChain_cons_cons.mp chain
      have first := steady.stays here (later next mem_cons_self)
      exact (first.mono fun _ _ reached => reached.1).trans (ih rest later rfl last)

/-- Over moments a thread is kept that waits at all of them. -/
theorem waits_of_chain (chain : moments.IsChain (Steady reaches))
    (waits : ∀ moment ∈ moments, position < moment.waiting.length)
    (first : moments.head? = some stack) (last : moments.getLast? = some after) :
    after.threads[position]? = stack.threads[position]? := by
  induction moments generalizing stack with
  | nil => contradiction
  | cons moment others ih =>
    cases first
    have later := fun other member => waits other (mem_cons_of_mem moment member)
    cases others with
    | nil =>
      cases last
      rfl
    | cons next others =>
      obtain ⟨steady, rest⟩ := isChain_cons_cons.mp chain
      rw [ih rest later rfl last]
      exact steady.waits (waits moment mem_cons_self) (later next mem_cons_self)

end CallStack

end InkStory
