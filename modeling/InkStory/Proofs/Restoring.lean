import InkStory.Proofs.SaveRecords
import InkStory.Proofs.SoundStates
import InkStory.Proofs.Stored
import InkStory.Save.Writer

/-! # Threads and choices restored

A thread whose numbers can be stored is restored from its record with every frame where it was
(`Thread.restore_save`), and so is a choice with its own thread (`State.restore_choice`). -/

namespace InkStory

open List

variable {address : Address} {position : Nat} {frame : Frame} {thread : Thread} {stack : CallStack}

variable {program : Program}

/-! ### Pointers -/

namespace Program

variable {pointer : Pointer} {place : Place}

/-- No pointer below the root leads to the root. -/
theorem ne_root_of_resolve (wellNamed : program.WellNamed) (points : program.Points pointer)
    (resolves : program.resolve? pointer = some place) : place ≠ .container [] := by
  rintro rfl
  unfold resolve? at resolves
  split at resolves
  · next unpositioned =>
    refine points.below ?_
    obtain ⟨container, index⟩ := pointer
    cases resolves
    cases unpositioned
    rfl
  · split at resolves
    · next empty =>
      have root : pointer.container = [] := by simpa using resolves
      rw [root] at empty
      exact wellNamed.ordered (isEmpty_iff.mp empty)
    · unfold childPlace? at resolves
      split at resolves <;> cases resolves

theorem childPlace_content {other : Address} {otherPosition : Nat}
    (found : program.childPlace? address position = some (.content other otherPosition)) :
    other = address ∧ otherPosition = position := by
  unfold childPlace? at found
  split at found <;> cases found
  exact ⟨rfl, rfl⟩

/-- Only one pointer points at an object that is no container. -/
theorem pointer_of_resolve_content
    (resolves : program.resolve? pointer = some (.content address position)) :
    pointer = ⟨address, some position⟩ := by
  obtain ⟨container, index⟩ := pointer
  unfold resolve? at resolves
  split at resolves
  · cases resolves
  · next found =>
    split at resolves
    · cases resolves
    · obtain ⟨rfl, rfl⟩ := childPlace_content resolves
      cases found
      rfl

/-- A pointer is restored, from the path of the object it points at, as one at the same object. -/
theorem restorePath_pathOf (wellNamed : program.WellNamed) (points : program.Points pointer)
    (resolves : program.resolve? pointer = some place) :
    ∃ restored, restorePath program (some (program.pathOf place).text) = .ok (some restored) ∧
      program.Points restored ∧ program.resolve? restored = some place := by
  have has : program.HasPlace place := program.hasPlace_resolve points.has resolves
  have parsed := Path.parse_text (program.canonical_pathOf wellNamed has)
  have lands : ∃ restored, program.pointerAt (program.pathOf place) = .ok ⟨some restored, none⟩ ∧
      program.resolve? restored = some place := by
    cases place with
    | container address =>
      cases address with
      | nil => exact absurd rfl (program.ne_root_of_resolve wellNamed points resolves)
      | cons step outer => exact program.pointerAt_containerPath wellNamed has
    | content address position =>
      refine ⟨⟨address, some position⟩, program.pointerAt_withIndex wellNamed has.1 position, ?_⟩
      rw [← program.pointer_of_resolve_content resolves]
      exact resolves
  obtain ⟨restored, found, same⟩ := lands
  refine ⟨restored, ?_, program.points_pointerAt found rfl, same⟩
  rw [restorePath, parsed, found]

/-- A pointer is restored, from its own path, as one at the same object. -/
theorem restorePath_pointerPath (wellNamed : program.WellNamed) (points : program.Points pointer)
    (small : ∀ position ∈ pointer.index, position < Component.positionLimit) :
    ∃ restored, restorePath program (some (program.pointerPath pointer).text) = .ok (some restored) ∧
      program.Points restored ∧ program.resolve? restored = program.resolve? pointer := by
  obtain ⟨address, index⟩ := pointer
  have canonical := program.canonical_containerPath wellNamed points.has
  cases index with
  | some position =>
    have found := program.pointerAt_withIndex wellNamed points.has position
    have parsed := Path.parse_text (Path.canonical_withIndex canonical (small position rfl))
    refine ⟨⟨address, some position⟩, ?_, points, rfl⟩
    rw [pointerPath, restorePath, parsed, found]
  | none =>
    cases address with
    | nil => exact absurd rfl points.below
    | cons step outer =>
      obtain ⟨restored, found, same⟩ := program.pointerAt_containerPath wellNamed points.has
      refine ⟨restored, ?_, program.points_pointerAt found rfl, same⟩
      rw [pointerPath, restorePath, Path.parse_text canonical, found]

end Program

/-! ### Frames -/

namespace Frame

/-- A frame whose numbers can be stored: a position has 63 bits. -/
def Fits (frame : Frame) : Prop :=
  (∀ pointer ∈ frame.pointer, ∀ position ∈ pointer.index, position < 2 ^ 63) ∧
    ∀ value ∈ frame.temporaries.values, value.Fits

instance (frame : Frame) : Decidable frame.Fits := inferInstanceAs (Decidable (_ ∧ _))

/-- A frame as it is stored. -/
def stored (frame : Frame) : Frame where
  pointer := frame.pointer
  evaluating := frame.evaluating
  temporaries := frame.temporaries.map Value.stored
  kind := frame.kind

theorem entries_save (frame : Frame) :
    (frame.save program).temporaries =
      frame.temporaries.entries.map fun entry => (entry.1, entry.2.write) := rfl

theorem toInt_position (small : position < 2 ^ 63) :
    (Int64.ofNat position).toInt = position := by
  rw [← Int64.ofInt_eq_ofNat, Int64.toInt_ofInt_of_le] <;> omega

theorem position_save (fits : frame.Fits) :
    (frame.pointer.bind Pointer.index = none ∧ (frame.save program).position = -1) ∨
      ∃ position, frame.pointer.bind Pointer.index = some position ∧ position < 2 ^ 63 ∧
        (frame.save program).position = position := by
  cases positioned : frame.pointer.bind Pointer.index with
  | none => exact .inl ⟨rfl, by simp [save, positioned]⟩
  | some position =>
    obtain ⟨pointer, pointed, index⟩ := Option.bind_eq_some_iff.mp positioned
    have small := fits.1 pointer pointed position index
    exact .inr ⟨position, rfl, small, by simp [save, positioned, toInt_position small]⟩

theorem storable_save (fits : frame.Fits) : (frame.save program).Storable where
  position := by
    unfold Save.Int64
    obtain ⟨-, position⟩ | ⟨index, -, small, position⟩ := position_save fits
    all_goals
      rw [position]
      omega
  kind := by
    have small : frame.kind.number ≤ 2 := by cases frame.kind <;> decide
    change Save.Int64 (frame.kind.number : Int)
    unfold Save.Int64
    omega
  distinct := by
    rw [entries_save, map_map]
    exact frame.temporaries.distinct
  sound depth value member := by
    rw [entries_save, map_map] at member
    obtain ⟨entry, listed, rfl⟩ := mem_map.mp member
    exact Value.sound_write (fits.2 entry.2 (mem_map_of_mem listed))

end Frame

/-- Values are restored under their names. -/
theorem Value.restoreAll_write {entries : List (String × Value)}
    (fits : ∀ entry ∈ entries, entry.2.Fits) :
    restoreAll (Save.rereadAll (entries.map fun entry => (entry.1, entry.2.write))) =
      .ok (Table.ofList (entries.map fun entry => (entry.1, entry.2.stored))) := by
  have restored : (Save.rereadAll (entries.map fun entry => (entry.1, entry.2.write))).mapM
      (fun member => do return (member.1, ← Value.restore member.2)) =
      (.ok (entries.map fun entry => (entry.1, entry.2.stored)) :
        Except Error (List (String × Value))) := by
    rw [Save.rereadAll, map_map]
    refine Content.mapM_ok fun entry member => ?_
    simp only [Function.comp_apply, restore_write (fits entry member)]
    rfl
  exact congrArg (· >>= fun values => .ok (Table.ofList values)) restored

namespace Frame

theorem restoreAll_save (fits : frame.Fits) :
    Value.restoreAll (frame.save program).reread.temporaries =
      .ok (frame.temporaries.map Value.stored) := by
  have restored := Value.restoreAll_write fun entry listed =>
    fits.2 entry.2 (mem_map_of_mem listed)
  have same : Table.ofList (frame.temporaries.entries.map fun entry => (entry.1, entry.2.stored)) =
      frame.temporaries.map Value.stored :=
    Table.ofList_entries (frame.temporaries.map Value.stored)
  rw [same] at restored
  exact restored

theorem restorePointer_save (wellNamed : program.WellNamed) (points : program.PointsIf frame.pointer)
    (fits : frame.Fits) :
    (frame.save program).reread.restorePointer program = .ok (frame.pointer, []) := by
  have container : (frame.save program).reread.container =
      frame.pointer.map fun pointer => (program.containerPath pointer.container).text := rfl
  have position : (if (frame.save program).reread.position < 0 then none
      else some (frame.save program).reread.position.toNat) = frame.pointer.bind Pointer.index := by
    change (if (frame.save program).position < 0 then none
      else some (frame.save program).position.toNat) = _
    obtain ⟨none, position⟩ | ⟨index, positioned, -, position⟩ := position_save fits
    · rw [position, none]
      rfl
    · rw [position, positioned, if_neg (by omega), Int.toNat_natCast]
  cases pointed : frame.pointer with
  | none =>
    rw [pointed] at container
    simp only [SavedFrame.restorePointer, container, Option.map_none]
  | some pointer =>
    have has := (points pointer pointed).has
    have parsed := Path.parse_text (program.canonical_containerPath wellNamed has)
    have leads : program.followPath [] (program.containerPath pointer.container) =
        ⟨.container pointer.container, false⟩ := program.followAll_componentsOf wellNamed has
    rw [pointed] at container position
    simp only [SavedFrame.restorePointer, container, Option.map_some, parsed, leads,
      position]
    rfl

/-- A frame is restored from its record. -/
theorem restore_save (wellNamed : program.WellNamed) (points : program.PointsIf frame.pointer)
    (fits : frame.Fits) :
    (frame.save program).reread.restore program = .ok (frame.stored, []) := by
  have kind : FrameKind.ofNumber? (frame.save program).reread.kind = some frame.kind := by
    change FrameKind.ofNumber? (frame.kind.number : Int) = _
    cases frame.kind <;> rfl
  simp only [SavedFrame.restore, kind, restorePointer_save wellNamed points fits,
    restoreAll_save fits]
  rfl

end Frame

/-! ### Threads -/

namespace Thread

variable {restored : Thread}

def Fits (thread : Thread) : Prop := thread.index < 2 ^ 64 ∧ ∀ frame ∈ thread.frames, frame.Fits

instance (thread : Thread) : Decidable thread.Fits := inferInstanceAs (Decidable (_ ∧ _))

/-- A thread with the frames of another as they are stored, which evaluates behind the same
object. -/
structure Restored (program : Program) (thread restored : Thread) : Prop where
  frames : restored.frames = thread.frames.map Frame.stored
  index : restored.index = thread.index
  previous : restored.previous.bind program.resolve? = thread.previous.bind program.resolve?
  points : program.PointsIf restored.previous

/-- A thread that evaluates behind an object, if it does behind anything. -/
def Anchored (program : Program) (thread : Thread) : Prop :=
  ∀ pointer ∈ thread.previous, (program.resolve? pointer).isSome = true

instance (program : Program) (thread : Thread) : Decidable (thread.Anchored program) :=
  inferInstanceAs (Decidable (∀ pointer ∈ thread.previous, _))

theorem storable_save (fits : thread.Fits) : (thread.save program).Storable where
  frames := forall_mem_map.mpr fun frame member =>
    Frame.storable_save (fits.2 frame (mem_reverse.mp member))
  index := fits.1

theorem mapM_frames (wellNamed : program.WellNamed) (sound : thread.Sound program)
    (fits : thread.Fits) :
    (thread.save program).reread.frames.mapM (SavedFrame.restore program) =
      .ok (thread.frames.reverse.map fun frame => (frame.stored, [])) := by
  have frames : (thread.save program).reread.frames =
      thread.frames.reverse.map fun frame => (frame.save program).reread := by
    simp [save, SavedThread.reread]
  rw [frames]
  refine Content.mapM_ok fun frame member => ?_
  have listed := mem_reverse.mp member
  exact Frame.restore_save wellNamed (sound.frames frame listed) (fits.2 frame listed)

theorem restorePath_previous (wellNamed : program.WellNamed) (sound : thread.Sound program) :
    ∃ restored, restorePath program (thread.save program).previous = .ok restored ∧
      program.PointsIf restored ∧
      restored.bind program.resolve? = thread.previous.bind program.resolve? ∧
      ∀ pointer ∈ restored, (program.resolve? pointer).isSome := by
  have saved : (thread.save program).previous =
      (thread.previous.bind program.resolve?).map fun place => (program.pathOf place).text := rfl
  rw [saved]
  cases found : thread.previous.bind program.resolve? with
  | none => exact ⟨none, rfl, nofun, rfl, nofun⟩
  | some place =>
    obtain ⟨pointer, pointed, resolves⟩ := Option.bind_eq_some_iff.mp found
    obtain ⟨restored, path, points, same⟩ :=
      program.restorePath_pathOf wellNamed (sound.previous pointer pointed) resolves
    refine ⟨some restored, path, fun target equal => ?_, same, fun target equal => ?_⟩
    · cases equal
      exact points
    · cases equal
      rw [same]
      rfl

/-- A thread is restored from its record. -/
theorem restore_save (wellNamed : program.WellNamed) (sound : thread.Sound program)
    (fits : thread.Fits) :
    ∃ restored, (thread.save program).reread.restore program = .ok (restored, []) ∧
      thread.Restored program restored ∧ restored.Anchored program := by
  obtain ⟨previous, path, points, same, anchored⟩ := restorePath_previous wellNamed sound
  have frames := mapM_frames wellNamed sound fits
  have stored : ofFrames? ((thread.frames.reverse.map fun frame => (frame.stored, ([] : List Warning))).map
      Prod.fst) (thread.save program).reread.index previous =
      some ⟨thread.top.stored, thread.below.map Frame.stored, thread.index, previous⟩ := by
    simp [ofFrames?, Thread.frames, Thread.save, SavedThread.reread]
  have path : restorePath program (thread.save program).reread.previous = .ok previous := path
  refine ⟨⟨thread.top.stored, thread.below.map Frame.stored, thread.index, previous⟩, ?_,
    ⟨rfl, rfl, same, points⟩, anchored⟩
  have warnings : (thread.frames.reverse.map fun frame => (frame.stored, ([] : List Warning))).flatMap
      Prod.snd = [] := by
    simp
  rw [SavedThread.restore, frames, path]
  simp only [bind, Except.bind, stored, warnings]
  rfl

end Thread

/-- Reading what was written of every record gives related ones. -/
theorem mapM_related {α β γ ε : Type} {read : β → Except ε γ} {write : α → β} {related : α → γ → Prop}
    {records : List α}
    (reads : ∀ record ∈ records, ∃ found, read (write record) = .ok found ∧ related record found) :
    ∃ founds, (records.map write).mapM read = .ok founds ∧ List.Forall₂ related records founds := by
  induction records with
  | nil => exact ⟨[], rfl, .nil⟩
  | cons record rest ih =>
    obtain ⟨found, first, here⟩ := reads record mem_cons_self
    obtain ⟨founds, others, there⟩ :=
      ih fun record member => reads record (mem_cons_of_mem _ member)
    refine ⟨found :: founds, ?_, .cons here there⟩
    rw [map_cons, mapM_cons, first, others]
    rfl

theorem exists_of_forall₂ {α β : Type} {related : α → β → Prop} {lefts : List α} {rights : List β}
    (all : List.Forall₂ related lefts rights) {right : β} (member : right ∈ rights) :
    ∃ left ∈ lefts, related left right := by
  induction all with
  | nil => contradiction
  | cons here _ ih =>
    rcases mem_cons.mp member with rfl | later
    · exact ⟨_, mem_cons_self, here⟩
    · obtain ⟨left, there, same⟩ := ih later
      exact ⟨left, mem_cons_of_mem _ there, same⟩

namespace CallStack

variable {restored : CallStack}

/-- A call stack with the threads of another as they are stored. -/
structure Restored (program : Program) (stack restored : CallStack) : Prop where
  threads : List.Forall₂ (Thread.Restored program) stack.threads restored.threads
  counter : restored.counter = stack.counter

theorem mem_threads : thread ∈ stack.threads ↔ thread ∈ stack.live :=
  mem_reverse

theorem mapM_threads (wellNamed : program.WellNamed) (sound : stack.Sound program)
    (fits : ∀ thread ∈ stack.threads, thread.Fits) :
    ∃ founds, (stack.threads.map fun thread => (thread.save program).reread).mapM
        (SavedThread.restore program) = .ok founds ∧
      List.Forall₂ (Thread.Restored program) stack.threads (founds.map Prod.fst) ∧
      (∀ thread ∈ founds.map Prod.fst, thread.Anchored program) ∧
      founds.flatMap Prod.snd = [] := by
  have reads : ∀ thread ∈ stack.threads, ∃ found,
      SavedThread.restore program (thread.save program).reread = .ok found ∧
        (thread.Restored program found.1 ∧ found.1.Anchored program ∧ found.2 = []) := by
    intro thread member
    obtain ⟨restored, read, same, anchored⟩ := Thread.restore_save wellNamed
      (sound thread (mem_threads.mp member)).1 (fits thread member)
    exact ⟨(restored, []), read, same, anchored, rfl⟩
  obtain ⟨founds, restored, related⟩ := mapM_related reads
  refine ⟨founds, restored, ?_, ?_, ?_⟩
  · rw [forall₂_map_right_iff]
    exact related.imp fun _ _ all => all.1
  · rw [forall_mem_map]
    intro found member
    obtain ⟨thread, -, all⟩ := exists_of_forall₂ related member
    exact all.2.1
  · rw [flatMap_eq_nil_iff]
    intro found member
    obtain ⟨thread, -, all⟩ := exists_of_forall₂ related member
    exact all.2.2

/-- The call stack is restored from the records of its threads. -/
theorem restore_save (wellNamed : program.WellNamed) (sound : stack.Sound program)
    (fits : ∀ thread ∈ stack.threads, thread.Fits) :
    ∃ founds restored, (stack.threads.map fun thread => (thread.save program).reread).mapM
        (SavedThread.restore program) = .ok founds ∧
      ofThreads? (founds.map Prod.fst) stack.counter = some restored ∧
      founds.flatMap Prod.snd = [] ∧ stack.Restored program restored ∧
      ∀ thread ∈ restored.live, thread.Anchored program := by
  obtain ⟨founds, read, related, anchored, warnings⟩ := mapM_threads wellNamed sound fits
  have reversed : List.Forall₂ (Thread.Restored program) (stack.current :: stack.waiting)
      (founds.map Prod.fst).reverse := by
    rw [← forall₂_reverse_iff, reverse_reverse]
    exact related
  generalize threads : (founds.map Prod.fst).reverse = row at reversed
  cases reversed with
  | @cons _ current _ waiting here there =>
    refine ⟨founds, ⟨current, waiting, stack.counter⟩, read, ?_, warnings, ⟨?_, rfl⟩, ?_⟩
    · simp [ofThreads?, threads]
    · rw [CallStack.threads, CallStack.threads, forall₂_reverse_iff]
      exact .cons here there
    · intro thread member
      refine anchored thread (mem_reverse.mp ?_)
      rw [threads]
      exact member

theorem Restored.thread?_eq_none {index : Nat} (same : stack.Restored program restored)
    (apart : ∀ thread ∈ stack.live, thread.index ≠ index) : restored.thread? index = none := by
  rw [thread?, find?_eq_none]
  intro thread member
  obtain ⟨former, there, related⟩ := exists_of_forall₂ same.threads member
  rw [related.index]
  simpa using apart former (mem_threads.mp there)

end CallStack

/-! ### Choices -/

namespace Choice

/-- A choice that is another as it is stored. -/
structure Restored (program : Program) (choice restored : Choice) : Prop where
  text : restored.text = choice.text
  index : restored.index = choice.index
  source : restored.source = choice.source
  target : restored.target = choice.target
  tags : restored.tags = choice.tags
  isInvisible : restored.isInvisible = choice.isInvisible
  thread : choice.thread.Restored program restored.thread

end Choice

theorem repr_injective {first second : Nat} (same : first.repr = second.repr) : first = second := by
  have digits : Text.ofNat first = Text.ofNat second := by
    rw [Text.ofNat, Text.ofNat, ← Nat.toList_repr, ← Nat.toList_repr, same]
  rw [← Text.numeral_ofNat first, ← Text.numeral_ofNat second, digits]

namespace State

variable {state : State} {choice : Choice}

/-- The threads of choices have numbers of their own. -/
structure Apart (state : State) : Prop where
  live : ∀ choice ∈ state.choices, ∀ thread ∈ state.callStack.live,
    thread.index ≠ choice.thread.index
  distinct : (state.choices.map fun choice => choice.thread.index).Nodup

theorem SoundFlow.apart (sound : SoundFlow program state) : state.Apart :=
  ⟨fun choice offered => (sound.choices choice offered).apart, sound.distinct⟩

/-- The threads of all choices are stored apart, each under its number. -/
theorem entries_choiceThreads (apart : state.Apart) :
    (state.choiceThreads program).entries =
      state.choices.map fun choice => (choice.thread.index.repr, choice.thread.save program) := by
  have alone : ∀ choice ∈ state.choices,
      (state.callStack.thread? choice.thread.index).isSome = false := by
    intro choice offered
    rw [Option.isSome_eq_false_iff, Option.isNone_iff_eq_none, CallStack.thread?,
      find?_eq_none]
    intro thread member
    simpa using apart.live choice offered thread (CallStack.mem_threads.mp member)
  have all : (state.choices.filterMap fun choice =>
      if (state.callStack.thread? choice.thread.index).isSome then none
      else some (choice.thread.index.repr, choice.thread.save program)) =
      state.choices.map fun choice => (choice.thread.index.repr, choice.thread.save program) := by
    rw [← filterMap_eq_map]
    refine filterMap_congr fun choice offered => ?_
    simp [alone choice offered]
  have distinct := apart.distinct.map fun _ _ => repr_injective
  rw [map_map] at distinct
  rw [choiceThreads, all, Table.entries_ofList]
  rw [map_map]
  exact distinct

/-- The threads of choices as they are read back. -/
def rereadThreads (program : Program) (state : State) : List (String × SavedThread) :=
  (state.choiceThreads program).entries.map fun named => (named.1, named.2.reread)

theorem lookup_rereadThreads (program : Program) (apart : state.Apart)
    (offered : choice ∈ state.choices) :
    (state.rereadThreads program).lookup choice.thread.index.repr =
      some (choice.thread.save program).reread := by
  have distinct : ((state.rereadThreads program).map Prod.fst).Nodup := by
    rw [rereadThreads, map_map]
    exact (state.choiceThreads program).distinct
  refine Table.lookup_of_mem distinct ?_
  rw [rereadThreads, entries_choiceThreads apart, map_map]
  exact mem_map.mpr ⟨choice, offered, rfl⟩

/-- A choice is restored with its own thread. -/
theorem restore_choice (wellNamed : program.WellNamed) (sound : SoundFlow program state)
    (offered : choice ∈ state.choices) (fits : choice.thread.Fits)
    (same : state.callStack.Restored program stack) :
    ∃ found, choice.save.restore program stack (state.rereadThreads program) = .ok found ∧
      (choice.Restored program found.1 ∧ found.1.thread.Anchored program ∧ found.2 = []) := by
  obtain ⟨thread, -, apart, target⟩ := sound.choices choice offered
  obtain ⟨restored, read, related, anchored⟩ := Thread.restore_save wellNamed thread fits
  have dead : stack.thread? choice.thread.index = none := same.thread?_eq_none apart
  have stored := lookup_rereadThreads program sound.apart offered
  have parsed := Path.parse_text target
  refine ⟨({ choice with thread := restored }, []), ?_, ⟨rfl, rfl, rfl, rfl, rfl, rfl, related⟩,
    anchored, rfl⟩
  simp only [SavedChoice.restore, Choice.save, dead, stored, parsed, read]
  rfl

theorem restore_choices (wellNamed : program.WellNamed) (sound : SoundFlow program state)
    (fits : ∀ choice ∈ state.choices, choice.thread.Fits)
    (same : state.callStack.Restored program stack) :
    ∃ founds, (state.choices.map Choice.save).mapM
        (SavedChoice.restore program stack (state.rereadThreads program)) = .ok founds ∧
      List.Forall₂ (Choice.Restored program) state.choices (founds.map Prod.fst) ∧
      (∀ choice ∈ founds.map Prod.fst, choice.thread.Anchored program) ∧
      founds.flatMap Prod.snd = [] := by
  obtain ⟨founds, read, related⟩ := mapM_related fun choice offered =>
    restore_choice wellNamed sound offered (fits choice offered) same
  refine ⟨founds, read, ?_, ?_, ?_⟩
  · rw [forall₂_map_right_iff]
    exact related.imp fun _ _ all => all.1
  · rw [forall_mem_map]
    intro found member
    obtain ⟨choice, -, all⟩ := exists_of_forall₂ related member
    exact all.2.1
  · rw [flatMap_eq_nil_iff]
    intro found member
    obtain ⟨choice, -, all⟩ := exists_of_forall₂ related member
    exact all.2.2

end State

end InkStory
