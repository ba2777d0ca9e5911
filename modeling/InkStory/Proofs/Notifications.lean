import InkStory.Proofs.BetweenLines
import InkStory.Proofs.NotedChanges

/-! # What observers are told

When a line ends, observers are told the globals that it assigned while they had a value, but for
those that it assigned behind a newline that it went back to; each once, and with the value that it
has then. While the host is saving a state, they are told again what former lines assigned
(`Operation.observers_told`). -/

namespace InkStory

open List

variable {state : State} {after story next last : Story} {listed : List String}
  {wentBack ended : Bool} {more : Nat} {operation : Operation}

namespace State

/-- A state whose text is worked out. -/
def known (state : State) : State := { state with output := state.output.known }

theorem noted_known (state : State) : state.known.noted = state.noted := rfl

theorem global?_known (state : State) (name : String) :
    state.known.global? name = state.global? name := rfl

theorem Noting.known (noting : state.Noting) : state.known.Noting := by
  have same : SameGlobals state state.known := ⟨rfl, rfl, rfl, rfl⟩
  exact same.noting noting

end State

/-! ### Stories that a host can reach -/

namespace State

variable {after : State} {program : Program}

theorem Alters.unpatched {limits : Limits} (change : Alters program limits state after)
    (unpatched : state.patch = none) : after.patch = none := by
  obtain ⟨name, value, -, rfl⟩ | same := change.write_or_same
  · exact (write_in_place unpatched name value).1
  · have mapped := same.patch
    rw [unpatched] at mapped
    exact Option.map_eq_none_iff.mp mapped

/-- Declared globals have values when others are loaded. -/
theorem Recorded.load {saved : Table String Value} (recorded : state.Recorded)
    (globals : after.globals = state.globals.load saved)
    (patch : after.patch = state.patch ∨ after.patch = none) : after.Recorded where
  declared := by
    rw [globals]
    unfold Globals.default? Globals.load
    cases state.globals.defaults with
    | none => simp
    | some defaults => simp [Table.get?_mapWithKey]
  patched name member := by
    unfold listed at member
    unfold patched?
    rcases patch with same | none
    · rw [same] at member ⊢
      exact recorded.patched name member
    · rw [none] at member
      contradiction

theorem stable_recorded (program : Program) : Stable program Recorded where
  change changed recorded := recorded.change changed
  startPatch recorded := recorded.startPatch
  applyPatch recorded := recorded.applyPatch
  known recorded := ⟨recorded.declared, recorded.patched⟩
  reports _ _ recorded := ⟨recorded.declared, recorded.patched⟩

end State

namespace Story

open State

variable {writable : String → Prop} {callable : HostCall → Prop}

/-- The record of a story fits its globals, and nothing is written apart but while the story looks
ahead or the host is saving. -/
structure Kept (story : Story) : Prop where
  state : story.state.Recorded
  snapshot : ∀ snapshot, story.snapshot = some snapshot → snapshot.Recorded
  unpatched : story.isSaving = false → story.snapshot = none → story.state.patch = none

theorem no_snapshot (settled : story.snapshot = none) :
    ∀ snapshot, story.snapshot = some snapshot → snapshot.Recorded := by
  intro snapshot pending
  rw [settled] at pending
  contradiction

theorem recorded_atStart (config : Config) : (atStart config).Recorded where
  declared name declared := by contradiction
  patched name member := by contradiction

/-- A story that is settled writes nothing apart but while the host is saving. -/
theorem patch_settle (free : story.settle.isSaving = false) : story.settle.state.patch = none := by
  unfold settle at free ⊢
  split at free
  · next saving =>
    rw [saving] at free
    contradiction
  · next saves =>
    rw [if_neg saves]
    exact patch_applyPatch

theorem Kept.patch_rewind (kept : story.Kept) (free : story.rewind.isSaving = false) :
    story.rewind.state.patch = none := by
  cases pending : story.snapshot with
  | none =>
    rw [rewind_settled pending] at free ⊢
    exact kept.unpatched free pending
  | some snapshot =>
    simp only [Story.rewind, pending] at free ⊢
    exact patch_settle free

theorem Kept.move (kept : story.Kept) (move : Move writable callable story after) : after.Kept := by
  have stays := Throughout.move (stable_recorded _) ⟨rfl, kept.state, kept.snapshot⟩ move
  refine ⟨stays.state, stays.snapshot, fun free settled => ?_⟩
  cases move with
  | effect effect =>
    cases effect with
    | change changed => exact changed.unpatched (kept.unpatched free settled)
    | call | defer => exact kept.unpatched free settled
  | workOut => exact kept.unpatched free (Option.map_eq_none_iff.mp settled)
  | rewind => exact kept.patch_rewind free
  | keepLookahead => exact patch_settle free
  | takeSnapshot => contradiction

theorem sameGlobals_checkEnd (program : Program) (state : State) :
    SameGlobals state (checkEnd program state) := by
  unfold checkEnd
  split
  · exact ⟨rfl, rfl, rfl, rfl⟩
  · dsimp only
    split <;> split <;> exact ⟨rfl, rfl, rfl, rfl⟩

theorem Kept.action (kept : story.Kept) (action : Action writable callable story after) :
    after.Kept := by
  cases action with
  | move move => exact kept.move move
  | finish =>
    have rewound := kept.move (.rewind : Move writable callable _ _)
    have same := sameGlobals_checkEnd story.rewind.program story.rewind.state
    have ended := same.recorded rewound.state
    refine ⟨⟨ended.declared, ended.patched⟩, rewound.snapshot, fun free _ => ?_⟩
    have mapped := same.patch
    rw [kept.patch_rewind free] at mapped
    exact Option.map_eq_none_iff.mp mapped
  | startSaving => exact ⟨kept.state.startPatch, kept.snapshot, nofun⟩
  | endSaving =>
    refine ⟨?_, kept.snapshot, fun _ settled => ?_⟩
    · dsimp only
      split
      · exact kept.state.applyPatch
      · exact kept.state
    · replace settled : story.snapshot = none := settled
      rw [settled]
      exact patch_applyPatch
  | _ => exact ⟨⟨kept.state.declared, kept.state.patched⟩, kept.snapshot, kept.unpatched⟩

theorem Kept.deed (kept : story.Kept) (deed : Deed unbinds callable story after) : after.Kept := by
  cases deed with
  | act action => exact kept.action action
  | prepare | restore | position =>
    exact ⟨⟨kept.state.declared, kept.state.patched⟩, kept.snapshot, kept.unpatched⟩
  | restart => exact ⟨recorded_atStart _, no_snapshot rfl, fun _ _ => rfl⟩
  | declare =>
    exact ⟨⟨fun name declared => declared, kept.state.patched⟩, kept.snapshot, kept.unpatched⟩
  | load _ loaded =>
    obtain ⟨saved, globals, unpatched⟩ := Run.load_ok loaded
    exact ⟨kept.state.load globals (.inr unpatched), no_snapshot rfl, fun _ _ => unpatched⟩
  | failLoad _ failed =>
    obtain ⟨patch, rfl | ⟨saved, globals⟩⟩ := Run.load_error failed
    · exact kept
    · refine ⟨kept.state.load globals (.inl patch), kept.snapshot, fun free settled => ?_⟩
      exact patch.trans (kept.unpatched free settled)

theorem Reachable.kept (reachable : story.Reachable) : story.Kept :=
  reachable.invariant (fun _ config => ⟨recorded_atStart config, no_snapshot rfl, fun _ _ => rfl⟩)
    fun deed kept => kept.deed deed

end Story

/-- The events of telling observers about changes. -/
def Story.tellings (changes : List (String × Value)) (story : Story) : List Event :=
  changes.flatMap fun (name, value) =>
    ((story.observers.get? name).getD []).map fun observer => .changed observer name value

/-- A story before something that may assign a global, and the global that is then assigned while it
has a value. -/
structure Moment where
  story : Story
  reassigned : Option String

/-- The moment of a step. -/
def Moment.ofStep (story : Story) : Moment := ⟨story, story.reassigned?⟩

namespace Story

open State Play

/-- The next step of a story begins to look ahead at a newline. -/
def Marks (newline : State) (story : Story) : Prop :=
  ∃ next, reportFailure singleStep story = .ok false next ∧
    next.snapshot = some newline ∧ next.state = newline.startPatch

/-- A newline may be gone back to. -/
def Pending (newline : State) (story : Story) : Prop :=
  story.snapshot.map known = some newline.known

/-- What observers are to be told of moments, besides names that were listed before. -/
def Tells (listed : List String) (moments : List Moment) (name : String) : Prop :=
  name ∈ listed ∨ ∃ moment ∈ moments, moment.reassigned = some name

/-- Of the moments of a line, those behind a newline may still be undone. -/
def Undoes (listed : List String) (moments : List Moment) (newline : State) : Prop :=
  ∃ kept undone, moments = kept ++ undone ∧
    (∃ last, kept.getLast? = some last ∧ last.story.Marks newline) ∧
    (∀ moment ∈ undone, moment.story.Pending newline) ∧
    ∀ name, name ∈ newline.noted ↔ Tells listed kept name

/-- The record of changes is that of the moments of a line. -/
structure Follows (listed : List String) (moments : List Moment) (story : Story) : Prop where
  noting : story.state.Noting
  noted : ∀ name, name ∈ story.state.noted ↔ Tells listed moments name
  pending : ∀ snapshot, story.snapshot = some snapshot → snapshot.Noting ∧
    ∃ newline, newline.known = snapshot.known ∧ Undoes listed moments newline

/-- The story went back to a newline of a line. -/
structure Returned (listed : List String) (moments : List Moment) (story : Story) : Prop where
  settled : story.snapshot = none
  noting : story.state.Noting
  newline : ∃ newline, Undoes listed moments newline ∧
    (∀ name, name ∈ story.state.noted ↔ name ∈ newline.noted) ∧
    ∀ name, story.state.global? name = newline.global? name

variable {moments : List Moment} {moment : Moment} {other : Story}

theorem tells_append {name : String} :
    Tells listed (moments ++ [moment]) name ↔
      Tells listed moments name ∨ moment.reassigned = some name := by
  simp only [Tells, mem_append, mem_singleton]
  constructor
  · rintro (member | ⟨other, member | rfl, assigned⟩)
    · exact .inl (.inl member)
    · exact .inl (.inr ⟨other, member, assigned⟩)
    · exact .inr assigned
  · rintro ((member | ⟨other, member, assigned⟩) | assigned)
    · exact .inl member
    · exact .inr ⟨other, .inl member, assigned⟩
    · exact .inr ⟨moment, .inr rfl, assigned⟩

theorem Undoes.append {newline : State} (undoes : Undoes listed moments newline)
    (pending : moment.story.Pending newline) : Undoes listed (moments ++ [moment]) newline := by
  obtain ⟨kept, undone, rfl, marked, behind, noted⟩ := undoes
  refine ⟨kept, undone ++ [moment], append_assoc _ _ _, marked, ?_, noted⟩
  intro other member
  rcases mem_append.mp member with member | member
  · exact behind other member
  · rw [mem_singleton.mp member]
    exact pending

section

variable (follows : Follows listed moments story)

include follows

/-- Where the record stays, it is that of the same moments. -/
theorem Follows.stay (noting : other.state.Noting)
    (noted : ∀ name, name ∈ other.state.noted ↔ name ∈ story.state.noted)
    (snapshot : other.snapshot = story.snapshot) : Follows listed moments other where
  noting := noting
  noted := fun name => (noted name).trans (follows.noted name)
  pending := by
    rw [snapshot]
    exact follows.pending

theorem Follows.congr (state : SameGlobals story.state other.state)
    (snapshot : other.snapshot = story.snapshot) : Follows listed moments other := by
  refine follows.stay (state.noting follows.noting) (fun name => ?_) snapshot
  rw [state.noted]

/-- What happens at a moment is added to the moments of the line. -/
theorem Follows.append {moment : Moment} (here : moment.story.snapshot = story.snapshot)
    (snapshot : after.snapshot = story.snapshot) (noting : after.state.Noting)
    (noted : ∀ name, name ∈ after.state.noted ↔ name ∈ story.state.noted ∨ moment.reassigned = some name) :
    Follows listed (moments ++ [moment]) after where
  noting := noting
  noted name := by rw [noted, follows.noted, tells_append]
  pending found pending := by
    rw [snapshot] at pending
    obtain ⟨noting, newline, known, undoes⟩ := follows.pending found pending
    refine ⟨noting, newline, known, undoes.append ?_⟩
    rw [Pending, here, pending, Option.map_some, known]

theorem Follows.workOutText : Follows listed moments story.workOutText where
  noting := follows.noting.known
  noted := follows.noted
  pending snapshot pending := by
    obtain ⟨former, there, rfl⟩ := Option.map_eq_some_iff.mp pending
    obtain ⟨noting, newline, known, undoes⟩ := follows.pending former there
    exact ⟨noting.known, newline, known, undoes⟩

end

/-- Writes that are kept apart are noted as before when they are made. -/
theorem settle_noting (noting : story.state.Noting) :
    story.settle.state.Noting ∧
      (∀ name, name ∈ story.settle.state.noted ↔ name ∈ story.state.noted) ∧
      ∀ name, story.settle.state.global? name = story.state.global? name := by
  unfold settle
  split
  · exact ⟨noting, fun _ => .rfl, fun _ => rfl⟩
  · exact ⟨noting.applyPatch, fun _ => mem_noted_applyPatch noting.begun,
      fun _ => global?_applyPatch⟩

section

variable (follows : Follows listed moments story)

include follows

theorem Follows.keepLookahead : Follows listed moments story.keepLookahead where
  noting := (settle_noting follows.noting).1
  noted := fun name => ((settle_noting follows.noting).2.1 name).trans (follows.noted name)
  pending snapshot pending := by contradiction

theorem Follows.takeSnapshot (undoes : Undoes listed moments story.state) :
    Follows listed moments story.takeSnapshot where
  noting := follows.noting.startPatch
  noted name := by
    rw [show story.takeSnapshot.state.noted = story.state.noted from noted_startPatch]
    exact follows.noted name
  pending snapshot pending := by
    cases pending
    exact ⟨follows.noting, story.state, rfl, undoes⟩

/-- A story that goes back to a newline has the record of the moments before it. -/
theorem Follows.rewind (pending : story.snapshot.isSome) :
    Returned listed moments story.rewind := by
  obtain ⟨snapshot, pending⟩ := Option.isSome_iff_exists.mp pending
  obtain ⟨noting, newline, known, undoes⟩ := follows.pending snapshot pending
  let back : Story :=
    { story with
      snapshot := none
      state :=
        { snapshot with errors := story.state.errors, warnings := story.state.warnings } }
  have rewound : story.rewind = back.settle := by
    simp only [Story.rewind, pending]
    rfl
  have same : SameGlobals snapshot back.state := ⟨rfl, rfl, rfl, rfl⟩
  obtain ⟨noting, noted, globals⟩ := settle_noting (same.noting noting)
  rw [rewound]
  refine ⟨snapshot_settle back, noting, newline, undoes, fun name => ?_, fun name => ?_⟩
  · rw [noted, same.noted, ← noted_known snapshot, ← known, noted_known]
  · rw [globals]
    change snapshot.global? name = _
    rw [← global?_known snapshot, ← known, global?_known]

theorem Follows.evaluated :
    Follows listed (moments ++ [.ofStep story])
      (leaves ((do step; leaveDeadEnd : Play Unit) story)) := by
  have stepping : Evaluating (fun _ => True) (fun _ => True) step story :=
    evaluating_step (fun _ _ => trivial) fun _ _ => trivial
  have evaluating := stepping.bind fun _ _ _ => evaluating_leaveDeadEnd
  refine follows.append rfl ?_ (noting_of_evaluating evaluating follows.noting) fun name => ?_
  · exact evaluating.invariant (fun _ _ effect same => effect.kept.2.trans same) rfl
  · rw [noted_bind fun _ _ _ => evaluating_leaveDeadEnd]
    exact mem_noted_step follows.noting

/-- A step adds its moment, and may go back to the newline. -/
theorem Follows.step (taken : reportFailure singleStep story = .ok wentBack next) :
    if wentBack then Returned listed (moments ++ [.ofStep story]) next
    else Follows listed (moments ++ [.ofStep story]) next := by
  have evaluated := follows.evaluated
  have whole : singleStep story =
      ((do Play.step; leaveDeadEnd : Play Unit) >>= fun _ => checkLine) story := by
    rw [bind_assoc]
    rfl
  rw [bind_apply] at whole
  have step := taken
  unfold reportFailure at taken
  cases outcome : (do Play.step; leaveDeadEnd : Play Unit) story with
  | error error failed =>
    rw [outcome] at whole evaluated
    rw [whole] at taken
    cases taken
    exact evaluated.congr ⟨rfl, rfl, rfl, rfl⟩ rfl
  | ok value middle =>
    rw [outcome] at whole evaluated
    replace whole : singleStep story = checkLine middle := whole
    obtain ⟨pending, back⟩ | ⟨worked, after, checked, first, second⟩ := checkLine_cases middle
    · rw [whole, back] at taken
      cases taken
      exact evaluated.workOutText.rewind (by rw [Story.workOutText, Option.isSome_map]; exact pending)
    · rw [whole, checked] at taken
      cases taken
      have follows : Follows listed (moments ++ [.ofStep story]) worked := by
        rcases first with rfl | rfl | rfl
        · exact evaluated
        · exact evaluated.workOutText
        · exact evaluated.workOutText.keepLookahead
      rcases second with rfl | rfl | ⟨settled, -, rfl⟩
      · exact follows
      · exact follows.keepLookahead
      · refine follows.takeSnapshot ⟨_, [], (append_nil _).symm, ?_, ?_, follows.noted⟩
        · refine ⟨.ofStep story, getLast?_concat, ?_⟩
          exact ⟨_, step, rfl, rfl⟩
        · intro moment member
          contradiction

/-- The steps of a line add their moments, and the last may go back to a newline. -/
theorem Follows.runSteps (ran : runSteps more story = .ok ended last) :
    Returned listed (moments ++ (stepsFrom more story).map .ofStep) last ∧ ended ∨
      Follows listed (moments ++ (stepsFrom more story).map .ofStep) last ∧
        ∃ final, (stepsFrom more story).getLast? = some final ∧
          reportFailure singleStep final = .ok false last := by
  induction more generalizing story moments with
  | zero =>
    obtain ⟨wentBack, middle, taken, done⟩ := bind_eq_ok_iff.mp ran
    cases done
    have stepped := follows.step taken
    cases wentBack with
    | true => exact .inl ⟨stepped, rfl⟩
    | false => exact .inr ⟨stepped, story, rfl, taken⟩
  | succ more ih =>
    obtain ⟨wentBack, middle, taken, looked⟩ := bind_eq_ok_iff.mp ran
    obtain ⟨_, _, same, rest⟩ := bind_eq_ok_iff.mp looked
    cases same
    have stepped := follows.step taken
    simp only [stepsFrom, taken]
    by_cases stops : (wentBack || !middle.canContinue)
    · rw [if_pos stops] at rest ⊢
      cases rest
      cases wentBack with
      | true => exact .inl ⟨stepped, rfl⟩
      | false => exact .inr ⟨stepped, story, rfl, taken⟩
    · rw [if_neg stops] at rest ⊢
      cases wentBack with
      | true => simp at stops
      | false =>
        have others := ih stepped rest
        rw [append_assoc] at others
        obtain ⟨returned, complete⟩ | ⟨follows, final, listed, taken⟩ := others
        · exact .inl ⟨returned, complete⟩
        · refine .inr ⟨follows, final, ?_, taken⟩
          rw [getLast?_cons, listed]
          rfl

end

end Story

namespace Operation

open Story State Play

/-- The moments of an operation within a line. -/
def moments : Operation → Story → List Moment
  | .setGlobal name _, story =>
    if (story.state.globals.default? name).isSome then [⟨story, some name⟩] else []
  | operation, story =>
    if operation.continues then (operation.steps story).map .ofStep else []

variable {moments : List Moment} {middle ready start : Story} {partly : Bool}

theorem moments_of_pause (pauses : operation.continues = false)
    (spares : ∀ name value, operation = .setGlobal name value →
      (story.state.globals.default? name).isSome = false) :
    operation.moments story = [] := by
  cases operation with
  | setGlobal name value => rw [moments, spares name value rfl, if_neg Bool.false_ne_true]
  | nextLine | nextSteps => contradiction
  | _ => rfl

theorem moments_of_continues (continues : operation.continues) :
    operation.moments story = (operation.steps story).map .ofStep := by
  cases operation with
  | nextLine | nextSteps => rfl
  | _ => contradiction

theorem Aside.inLine (aside : Aside story operation after) : after.inLine = story.inLine := by
  cases aside <;> rfl

/-- What the host does within a line besides going on with it adds its moments. -/
theorem follows_aside (follows : Follows listed moments story)
    (pauses : operation.continues = false) (aside : Aside story operation after) :
    Follows listed (moments ++ operation.moments story) after := by
  cases aside with
  | refused error failed =>
    rw [moments_of_pause pauses, append_nil]
    · exact follows
    · rintro name value rfl
      rw [← Bool.not_eq_true]
      intro declared
      rw [perform, setGlobal_declared declared] at failed
      contradiction
  | @setGlobal name value declared =>
    rw [Operation.moments, if_pos declared]
    have same : SameGlobals (story.state.write name value) (story.written name value).state :=
      ⟨rfl, rfl, rfl, rfl⟩
    have valued := follows.noting.declared name declared
    refine follows.append rfl rfl (same.noting (follows.noting.write name value)) fun other => ?_
    rw [same.noted, mem_noted_write follows.noting.begun, Globals.stored?, Option.isSome_or,
      valued]
    simp [eq_comm]
  | choose changed =>
    rw [moments_of_pause pauses fun _ _ => Operation.noConfusion, append_nil]
    refine follows.stay (follows.noting.changes changed) (fun name => ?_) rfl
    rw [noted_of_changes changed]
  | endBackgroundSave =>
    rw [moments_of_pause pauses fun _ _ => Operation.noConfusion, append_nil]
    split
    · exact follows.stay follows.noting.applyPatch
        (fun _ => mem_noted_applyPatch follows.noting.begun) rfl
    · exact follows.congr ⟨rfl, rfl, rfl, rfl⟩ rfl
  | checkBindings | forgetReports =>
    rw [moments_of_pause pauses fun _ _ => Operation.noConfusion, append_nil]
    exact follows.congr ⟨rfl, rfl, rfl, rfl⟩ rfl

/-- A line of which moments are evaluated. -/
inductive LineSoFar (story : Story) : List Moment → Story → Prop where
  /-- It is about to begin. -/
  | start (complete : story.inLine = false) : LineSoFar story [] story
  | part {moments : List Moment} {middle after : Story} {operation : Operation}
      (line : LineSoFar story moments middle) (continues : operation.continues = true)
      (run : operation.perform middle = .ok () after) (unfinished : after.inLine = true) :
      LineSoFar story (moments ++ operation.moments middle) after
  /-- The host does something else. -/
  | aside {moments : List Moment} {middle : Story} {operation : Operation}
      (line : LineSoFar story moments middle) (unfinished : middle.inLine = true)
      (pauses : operation.continues = false) :
      LineSoFar story (moments ++ operation.moments middle) (operation.after middle)

theorem LineSoFar.complete (line : LineSoFar story moments middle) : story.inLine = false := by
  induction line with
  | start complete => exact complete
  | part _ _ _ _ ih => exact ih
  | aside _ _ _ ih => exact ih

/-- A line that is about to begin or go on has the record of its moments. -/
theorem follows_start (reachable : story.Reachable)
    (line : middle = story ∧ moments = [] ∧ story.inLine = false ∨ middle.inLine ∧ Follows story.state.listed moments middle)
    (required : requireBindings middle = .ok () ready)
    (begun : beginLine partly ready = .ok () start) : Follows story.state.listed moments start := by
  obtain rfl := eq_of_requireBindings required
  obtain ⟨unfinished, rfl⟩ | ⟨finished, -, rfl⟩ := beginLine_eq_ok begun
  · obtain ⟨rfl, -, complete⟩ | ⟨-, follows⟩ := line
    · rw [show middle.inLine from unfinished] at complete
      contradiction
    · exact follows.congr ⟨rfl, rfl, rfl, rfl⟩ rfl
  · obtain ⟨rfl, rfl, complete⟩ | ⟨unfinished, -⟩ := line
    · have kept := reachable.kept
      have settled := (reachable.idle complete).settled
      refine ⟨⟨⟨kept.state.declared, kept.state.patched⟩, rfl, ?_⟩, fun name => ?_, ?_⟩
      · intro name member
        contradiction
      · change name ∈ [] ++ middle.state.listed ↔ _
        simp [Tells]
      · intro snapshot pending
        rw [settled] at pending
        contradiction
    · rw [show middle.inLine = false from finished] at unfinished
      contradiction

/-- The record of a line is that of its moments. -/
theorem LineSoFar.follows (reachable : story.Reachable) (line : LineSoFar story moments middle) :
    middle = story ∧ moments = [] ∧ story.inLine = false ∨
      middle.inLine ∧ Follows story.state.listed moments middle := by
  induction line with
  | start complete => exact .inl ⟨rfl, rfl, complete⟩
  | part _ continues run unfinished ih =>
    obtain ⟨partly, more, ready, start, ended, last, required, begun, steps, ran, same, stops⟩ :=
      line_of_perform continues run
    rw [unfinished] at stops
    subst stops
    subst same
    rw [moments_of_continues continues, steps]
    obtain ⟨-, complete⟩ | ⟨follows, -⟩ := (follows_start reachable ih required begun).runSteps ran
    · contradiction
    · exact .inr ⟨unfinished, follows⟩
  | aside _ unfinished pauses ih =>
    obtain ⟨rfl, -, complete⟩ | ⟨-, follows⟩ := ih
    · rw [unfinished] at complete
      contradiction
    · have aside := aside_of_unfinished pauses unfinished
      exact .inr ⟨aside.inLine.trans unfinished, follows_aside follows pauses aside⟩

theorem journal_start (required : requireBindings middle = .ok () ready)
    (begun : beginLine partly ready = .ok () start) : start.journal = middle.journal := by
  obtain rfl := eq_of_requireBindings required
  obtain ⟨-, rfl⟩ | ⟨-, -, rfl⟩ := beginLine_eq_ok begun <;> rfl

theorem journal_step (taken : reportFailure singleStep story = .ok wentBack next) :
    next.journal = story.journal ++ story.newCalls.map .called := by
  obtain ⟨journal, -, -⟩ : _ ∧ _ ∧
      Moving (fun _ => True) (· ∈ story.newCalls) singleStep story :=
    moving_newCalls fun _ _ => trivial
  unfold reportFailure at taken
  cases outcome : singleStep story <;> rw [outcome] at journal taken <;> cases taken
  all_goals exact journal

/-- The steps of a line add their calls of the host to the journal. -/
theorem journal_runSteps (ran : runSteps more start = .ok ended last) :
    last.journal = start.journal ++ ((stepsFrom more start).flatMap newCalls).map .called := by
  induction more generalizing start with
  | zero =>
    obtain ⟨wentBack, middle, taken, done⟩ := bind_eq_ok_iff.mp ran
    cases done
    rw [journal_step taken, stepsFrom, flatMap_singleton]
  | succ more ih =>
    obtain ⟨wentBack, middle, taken, looked⟩ := bind_eq_ok_iff.mp ran
    obtain ⟨_, _, same, rest⟩ := bind_eq_ok_iff.mp looked
    cases same
    simp only [stepsFrom, taken]
    by_cases stops : (wentBack || !middle.canContinue)
    · rw [if_pos stops] at rest ⊢
      cases rest
      rw [journal_step taken, flatMap_singleton]
    · rw [if_neg stops] at rest ⊢
      rw [ih rest, journal_step taken, flatMap_cons, map_append, append_assoc]

/-- How much of what a line did stays when it ends. -/
inductive Stays (after : Story) : List Moment → List Moment → Prop where
  /-- All of it: the last step does not go back and leaves no newline to go back to. -/
  | all {kept : List Moment} {last : Moment} {next : Story} (ends : kept.getLast? = some last)
      (taken : reportFailure singleStep last.story = .ok false next)
      (settled : next.snapshot = none) : Stays after kept []
  /-- What was done when it began to look ahead at a newline, to which it goes back. -/
  | upTo {kept undone : List Moment} {last : Moment} {newline : State}
      (ends : kept.getLast? = some last) (marks : last.story.Marks newline)
      (behind : ∀ moment ∈ undone, moment.story.Pending newline)
      (back : ∀ name, after.state.global? name = newline.global? name) : Stays after kept undone

/-- What observers are told when a line ends: what the moments of the line reassigned that stay, and
what was listed before, each global once and with its value. -/
structure Told (listed : List String) (kept : List Moment) (after : Story)
    (changes : List (String × Value)) : Prop where
  names : ∀ name, name ∈ changes.map Prod.fst ↔ Tells listed kept name
  once : (changes.map Prod.fst).Nodup
  values : ∀ name value, (name, value) ∈ changes → after.state.global? name = some value
  /-- What stays listed was told. -/
  relisted : ∀ name ∈ after.state.listed, name ∈ changes.map Prod.fst

/-- The end of a line tells observers what is noted. -/
theorem told_endLine {kept : List Moment} (noting : last.rewind.state.Noting)
    (noted : ∀ name, name ∈ last.rewind.state.noted ↔ Tells listed kept name) :
    ∃ changes, last.endLine.journal = last.journal ++ last.endLine.tellings changes ∧
      Told listed kept last.endLine changes := by
  have same := sameGlobals_checkEnd last.rewind.program last.rewind.state
  have ended := same.noting noting
  let final := checkEnd last.rewind.program last.rewind.state
  refine ⟨final.globals.lineChanges final.patch, ?_, ?_, nodup_lineChanges,
    fun name value member => ?_, fun name member => ?_⟩
  · rw [← journal_rewind last]
    rfl
  · intro name
    rw [← noted, ← same.noted, mem_names_lineChanges ended]
  · exact ((mem_lineChanges ended).mp member).2
  · rw [mem_names_lineChanges ended]
    exact mem_append_right _ member

/-- A line that goes back to a newline tells what was reassigned before it. -/
theorem told_of_returned (returned : Returned listed moments last.rewind) :
    ∃ changes kept undone, last.endLine.journal = last.journal ++ last.endLine.tellings changes ∧
      moments = kept ++ undone ∧ Stays last.endLine kept undone ∧
      Told listed kept last.endLine changes := by
  obtain ⟨newline, ⟨kept, undone, rfl, ⟨final, ends, marks⟩, behind, names⟩, noted, globals⟩ :=
    returned.newline
  obtain ⟨changes, journal, told⟩ :=
    told_endLine returned.noting fun name => (noted name).trans (names name)
  refine ⟨changes, kept, undone, journal, rfl, .upTo ends marks behind fun name => ?_, told⟩
  exact (global?_checkEnd ..).trans (globals name)

/-- When a line ends, observers are told what it reassigned, but for what it went back behind. While
the host is saving, they are also told what lines before it reassigned. -/
theorem observers_told {operation : Operation} {middle : Story} (reachable : story.Reachable)
    (line : LineSoFar story moments middle) (continues : operation.continues = true)
    (run : operation.perform middle = .ok () after) (complete : after.inLine = false) :
    ∃ changes kept undone,
      after.journal =
          middle.journal ++ ((operation.steps middle).flatMap newCalls).map .called ++
            after.tellings changes ∧
        moments ++ operation.moments middle = kept ++ undone ∧ Stays after kept undone ∧
        Told story.state.listed kept after changes ∧
        (story.isSaving = false → story.state.listed = []) := by
  obtain ⟨partly, more, ready, start, ended, last, required, begun, steps, ran, same, stops⟩ :=
    line_of_perform continues run
  rw [complete] at stops
  subst stops
  subst same
  have listed : story.isSaving = false → story.state.listed = [] := by
    intro free
    rw [State.listed, reachable.kept.unpatched free (reachable.idle line.complete).settled]
    rfl
  rw [moments_of_continues continues, steps, ← journal_start required begun, ← journal_runSteps ran]
  have follows := follows_start reachable (line.follows reachable) required begun
  -- the story went back, or it goes back now, or it stays
  obtain ⟨returned, -⟩ | ⟨follows, final, ends, taken⟩ := follows.runSteps ran
  · rw [← rewind_settled returned.settled] at returned
    obtain ⟨changes, kept, undone, told⟩ := told_of_returned returned
    exact ⟨changes, kept, undone, told.1, told.2.1, told.2.2.1, told.2.2.2, listed⟩
  · cases pending : last.snapshot with
    | some snapshot =>
      obtain ⟨changes, kept, undone, told⟩ :=
        told_of_returned (follows.rewind (by rw [pending]; rfl))
      exact ⟨changes, kept, undone, told.1, told.2.1, told.2.2.1, told.2.2.2, listed⟩
    | none =>
      have noting := follows.noting
      have noted := follows.noted
      rw [← rewind_settled pending] at noting noted
      obtain ⟨changes, journal, told⟩ := told_endLine noting noted
      have endsWith : (moments ++ (stepsFrom more start).map Moment.ofStep).getLast? =
          some (Moment.ofStep final) := by
        rw [getLast?_append, getLast?_map, ends]
        rfl
      have stays : Stays last.endLine (moments ++ (stepsFrom more start).map .ofStep) [] :=
        .all endsWith taken pending
      exact ⟨changes, _, [], journal, (append_nil _).symm, stays, told, listed⟩

/-- A global that the first of two lines assigns. -/
@[irreducible]
def assignedLine : Program where
  root :=
    .mk none {}
      [.content (.ofText "Hello"), .content (.command .beginEvaluation),
        .content (.value (.int 5)), .content (.command .endEvaluation),
        .content (.assignment ⟨"mood", false, true⟩), .content (.ofText "\n"),
        .content (.ofText "Bye"), .content (.ofText "\n"), .content (.command .done)]
      [(declarationName,
        .mk none {}
          [.content (.command .beginEvaluation), .content (.value (.int 0)),
            .content (.assignment ⟨"mood", true, true⟩), .content (.command .endEvaluation),
            .content (.command .finish)] [])]

theorem told_of_assignedLine :
    ∃ story after changes kept undone, story.Reachable ∧ nextLine.perform story = .ok () after ∧
      nextLine.moments story = kept ++ undone ∧ Stays after kept undone ∧
      Told [] kept after changes ∧ after.tellings changes = [.changed 0 "mood" (.int 5)] := by
  obtain ⟨fresh, started, story, watched, free, begins, quiet, after, run, complete, told⟩ :
      ∃ fresh, start assignedLine {} = .ok fresh ∧
        ∃ story, performAll [.observe "mood"] fresh = .ok () story ∧ story.isSaving = false ∧
          story.inLine = false ∧ (nextLine.steps story).flatMap newCalls = [] ∧
          ∃ after, nextLine.perform story = .ok () after ∧ after.inLine = false ∧
            after.journal = story.journal ++ [.changed 0 "mood" (.int 5)] := by
    decide +kernel
  have reachable := reachable_performAll watched (.start started)
  obtain ⟨changes, kept, undone, journal, split, stays, named, unlisted⟩ :=
    observers_told reachable (.start begins) rfl run complete
  rw [unlisted free] at named
  rw [quiet, map_nil, append_nil, told, append_cancel_left_eq] at journal
  exact ⟨story, after, changes, kept, undone, reachable, run, split, stays, named, journal.symm⟩

/-- While the host is saving, a line tells observers of a global that it does not assign. -/
theorem told_again_while_saving :
    ∃ story after, story.Reachable ∧ nextLine.perform story = .ok () after ∧
      (∀ moment ∈ nextLine.moments story, moment.reassigned = none) ∧
      after.journal = story.journal ++ [.changed 0 "mood" (.int 5)] := by
  obtain ⟨fresh, started, story, played, silent, after, run, again⟩ :
      ∃ fresh, start assignedLine {} = .ok fresh ∧
        ∃ story, performAll [.observe "mood", .startBackgroundSave, .nextLine] fresh =
            .ok () story ∧ (∀ moment ∈ nextLine.moments story, moment.reassigned = none) ∧
          ∃ after, nextLine.perform story = .ok () after ∧
            after.journal = story.journal ++ [.changed 0 "mood" (.int 5)] := by
    decide +kernel
  exact ⟨story, after, reachable_performAll played (.start started), run, silent, again⟩

end Operation

end InkStory
