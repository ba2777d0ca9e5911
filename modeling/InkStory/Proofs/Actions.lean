import InkStory.Proofs.Moves
import InkStory.Story.Control
import InkStory.Story.Saves
import InkStory.Story.Start

/-! # What a host does with a story

The operations of a host, the steps that each takes, and what they do to a story besides the moves
of those steps. -/

namespace InkStory

open List Play Run State

variable {story : Story} {bindings : Table String Binding} {writable : String → Prop}
  {callable : HostCall → Prop} {more : Nat} {excused : Error → Prop} {holds allowed : Story → Prop}
  {name : String}

/-- A choice that is shown was offered. -/
theorem State.mem_choices_of_visible {state : State} {index : Nat} {choice : Choice}
    (listed : state.visibleChoices[index]? = some choice) : choice ∈ state.choices := by
  have shown := mem_of_getElem? listed
  unfold visibleChoices at shown
  split at shown
  · contradiction
  · exact mem_of_mem_filter shown

namespace Story

/-- The story with a line begun. -/
def begin (partly : Bool) (story : Story) : Story :=
  { story with
    inLine := partly
    state :=
      { story.state with
        exitedSafely := false
        output := {}
        globals := story.state.globals.beginLine } }

/-- The story with nothing played of it. -/
def restarted (story : Story) : Story :=
  { story with state := atStart story.config, snapshot := none }

/-- The story with a global written by the host, whose observers are told. -/
def written (name : String) (value : Value) (story : Story) : Story :=
  let state := story.state.write name value
  (story.modifyState fun _ => { state with globals := state.globals.forgetOthers }).notify
    (state.globals.otherChanges state.patch)

/-- What an operation can do to a story at once, where `writable` says which globals are assigned,
and `callable` which calls of the host are made. -/
inductive Action (writable : String → Prop) (callable : HostCall → Prop) (story : Story) :
    Story → Prop where
  | move {after : Story} (move : Move writable callable story after) :
      Action writable callable story after
  /-- A step failed. -/
  | fail (error : Error) :
      Action writable callable story (story.modifyState fun state => state.fail story.program error)
  | begin (partly : Bool) (complete : story.inLine = false) :
      Action writable callable story (story.begin partly)
  /-- A line that was left unfinished goes on. -/
  | resume (partly : Bool) (unfinished : story.inLine = true) :
      Action writable callable story { story with inLine := partly }
  | finish : Action writable callable story story.endLine
  /-- Every function that the story calls was found. -/
  | check : Action writable callable story { story with bindingsChecked := true }
  | notify (changes : List (String × Value)) : Action writable callable story (story.notify changes)
  | forgetOthers :
      Action writable callable story
        (story.modifyState fun state => { state with globals := state.globals.forgetOthers })
  | forgetReports : Action writable callable story (story.modifyState State.forgetReports)
  | clearOutput : Action writable callable story (story.modifyState fun state => { state with output := {} })
  | startSaving (complete : story.inLine = false) (free : story.isSaving = false) :
      Action writable callable story { story with state := story.state.startPatch, isSaving := true }
  | endSaving :
      Action writable callable story
        { story with
          state := if story.snapshot.isNone then story.state.applyPatch else story.state
          isSaving := false }

/-- The host sets up functions and observers, and does nothing else to a story. It takes a function
away only where it `unbinds` one. -/
inductive SetsUp (unbinds : Prop) (story : Story) : Story → Prop where
  | intro (bindings : Table String Binding) (bindingsChecked : Bool)
      (observers : Table String (List Nat)) (nextObserver : Nat)
      (left : unbinds ∨ ∀ name, story.bindings.contains name → bindings.contains name) :
      SetsUp unbinds story { story with bindings, bindingsChecked, observers, nextObserver }

theorem SetsUp.check (story : Story) :
    SetsUp unbinds story { story with bindingsChecked := true } :=
  .intro story.bindings true story.observers story.nextObserver (.inr fun _ => id)

theorem SetsUp.of_bindings
    (left : unbinds ∨ ∀ name, story.bindings.contains name → bindings.contains name) :
    SetsUp unbinds story { story with bindings := bindings } :=
  .intro bindings story.bindingsChecked story.observers story.nextObserver left

end Story

namespace Play

open Story

variable {step : Story → Story → Prop} {play : Play α} {after : Story}

/-- An operation does nothing to a story but act on it. -/
abbrev Acting (writable : String → Prop) (callable : HostCall → Prop) (play : Play α)
    (story : Story) : Prop :=
  Leads (Action writable callable) play story

theorem acting_of_moving (moving : Moving writable callable play story) :
    Acting writable callable play story :=
  moving.mono fun _ _ => .move

theorem acting_of_evaluating (evaluating : Evaluating writable callable play story) :
    Acting writable callable play story :=
  acting_of_moving (moving_of_evaluating evaluating)

theorem acting_onState {run : Run α}
    (changing : Changing story.program writable run story.state) :
    Acting writable callable (onState run) story := acting_of_evaluating (evaluating_onState changing)

theorem leads_requireLineEnd (activity : String) : Leads step (requireLineEnd activity) story := by
  refine .get_bind ?_
  split
  · exact .throw _
  · exact .pure _

theorem program_endLine (story : Story) : story.endLine.program = story.program :=
  have move : Move (fun _ => True) (fun _ => True) story story.rewind := .rewind
  move.program_eq

/-- An operation keeps what holds of a story, unless it fails with an error that is excused. -/
def Keeps (excused : Error → Prop) (holds : Story → Prop) (play : Play α) (story : Story) : Prop :=
  holds story → (∀ error left, play story = .error error left → ¬excused error) →
    holds (leaves (play story))

namespace Keeps

theorem bind {first : Play α} {next : α → Play β} (head : Keeps excused holds first story)
    (tail : ∀ value middle, first story = .ok value middle →
      Keeps excused holds (next value) middle) :
    Keeps excused holds (first >>= next) story := by
  intro start fails
  unfold Keeps at head
  rw [bind_apply] at fails ⊢
  cases done : first story with
  | ok value middle =>
    rw [done] at fails head
    exact tail value middle done (head start fun _ _ failed => nomatch failed) fails
  | error error middle =>
    rw [done] at fails head
    refine head start fun _ _ same => ?_
    cases same
    exact fails error middle rfl

theorem get_bind {next : Story → Play β} (tail : Keeps excused holds (next story) story) :
    Keeps excused holds (get >>= next) story := tail

theorem pure (value : α) : Keeps excused holds (Pure.pure value) story := fun start _ => start

theorem throw (error : Error) : Keeps excused holds (throw error : Play α) story :=
  fun start _ => start

theorem modify {change : Story → Story} (kept : holds story → holds (change story)) :
    Keeps excused holds (modify change) story := fun start _ => kept start

theorem of_leads (leads : Leads step play story)
    (kept : ∀ before after, step before after → holds before → holds after) :
    Keeps excused holds play story := fun start _ => leads.invariant kept start

/-- An operation that is refused within a line. -/
theorem atLineEnd {activity : String} {next : Play α}
    (tail : story.inLine = false → Keeps excused holds next story) :
    Keeps excused holds (do requireLineEnd activity; next) story := by
  refine .bind (.of_leads (leads_requireLineEnd activity) fun _ _ => id) fun _ middle required => ?_
  obtain ⟨complete, rfl⟩ := requireLineEnd_eq_ok required
  exact tail complete

/-- An operation that is refused in some stories. -/
theorem refused {denied : Prop} [Decidable denied] {error : Error} {next : PUnit → Play α}
    (tail : ¬denied → Keeps excused holds (next ()) story) :
    Keeps excused holds (if denied then MonadExcept.throw error >>= next else next ()) story := by
  split
  · exact fun start _ => start
  · next allowed => exact tail allowed

/-- Where nothing is excused, an operation keeps what holds. -/
theorem still (keeps : Keeps (fun _ => False) holds play story) (start : holds story) :
    holds (leaves (play story)) := keeps start fun _ _ _ => id

theorem still_ok {value : α} (keeps : Keeps (fun _ => False) holds play story) (start : holds story)
    (done : play story = .ok value after) : holds after := by
  have left := Keeps.still keeps start
  rwa [done] at left

end Keeps

/-! ### What the host sets up -/

/-- An operation does nothing to a story but set up functions and observers. -/
abbrev Preparing (unbinds : Prop) (play : Play α) (story : Story) : Prop :=
  Leads (SetsUp unbinds) play story

theorem preparing_bind (name : String) (function : HostFunction) (lookaheadSafe : Bool) :
    Preparing unbinds (bind name function lookaheadSafe) story :=
  .bind (leads_requireLineEnd _) fun _ _ _ => .get_bind (.refused fun _ =>
    .modify (.single (.of_bindings (.inr fun _ => Table.contains_insert))))

/-- Of functions of the host none is taken away where others are bound. -/
theorem contains_bindAll (there : bindings.contains name)
    (functions : List (String × HostFunction × Bool)) :
    (functions.foldl (fun bindings (name, function, lookaheadSafe) =>
      if bindings.contains name then bindings
      else bindings.insert name { function, lookaheadSafe }) bindings).contains name := by
  induction functions generalizing bindings with
  | nil => exact there
  | cons function rest ih =>
    apply ih
    dsimp only
    split
    · exact there
    · exact Table.contains_insert there

theorem preparing_bindAll (functions : List (String × HostFunction × Bool)) :
    Preparing unbinds (bindAll functions) story :=
  .bind (leads_requireLineEnd _) fun _ _ _ =>
    .modify (.single (.of_bindings (.inr fun _ there => contains_bindAll there functions)))

theorem preparing_unbind (name : String) : Preparing True (unbind name) story :=
  .bind (leads_requireLineEnd _) fun _ _ _ => .get_bind (.refused fun _ =>
    .modify (.single (.of_bindings (.inl trivial))))

theorem leads_checkBindings
    (checks : ∀ before : Story, step before { before with bindingsChecked := true }) :
    Leads step checkBindings story :=
  .get_bind (.refused fun _ => .set (.single (checks story)))

theorem leads_requireBindings
    (checks : ∀ before : Story, step before { before with bindingsChecked := true }) :
    Leads step requireBindings story := by
  refine .get_bind ?_
  split
  · exact leads_checkBindings checks
  · exact .pure _

theorem preparing_observe (name : String) : Preparing unbinds (observe name) story :=
  .bind (leads_requireLineEnd _) fun _ middle _ => .get_bind (.refused fun _ =>
    .bind (.set (.single (.intro middle.bindings middle.bindingsChecked _ _ (.inr fun _ => id))))
      fun _ _ _ => .pure _)

theorem preparing_removeObserver (observer : Nat) :
    Preparing unbinds (removeObserver observer) story := by
  refine .bind (leads_requireLineEnd _) fun _ middle _ => ?_
  refine .get_bind ?_
  refine .bind (.set (.single ?_)) fun _ _ _ => .pure _
  exact .intro middle.bindings middle.bindingsChecked _ middle.nextObserver (.inr fun _ => id)

/-! ### Lines -/

/-- A step that fails ends the story. -/
theorem acting_reportFailure {play : Play Bool}
    (moving : Moving writable callable play story) :
    Acting writable callable (reportFailure play) story := by
  have acting := acting_of_moving moving
  unfold Acting Leads at *
  unfold reportFailure
  cases outcome : play story with
  | ok value after =>
    rw [outcome] at acting
    exact acting
  | error error after =>
    rw [outcome] at acting
    exact acting.tail (.fail error)

/-- The stories from which a line takes its steps, `more` at most behind the first. -/
def stepsFrom : Nat → Story → List Story
  | 0, story => [story]
  | more + 1, story =>
    story ::
      match reportFailure singleStep story with
      | .ok wentBack next => if wentBack || !next.canContinue then [] else stepsFrom more next
      | .error _ _ => []

/-- What a line begins with, and every step keeps behind which it goes on, every step of it begins
with. -/
theorem stepsFrom_invariant
    (kept : ∀ before wentBack next, holds before → reportFailure singleStep before = .ok wentBack next → next.canContinue → holds next)
    (start : holds story) : ∀ step ∈ stepsFrom more story, holds step := by
  induction more generalizing story with
  | zero =>
    intro step member
    rwa [mem_singleton.mp member]
  | succ more ih =>
    intro step member
    rcases mem_cons.mp member with rfl | member
    · exact start
    · split at member
      · next wentBack next taken =>
        split at member
        · contradiction
        · next goesOn =>
          have goesOn : wentBack = false ∧ next.canContinue := by simpa using goesOn
          exact ih (kept story wentBack next start taken goesOn.2) step member
      · contradiction

/-- The stories from which a line takes its steps once it has begun. -/
def begunSteps (partly : Bool) (more : Nat) (story : Story) : List Story :=
  match beginLine partly story with
  | .ok _ start => stepsFrom more start
  | .error _ _ => []

end Play

/-- What holds of a story is kept by the parts of lines whose steps are allowed. -/
structure Story.KeptInLines (allowed holds : Story → Prop) : Prop where
  step {story : Story} : allowed story → holds story → holds (leaves (reportFailure singleStep story))
  begin {story : Story} (partly : Bool) :
    story.inLine = false → holds story → holds (story.begin partly)
  resume {story : Story} (partly : Bool) :
    story.inLine = true → holds story → holds { story with inLine := partly }
  finish {story : Story} : holds story → holds story.endLine

namespace Story.KeptInLines

theorem of_actions
    (acts : ∀ before after, Action writable callable before after → holds before → holds after) :
    KeptInLines (Allows writable callable) holds where
  step allowed := (acting_reportFailure (moving_allowed allowed)).invariant acts
  begin partly complete := acts _ _ (.begin partly complete)
  resume partly unfinished := acts _ _ (.resume partly unfinished)
  finish := acts _ _ .finish

variable (kept : KeptInLines allowed holds)

include kept

theorem runSteps (fits : ∀ step ∈ stepsFrom more story, allowed step) :
    Keeps excused holds (runSteps more) story := by
  induction more generalizing story with
  | zero =>
    refine .bind (fun start _ => kept.step ?_ start) fun _ _ _ => .get_bind (.pure _)
    exact fits story mem_cons_self
  | succ more ih =>
    refine .bind (fun start _ => kept.step ?_ start) fun wentBack next done => .get_bind ?_
    · exact fits story mem_cons_self
    · split
      · exact .pure _
      · next goesOn =>
        refine ih fun step taken => fits step ?_
        simp only [stepsFrom, done, goesOn]
        exact mem_cons_of_mem _ taken

theorem beginLine (partly : Bool) : Keeps excused holds (beginLine partly) story := by
  refine .get_bind ?_
  split
  · next unfinished => exact fun start _ => kept.resume partly unfinished start
  · next complete =>
    exact .refused fun _ start _ => kept.begin partly (by simpa using complete) start

theorem wholeLine (fits : ∀ step ∈ begunSteps false stepLimit story, allowed step) :
    Keeps excused holds wholeLine story := by
  refine .bind (kept.beginLine false) fun _ start begun => ?_
  simp only [begunSteps, begun] at fits
  refine .bind (kept.runSteps fits) fun complete _ _ => ?_
  split
  · exact .modify kept.finish
  · exact .throw _

theorem partOfLine (fits : ∀ step ∈ begunSteps true more story, allowed step) :
    Keeps excused holds (partOfLine more) story := by
  refine .bind (kept.beginLine true) fun _ start begun => ?_
  simp only [begunSteps, begun] at fits
  refine .bind (kept.runSteps fits) fun complete _ _ => ?_
  split
  · exact .modify kept.finish
  · exact .pure _

end Story.KeptInLines

namespace Play

open Story

/-- The stories from which the next line takes its steps, `more` at most behind the first. -/
def lineSteps (partly : Bool) (more : Nat) (story : Story) : List Story :=
  match requireBindings story with
  | .ok _ ready => begunSteps partly more ready
  | .error _ _ => []

/-- The stories from which lines take their steps, one line after another. -/
def linesSteps : Nat → Story → List Story
  | 0, _ => []
  | limit + 1, story =>
    if !story.canContinue then []
    else
      lineSteps false stepLimit story ++
        match nextLine story with
        | .ok _ next => linesSteps limit next
        | .error _ _ => []

/-- The stories from which the declarations of the globals take their steps. -/
def declarationSteps (story : Story) : List Story :=
  if story.program.root.hasName declarationName then
    match onState (choosePath story.program (Path.parse declarationName) false) story with
    | .ok _ ready => begunSteps false stepLimit ready
    | .error _ _ => []
  else []

theorem declares_of_start {program : Program} {config : Config}
    (started : start program config = .ok story) :
    declareGlobals { program, config, state := atStart config } = .ok () story := by
  unfold start at started
  split at started
  · next declared =>
    cases started
    exact declared
  · contradiction

end Play

/-- An operation of the host. -/
inductive Operation where
  | nextLine
  | nextSteps (more : Nat)
  | allLines
  | choose (index : Nat)
  | goTo (path : String) (reset : Bool) (arguments : List Value)
  | callFunction (name : String) (arguments : List Value)
  | bind (name : String) (function : HostFunction) (lookaheadSafe : Bool)
  | bindAll (functions : List (String × HostFunction × Bool))
  | unbind (name : String)
  | checkBindings
  | setGlobal (name : String) (value : Value)
  | observe (name : String)
  | removeObserver (observer : Nat)
  | reset
  | resetCallStack
  | forgetReports
  | load (text : String)
  | startBackgroundSave
  | endBackgroundSave

namespace Operation

/-- Carry out an operation. -/
def perform : Operation → Play Unit
  | .nextLine => do let _ ← Play.nextLine
  | .nextSteps more => Play.nextSteps more
  | .allLines => do let _ ← Play.allLines
  | .choose index => Play.choose index
  | .goTo path leave arguments => Play.goTo path leave arguments
  | .callFunction name arguments => do let _ ← Play.callFunction name arguments
  | .bind name function lookaheadSafe => Play.bind name function lookaheadSafe
  | .bindAll functions => Play.bindAll functions
  | .unbind name => Play.unbind name
  | .checkBindings => Play.checkBindings
  | .setGlobal name value => Play.setGlobal name value
  | .observe name => do let _ ← Play.observe name
  | .removeObserver observer => do let _ ← Play.removeObserver observer
  | .reset => Play.reset
  | .resetCallStack => Play.resetCallStack
  | .forgetReports => Play.forgetReports
  | .load text => Play.load text
  | .startBackgroundSave => do let _ ← Play.startBackgroundSave
  | .endBackgroundSave => Play.endBackgroundSave

/-- The story behind an operation, whether it fails or not. -/
def after (operation : Operation) (story : Story) : Story := leaves (operation.perform story)

/-- The stories from which an operation takes its steps. -/
def steps : Operation → Story → List Story
  | .nextLine, story => lineSteps false stepLimit story
  | .nextSteps more, story => lineSteps true more story
  | .allLines, story => if story.inLine then [] else linesSteps stepLimit story
  | .callFunction name arguments, story =>
    match enterCall name arguments story with
    | .ok _ entered => linesSteps stepLimit entered
    | .error _ _ => []
  | .reset, story =>
    if story.inLine then [] else declarationSteps story.restarted
  | _, _ => []

/-- An operation only sets up functions and observers. -/
def isSetUp : Operation → Bool
  | .bind _ _ _ | .bindAll _ | .unbind _ | .checkBindings | .observe _ | .removeObserver _ => true
  | _ => false

/-- An operation takes a function of the host away. -/
def unbinds : Operation → Prop
  | .unbind _ => True
  | _ => False

theorem preparing_perform {operation : Operation} (setUp : operation.isSetUp) :
    Preparing operation.unbinds operation.perform story := by
  cases operation with
  | bind name function lookaheadSafe => exact preparing_bind name function lookaheadSafe
  | bindAll functions => exact preparing_bindAll functions
  | unbind name => exact preparing_unbind name
  | checkBindings => exact leads_checkBindings .check
  | observe name => exact .bind (preparing_observe name) fun _ _ _ => .pure _
  | removeObserver observer =>
    exact .bind (preparing_removeObserver observer) fun _ _ _ => .pure _
  | _ => contradiction

/-- An operation replaces the whole state. -/
def replaces : Operation → Bool
  | .reset | .load _ => true
  | _ => false

/-- An operation takes a part of a line, plays a function, writes a global or replaces the state. -/
def intervenes : Operation → Bool
  | .nextSteps _ | .callFunction _ _ | .setGlobal _ _ => true
  | operation => operation.replaces

end Operation

/-! ### What operations are made of -/

namespace Play

variable {value : Value}

theorem setGlobal_declared (declared : (story.state.globals.default? name).isSome) :
    setGlobal name value story = .ok () (story.written name value) := by
  simp only [setGlobal, bind_apply, get_apply, Globals.setDeclared, if_pos declared, ofExcept_ok]
  rfl

theorem setGlobal_undeclared (undeclared : ¬(story.state.globals.default? name).isSome) :
    setGlobal name value story = .error (.undeclaredVariable name) story := by
  simp only [setGlobal, bind_apply, get_apply, Globals.setDeclared, if_neg undeclared,
    ofExcept_error]

theorem keeps_setGlobal (own : holds story → holds (story.written name value)) :
    Keeps excused holds (setGlobal name value) story := by
  intro start _
  by_cases declared : (story.state.globals.default? name).isSome
  · rw [setGlobal_declared declared]
    exact own start
  · rw [setGlobal_undeclared declared]
    exact start

theorem keeps_enterCall (arguments : List Value)
    (changes : ∀ {story : Story} {run : Run Unit},
      (∀ writable, Changing story.program writable run story.state) →
        Keeps excused holds (onState run) story)
    (clears : ∀ before : Story,
      holds before → holds (before.modifyState fun state => { state with output := {} })) :
    Keeps excused holds (enterCall name arguments) story := by
  refine .atLineEnd fun _ => .refused fun _ => .get_bind ?_
  split
  · next function known =>
    refine .bind (.modify (clears _)) fun _ cleared done => ?_
    cases done
    exact changes fun _ => changing_enterFunction arguments
      (Program.has_named Program.has_root known) trivial
  · exact .throw _

end Play

/-- What holds of a story is kept by what operations are made of, lines among them whose steps are
allowed. -/
structure Story.KeptInParts (excused : Error → Prop) (allowed : Story → Prop) (unbinds : Prop)
    (holds : Story → Prop) : Prop where
  wholeLine {story : Story} (fits : ∀ step ∈ begunSteps false stepLimit story, allowed step) :
    Keeps excused holds wholeLine story
  setUp {story after : Story} : SetsUp unbinds story after → holds story → holds after
  choosePath {story : Story} (path : Path) (beginsTurn : Bool) :
    Keeps excused holds (onState (choosePath story.program path beginsTurn)) story
  passArguments {story : Story} (arguments : List Value) :
    Keeps excused holds (onState (passArguments arguments)) story
  take {story : Story} {choice : Choice} : choice ∈ story.state.choices → holds story →
    holds (story.modifyState fun state => state.take choice)
  forceEnd {story : Story} : holds story → holds (story.modifyState State.forceEnd)
  forgetReports {story : Story} : holds story → holds (story.modifyState State.forgetReports)
  startSaving {story : Story} : story.inLine = false → story.isSaving = false → holds story →
    holds { story with state := story.state.startPatch, isSaving := true }
  endSaving {story : Story} : holds story →
    holds
      { story with
        state := if story.snapshot.isNone then story.state.applyPatch else story.state
        isSaving := false }

/-- What holds of a story is kept behind the declarations of the globals. -/
structure Story.KeptInDeclarations (holds : Story → Prop) : Prop where
  position {story : Story} : holds story →
    holds (story.modifyState fun state => state.setPointer (some (Pointer.startOf [])))
  declare {story : Story} : holds story →
    holds (story.modifyState fun state => { state with globals := state.globals.declare })

namespace Story.KeptInParts

variable {unbinds : Prop}

theorem of_actions
    (acts : ∀ before after, Action writable callable before after → holds before → holds after)
    (prepares : ∀ before after, SetsUp unbinds before after → holds before → holds after) :
    KeptInParts excused (Allows writable callable) unbinds holds where
  wholeLine := (KeptInLines.of_actions acts).wholeLine
  setUp := prepares _ _
  choosePath _ _ := .of_leads (acting_onState (changing_choosePath _ _)) acts
  passArguments _ := .of_leads (acting_onState (calm_passArguments _).changing) acts
  take offered := acts _ _ (.move (.effect (.change (.take _ offered))))
  forceEnd := acts _ _ (.move (.effect (.change .forceEnd)))
  forgetReports := acts _ _ .forgetReports
  startSaving complete free := acts _ _ (.startSaving complete free)
  endSaving := acts _ _ .endSaving

variable (kept : KeptInParts excused allowed unbinds holds)

include kept

theorem requireBindings : Keeps excused holds requireBindings story :=
  .of_leads (leads_requireBindings SetsUp.check) fun _ _ => kept.setUp

theorem nextLine (fits : ∀ step ∈ lineSteps false stepLimit story, allowed step) :
    Keeps excused holds nextLine story := by
  refine .bind kept.requireBindings fun _ ready required => ?_
  simp only [lineSteps, required] at fits
  exact .bind (kept.wholeLine fits) fun _ _ _ => .get_bind (.pure _)

theorem nextSteps (lines : KeptInLines allowed holds)
    (fits : ∀ step ∈ lineSteps true more story, allowed step) :
    Keeps excused holds (nextSteps more) story := by
  refine .bind kept.requireBindings fun _ ready required => ?_
  simp only [lineSteps, required] at fits
  exact lines.partOfLine fits

theorem linesWithin {limit : Nat} (fits : ∀ step ∈ linesSteps limit story, allowed step) :
    Keeps excused holds (linesWithin limit) story := by
  induction limit generalizing story with
  | zero => exact .throw _
  | succ limit ih =>
    refine .get_bind ?_
    split
    · exact .pure _
    · next goesOn =>
      simp only [linesSteps, goesOn, if_false, Bool.false_eq_true, mem_append] at fits
      refine .bind (kept.nextLine fun step taken => fits step (.inl taken)) fun line next done => ?_
      simp only [done] at fits
      exact .bind (ih fun step taken => fits step (.inr taken)) fun _ _ _ => .pure _

theorem choose (index : Nat) : Keeps excused holds (choose index) story := by
  refine .get_bind ?_
  dsimp only
  split
  · next choice listed =>
    refine .bind (.modify (kept.take (mem_choices_of_visible listed))) fun _ _ took => ?_
    cases took
    exact kept.choosePath _ _
  · exact .throw _

theorem goTo (path : String) (reset : Bool) (arguments : List Value) :
    Keeps excused holds (goTo path reset arguments) story := by
  have leaving : Keeps excused holds (leaveFor path reset) story := by
    refine .get_bind ?_
    dsimp only
    split
    · exact .modify kept.forceEnd
    · split
      · exact .throw _
      · exact .pure _
  refine .atLineEnd fun _ => .bind leaving fun _ _ _ => ?_
  exact .bind (kept.passArguments arguments) fun _ _ _ => .get_bind (kept.choosePath _ _)

theorem callFunction {arguments : List Value}
    (changes : ∀ {α : Type} {story : Story} {run : Run α},
      (∀ writable, Changing story.program writable run story.state) →
        Keeps excused holds (onState run) story)
    (clears : ∀ before : Story,
      holds before → holds (before.modifyState fun state => { state with output := {} }))
    (restores : ∀ before : Story, holds before → holds (before.modifyState fun state =>
      { state with output := Output.ofStream story.state.output.stream }))
    (fits : ∀ step ∈ (Operation.callFunction name arguments).steps story, allowed step) :
    Keeps excused holds (callFunction name arguments) story := by
  refine .get_bind (.bind (keeps_enterCall arguments changes clears) fun _ entered done => ?_)
  have lines : Keeps excused holds (Play.linesWithin stepLimit) entered := by
    refine kept.linesWithin fun step taken => fits step ?_
    simpa only [Operation.steps, done] using taken
  refine .bind lines fun text _ _ => .bind ?_ fun _ _ _ => .pure _
  exact .bind (.modify (restores _)) fun _ _ _ =>
    .get_bind (changes fun _ => changing_leaveFunction trivial)

/-- The declarations of the globals are a line from a place of their own, behind which the story goes
back to its start. -/
theorem declareGlobals (behind : KeptInDeclarations holds)
    (starts : story.state.pointer = some (Pointer.startOf []))
    (fits : ∀ step ∈ declarationSteps story, allowed step) :
    Keeps excused holds declareGlobals story := by
  refine .get_bind ?_
  dsimp only
  split
  · next named =>
    refine .bind (kept.choosePath _ _) fun _ ready done => ?_
    simp only [declarationSteps, named, if_true, done] at fits
    refine .bind (kept.wholeLine fits) fun _ _ _ => ?_
    rw [starts]
    exact .bind (.modify behind.position) fun _ _ _ => .modify behind.declare
  · exact .modify behind.declare

/-- A story that is reset is one of which nothing is played, and then declares its globals. -/
theorem reset (behind : KeptInDeclarations holds)
    (restarts : story.inLine = false → holds story → holds story.restarted)
    (fits : ∀ step ∈ Operation.reset.steps story, allowed step) :
    Keeps excused holds reset story := by
  refine .atLineEnd fun complete => ?_
  simp only [Operation.steps, complete] at fits
  refine .bind (.modify (restarts complete)) fun _ begun started => ?_
  cases started
  exact kept.declareGlobals behind rfl fits

end Story.KeptInParts

namespace Operation

open Play Story

variable {operation : Operation}

theorem keeps_perform (kept : KeptInParts excused allowed operation.unbinds holds)
    (fits : ∀ step ∈ operation.steps story, allowed step)
    (own : operation.intervenes → Keeps excused holds operation.perform story) :
    Keeps excused holds operation.perform story := by
  cases operation with
  | nextLine => exact .bind (kept.nextLine fits) fun _ _ _ => .pure _
  | allLines =>
    refine .bind (.atLineEnd fun complete => kept.linesWithin fun step taken => fits step ?_)
      fun _ _ _ => .pure _
    simpa [steps, complete] using taken
  | choose index => exact kept.choose index
  | goTo path leave arguments => exact kept.goTo path leave arguments
  | bind | bindAll | unbind | checkBindings | observe | removeObserver =>
    exact .of_leads (preparing_perform rfl) fun _ _ => kept.setUp
  | resetCallStack => exact .atLineEnd fun _ => .modify kept.forceEnd
  | forgetReports => exact .modify kept.forgetReports
  | startBackgroundSave =>
    refine .bind (.atLineEnd fun complete => .get_bind (.refused fun free => ?_)) fun _ _ _ => .pure _
    refine .bind (fun start _ => ?_) fun _ _ _ => .pure _
    exact kept.startSaving complete (by simpa using free) start
  | endBackgroundSave => exact .modify kept.endSaving
  | nextSteps | callFunction | setGlobal | reset | load => exact own rfl

/-- What actions keep, and going back to its own output behind a call of a function, an operation
keeps that does not replace the state. -/
theorem holds_after (ordinary : operation.replaces = false)
    (acts : ∀ before after, Action writable callable before after → holds before → holds after)
    (prepares : ∀ before after, SetsUp operation.unbinds before after → holds before → holds after)
    (restores : ∀ before : Story, holds before → holds (before.modifyState fun state =>
      { state with output := Output.ofStream story.state.output.stream }))
    (allowed : ∀ before ∈ operation.steps story, before.Allows writable callable)
    (own : ∀ name value, operation = .setGlobal name value → writable name) (start : holds story) :
    holds (operation.after story) := by
  have kept : KeptInParts (fun _ => False) (Allows writable callable) operation.unbinds holds :=
    .of_actions acts prepares
  refine (keeps_perform kept allowed fun intervenes => ?_).still start
  cases operation with
  | nextSteps more => exact kept.nextSteps (.of_actions acts) allowed
  | callFunction name arguments =>
    refine .bind (kept.callFunction (fun changing => ?_) (fun _ => acts _ _ .clearOutput) restores
      allowed) fun _ _ _ => .pure _
    exact .of_leads (acting_onState (changing writable)) acts
  | setGlobal name value =>
    have allowed := own name value rfl
    refine keeps_setGlobal fun start => acts _ _ (.notify _) ?_
    have changed := acts _ _ (.move (.effect (.change (.write name value allowed)))) start
    exact acts _ _ .forgetOthers changed
  | reset | load => contradiction
  | _ => contradiction

end Operation

/-! ### All operations -/

namespace Story

/-- What any operation can do to a story at once, those that replace the state among them. -/
inductive Deed (unbinds : Prop) (callable : HostCall → Prop) (story : Story) : Story → Prop where
  | act {after : Story} (action : Action (fun _ => True) callable story after) :
      Deed unbinds callable story after
  | prepare (bindings : Table String Binding) (bindingsChecked : Bool)
      (observers : Table String (List Nat)) (nextObserver : Nat)
      (left : unbinds ∨ ∀ name, story.bindings.contains name → bindings.contains name) :
      Deed unbinds callable story { story with bindings, bindingsChecked, observers, nextObserver }
  /-- A call of a function goes back to the output before it. -/
  | restore (output : Output) :
      Deed unbinds callable story
        (story.modifyState fun state => { state with output := Output.ofStream output.stream })
  | restart (complete : story.inLine = false) : Deed unbinds callable story story.restarted
  /-- The story goes back to its start from the declarations of the globals. -/
  | position :
      Deed unbinds callable story
        (story.modifyState fun state => state.setPointer (some (Pointer.startOf [])))
  | declare :
      Deed unbinds callable story
        (story.modifyState fun state => { state with globals := state.globals.declare })
  | load {text : String} {state : State} (complete : story.inLine = false)
      (loaded : Run.load story.program text story.state = .ok () state) :
      Deed unbinds callable story { story with state := state, snapshot := none }
  | failLoad {text : String} {error : Error} {state : State} (complete : story.inLine = false)
      (failed : Run.load story.program text story.state = .error error state) :
      Deed unbinds callable story { story with state := state }

end Story

namespace Play

open Story

theorem leads_load (text : String) : Leads (Deed unbinds callable) (load text) story := by
  refine .bind (leads_requireLineEnd _) fun _ middle done => ?_
  obtain ⟨complete, rfl⟩ := requireLineEnd_eq_ok done
  refine .get_bind ?_
  unfold Leads
  simp only [bind_apply, onState_apply]
  cases outcome : Run.load middle.program text middle.state with
  | ok value state => exact .single (.load complete outcome)
  | error error state => exact .single (.failLoad complete outcome)

end Play

namespace Operation

open Play Story

/-- What deeds keep, an operation keeps that makes no calls of the host but those of its steps. -/
theorem deeds_after {operation : Operation}
    (calls : ∀ step ∈ operation.steps story, ∀ call ∈ step.newCalls, callable call)
    (kept : ∀ before after, Deed operation.unbinds callable before after →
      holds before → holds after)
    (start : holds story) : holds (operation.after story) := by
  have allowed : ∀ step ∈ operation.steps story, step.Allows (fun _ => True) callable :=
    fun step taken => ⟨fun _ _ => trivial, calls step taken⟩
  have prepares (before after : Story) (setsUp : SetsUp operation.unbinds before after) :
      holds before → holds after := by
    obtain ⟨_, _, _, _, left⟩ := setsUp
    exact kept _ _ (.prepare _ _ _ _ left)
  cases replaces : operation.replaces with
  | false =>
    exact holds_after replaces (fun _ _ action => kept _ _ (.act action)) prepares
      (fun _ => kept _ _ (.restore _)) allowed (fun _ _ _ => trivial) start
  | true =>
    cases operation with
    | reset =>
      have parts : KeptInParts (fun _ => False) (Allows (fun _ => True) callable) False holds :=
        .of_actions (fun _ _ action => kept _ _ (.act action)) prepares
      exact (parts.reset ⟨kept _ _ .position, kept _ _ .declare⟩
        (fun complete => kept _ _ (.restart complete)) allowed).still start
    | load text => exact (leads_load text).invariant kept start
    | _ => contradiction

end Operation

/-- A story that a host began, and led on by operations of which none met an endless line. -/
inductive Story.Reachable : Story → Prop where
  | start {program : Program} {config : Config} {story : Story}
      (started : Story.start program config = .ok story) : Reachable story
  | after {story : Story} (reachable : Reachable story) (operation : Operation)
      (ends : ∀ left, operation.perform story ≠ .error .endless left) :
      Reachable (operation.after story)

/-- What holds of a story of which nothing is played, and is kept by all deeds, holds of every story
that a host can reach. -/
theorem Story.Reachable.invariant (reachable : story.Reachable)
    (begins : ∀ program config, holds { program, config, state := atStart config })
    (kept : ∀ {unbinds before after}, Story.Deed unbinds (fun _ => True) before after →
      holds before → holds after) :
    holds story := by
  induction reachable with
  | @start program config story started =>
    have parts : KeptInParts (fun _ => False) (Allows (fun _ => True) fun _ => True) True holds :=
      .of_actions (fun _ _ action => kept (.act action : Deed True (fun _ => True) _ _))
        fun _ _ ⟨_, _, _, _, left⟩ => kept (.prepare _ _ _ _ left)
    refine (parts.declareGlobals ⟨?_, ?_⟩ rfl fun _ _ => ?_).still_ok (begins program config)
      (declares_of_start started)
    · exact kept (.position : Deed True _ _ _)
    · exact kept (.declare : Deed True _ _ _)
    · exact ⟨fun _ _ => trivial, fun _ _ => trivial⟩
  | after _ operation _ ih =>
    exact Operation.deeds_after (fun _ _ _ _ => trivial) (fun _ _ => kept) ih

namespace Story

variable {after : Story}

/-- A story keeps its program, how it is played, and the functions of the host. -/
structure Retains (story after : Story) : Prop where
  program : after.program = story.program
  config : after.config = story.config
  bindings (name : String) : story.bindings.contains name → after.bindings.contains name

theorem Retains.trans {middle : Story} (first : Retains story middle) (second : Retains middle after) :
    Retains story after :=
  ⟨second.program.trans first.program, second.config.trans first.config,
    fun name bound => second.bindings name (first.bindings name bound)⟩

theorem retains_settle (story : Story) : Retains story story.settle := by
  unfold settle
  split
  · exact ⟨rfl, rfl, fun _ => id⟩
  · exact ⟨rfl, rfl, fun _ => id⟩

theorem retains_rewind (story : Story) : Retains story story.rewind := by
  unfold rewind
  split
  · exact ⟨rfl, rfl, fun _ => id⟩
  · exact { retains_settle _ with }

theorem Action.retains (action : Action writable callable story after) : Retains story after := by
  cases action with
  | move move =>
    cases move with
    | effect effect =>
      cases effect with
      | call => exact ⟨rfl, rfl, fun _ bound => (Table.contains_map _ _ _).trans bound⟩
      | _ => exact ⟨rfl, rfl, fun _ => id⟩
    | rewind => exact retains_rewind story
    | keepLookahead => exact { retains_settle story with }
    | _ => exact ⟨rfl, rfl, fun _ => id⟩
  | finish => exact { retains_rewind story with }
  | _ => exact ⟨rfl, rfl, fun _ => id⟩

theorem Deed.retains (deed : Deed unbinds callable story after) (left : ¬unbinds) :
    Retains story after := by
  cases deed with
  | act action => exact action.retains
  | prepare _ _ _ _ kept => exact ⟨rfl, rfl, kept.resolve_left left⟩
  | _ => exact ⟨rfl, rfl, fun _ => id⟩

theorem retains_after {operation : Operation} (left : ¬operation.unbinds) (story : Story) :
    Retains story (operation.after story) := by
  refine Operation.deeds_after (fun _ _ _ _ => (trivial : (fun _ => True) _)) (fun before after deed same => ?_) ⟨rfl, rfl, fun _ => id⟩
  exact same.trans (deed.retains left)

end Story

end InkStory
