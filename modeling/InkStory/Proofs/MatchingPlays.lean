import InkStory.Proofs.LineEnds
import InkStory.Proofs.MatchingStories

/-! # Lines and operations in stories that cannot be told apart

Whether a story stopped where it is meant to is looked at where a line ends, and forgotten where one
begins: a host cannot tell stories apart that differ in it between lines. What it does with such
stories, line by line or by its operations, has the same answers. -/

namespace InkStory

open List Agrees

variable {mode : Comparison} {story other : Story} {bindings others : Table String Binding}

/-- A step assigns only globals that are declared. -/
def Story.AssignsDeclared (story : Story) : Prop :=
  ∀ name, story.assigned? = some name → (story.state.globals.default? name).isSome = true

/-- Between lines it does not count whether a story stopped where it is meant to. -/
def Comparison.around (mode : Comparison) (story : Story) : Comparison :=
  { mode with exiting := story.inLine = true }

/-- Stories that cannot be told apart by what a host does with them. -/
def Story.Abreast (mode : Comparison) (story other : Story) : Prop :=
  Story.Matches (mode.around story) story other

/-- Within a line, stories that a host cannot tell apart match in whether they stopped. -/
theorem Story.Abreast.within (same : Abreast mode story other) (unfinished : story.inLine) :
    Matches mode.within story other :=
  { same with
    state := same.state.exits fun _ => same.state.exited unfinished }

namespace Story.Matches

theorem abreast (same : Matches mode.within story other) : Abreast mode story other :=
  { same with
    state := same.state.exits fun _ => same.state.exited trivial }

/-- A line is completed alike. -/
theorem checkEnd {state next : State} (same : State.Matches mode state next)
    (exiting : mode.exiting) :
    State.Matches mode (Story.checkEnd mode.program state)
      (Story.checkEnd mode.program next) := by
  have sameFault {state next : State} (same : State.Matches mode state next) :
      endFault state = endFault next := by
    unfold endFault
    rw [same.callStack.canPopKind, same.callStack.canPopKind, same.callStack.canPop]
  have flat : State.Matches mode
      (if state.callStack.canPopThread then
        state.fail mode.program (.runtime .threadLeft) else state)
      (if next.callStack.canPopThread then
        next.fail mode.program (.runtime .threadLeft) else next) := by
    rw [same.callStack.canPopThread]
    exact related_ite (same.fail _ _) same
  unfold Story.checkEnd
  dsimp only
  rw [same.canContinue, isEmpty_eq_of_forall₂ flat.choices, flat.exited exiting, sameFault flat]
  exact related_ite same (related_ite (flat.fail _ _) flat)

theorem endLine (same : Matches mode story other) (exiting : mode.exiting) :
    Matches mode story.endLine other.endLine := by
  have rewound := same.rewind
  have ended : State.Matches mode (Story.checkEnd story.rewind.program story.rewind.state)
      (Story.checkEnd other.rewind.program other.rewind.state) := by
    rw [rewound.program, rewound.otherProgram]
    exact checkEnd rewound.state exiting
  unfold Story.endLine
  dsimp only
  generalize Story.checkEnd story.rewind.program story.rewind.state = state at ended
  generalize Story.checkEnd other.rewind.program other.rewind.state = next at ended
  have sameState : State.Matches mode
      { state with exitedSafely := false, globals := state.globals.endLine }
      { next with exitedSafely := false, globals := next.globals.endLine } :=
    { ended with exited := fun _ => rfl, globals := ended.globals.endLine }
  exact (rewound.close sameState).notify ended.globals.lineChanges

end Story.Matches

namespace Play

open Story

variable {more : Nat}

theorem there_of_declared (same : Matches mode story other)
    (declared : mode.lockstep ∨ story.AssignsDeclared) :
    mode.lockstep ∨ ∀ name, story.assigned? = some name →
      story.state.globals.values.contains name :=
  declared.imp_right fun declares name target =>
    same.state.globals.declared name (declares name target)

/-- Steps in a row do the same in stories that match, if they assign only declared globals. -/
theorem agrees_runSteps (same : Matches mode story other) (exiting : mode.exiting)
    (declared : mode.lockstep ∨ ∀ step ∈ stepsFrom more story, step.AssignsDeclared) :
    AgreesOn (Matches mode) (runSteps more) story other := by
  have first (more : Nat) (story other : Story) (same : Matches mode story other)
      (declared : mode.lockstep ∨ ∀ step ∈ stepsFrom more story, step.AssignsDeclared) :
      AgreesOn (Matches mode) (reportFailure singleStep) story other := by
    apply agrees_reportFailure
    apply agrees_singleStep same exiting
    apply there_of_declared same
    refine declared.imp_right fun declared => declared story ?_
    cases more <;> exact mem_cons_self
  induction more generalizing story other with
  | zero =>
    refine (first 0 story other same declared).andThen fun wentBack story other same => ?_
    apply get_bind
    rw [same.canContinue]
    exact .pure rfl same
  | succ more ih =>
    refine (first (more + 1) story other same declared).andThenFrom
      fun wentBack next matched taken same => ?_
    apply get_bind
    rw [← same.canContinue]
    split
    · exact .pure rfl same
    · next goesOn =>
      refine ih same (declared.imp_right fun declared step later => declared step ?_)
      simp only [stepsFrom, taken, goesOn]
      exact mem_cons_of_mem _ later

section

variable (same : Abreast mode story other)

include same

/-- A line goes on as it does once it has begun. -/
theorem agrees_begun (partly : Bool) {rest : Play Unit}
    (tail : ∀ start next, beginLine partly story = .ok () start →
      Matches mode.within start next → AgreesOn (Abreast mode) rest start next) :
    AgreesOn (Abreast mode) (do beginLine partly; rest) story other := by
  have start := beginLine_apply partly story
  rw [AgreesOn, bind_apply, bind_apply, beginLine_apply, beginLine_apply, ← same.inLine, ← same.canContinue]
  by_cases unfinished : story.inLine
  · rw [if_pos unfinished] at start ⊢
    rw [if_pos unfinished]
    exact tail _ _ start { same.within unfinished with inLine := rfl }
  · rw [if_neg unfinished] at start ⊢
    rw [if_neg unfinished]
    by_cases goesOn : story.canContinue
    · rw [if_pos goesOn] at start ⊢
      rw [if_pos goesOn]
      refine tail _ _ start ?_
      have begun : State.Matches (mode.around story) (story.begin partly).state
          (other.begin partly).state :=
        { same.state with
          exited := fun _ => rfl
          output := Output.matches_refl _
          globals := same.state.globals.beginLine }
      exact { same with
        state := begun.exits fun _ => rfl
        inLine := rfl }
    · rw [if_neg goesOn, if_neg goesOn]
      exact .error _ same

theorem agrees_wholeLine
    (declared : mode.lockstep ∨ ∀ step ∈ begunSteps false stepLimit story, step.AssignsDeclared) :
    AgreesOn (Abreast mode) wholeLine story other := by
  apply agrees_begun same
  intro start next begun same
  simp only [begunSteps, begun] at declared
  apply (agrees_runSteps same trivial declared).bindWithin fun _ _ => Matches.abreast
  rintro complete _ last final rfl same
  split
  · exact .modify (same.endLine trivial).abreast
  · exact .throw _ same.abreast

theorem agrees_partOfLine
    (declared : mode.lockstep ∨ ∀ step ∈ begunSteps true more story, step.AssignsDeclared) :
    AgreesOn (Abreast mode) (partOfLine more) story other := by
  apply agrees_begun same
  intro start next begun same
  simp only [begunSteps, begun] at declared
  apply (agrees_runSteps same trivial declared).bindWithin fun _ _ => Matches.abreast
  rintro complete _ last final rfl same
  split
  · exact .modify (same.endLine trivial).abreast
  · exact .pure rfl same.abreast

theorem agrees_checkBindings :
    AgreesOn (Abreast mode) checkBindings story other := by
  rw [AgreesOn, checkBindings_apply, checkBindings_apply, ← same.missingFunctions]
  refine related_ite (.ok rfl { same with checked := .inl rfl }) ?_
  rw [← same.config]
  exact .error _ same

/-- The functions of the host were looked for in both stories, or will be found. -/
theorem agrees_requireBindings :
    AgreesOn (Abreast mode) requireBindings story other := by
  have passed : (story.bindingsChecked || story.missingFunctions.isEmpty) =
      (other.bindingsChecked || story.missingFunctions.isEmpty) := by
    rcases same.checked with checked | ⟨-, found⟩
    · rw [checked]
    · rw [found, isEmpty_nil, Bool.or_true, Bool.or_true]
  rw [AgreesOn, requireBindings_apply, requireBindings_apply, ← same.missingFunctions, passed]
  refine related_ite (.ok rfl { same with checked := .inl rfl }) ?_
  rw [← same.config]
  exact .error _ same

theorem agrees_nextLine
    (declared : mode.lockstep ∨ ∀ step ∈ lineSteps false stepLimit story, step.AssignsDeclared) :
    AgreesOn (Abreast mode) nextLine story other := by
  refine (agrees_requireBindings same).andThenFrom fun _ ready next required same => ?_
  simp only [lineSteps, required] at declared
  refine (agrees_wholeLine same declared).andThen fun _ story other same => ?_
  exact .pure same.text same

theorem agrees_nextSteps
    (declared : mode.lockstep ∨ ∀ step ∈ lineSteps true more story, step.AssignsDeclared) :
    AgreesOn (Abreast mode) (nextSteps more) story other := by
  refine (agrees_requireBindings same).andThenFrom fun _ ready next required same => ?_
  simp only [lineSteps, required] at declared
  exact agrees_partOfLine same declared

theorem agrees_linesWithin {limit : Nat}
    (declared : mode.lockstep ∨ ∀ step ∈ linesSteps limit story, step.AssignsDeclared) :
    AgreesOn (Abreast mode) (linesWithin limit) story other := by
  induction limit generalizing story other with
  | zero => exact .throw _ same
  | succ limit ih =>
    apply get_bind
    rw [← same.canContinue]
    by_cases stops : (!story.canContinue)
    · rw [if_pos stops]
      exact .pure rfl same
    · rw [if_neg stops]
      simp only [linesSteps, stops, if_false, Bool.false_eq_true, mem_append] at declared
      refine (agrees_nextLine same (declared.imp_right fun declared step taken =>
        declared step (.inl taken))).andThenFrom fun line next matched done same => ?_
      simp only [done] at declared
      refine (ih same (declared.imp_right fun declared step taken =>
        declared step (.inr taken))).andThen fun rest _ _ same => ?_
      exact .pure rfl same

theorem agrees_requireLineEnd (activity : String) :
    AgreesOn (Abreast mode) (requireLineEnd activity) story other := by
  rw [AgreesOn, requireLineEnd_apply, requireLineEnd_apply, ← same.inLine]
  exact related_ite (.error _ same) (.ok rfl same)

theorem agrees_allLines
    (declared : mode.lockstep ∨
    (story.inLine = false → ∀ step ∈ linesSteps stepLimit story, step.AssignsDeclared)) :
    AgreesOn (Abreast mode) allLines story other := by
  refine (agrees_requireLineEnd same _).andThenFrom fun _ middle next required left => ?_
  obtain ⟨complete, rfl⟩ := requireLineEnd_eq_ok required
  exact agrees_linesWithin left (declared.imp_right fun declared => declared complete)

/-! ### Jumps and calls -/

theorem agrees_state {first second : Run α}
    (agrees : Agrees Eq (State.Matches (mode.around story)) (first story.state)
    (second other.state)) :
    Agrees Eq (Abreast mode) (onState first story) (onState second other) := by
  rw [onState_apply, onState_apply]
  generalize first story.state = reached at agrees
  generalize second other.state = matched at agrees
  cases agrees with
  | ok answers left => exact .ok answers (same.withState left)
  | error error left => exact .error error (same.withState left)

theorem agrees_modifyState {change after : State → State}
    (changed : State.Matches (mode.around story) (change story.state) (after other.state)) :
    Agrees Eq (Abreast mode) (modifyState change story) (modifyState after other) :=
  .ok rfl (same.withState changed)

theorem agrees_choosePath (path : Path) (beginsTurn : Bool) :
    AgreesOn (Abreast mode)
      (onState (Run.choosePath mode.program path beginsTurn)) story other :=
  agrees_state same (Run.respects_choosePath path beginsTurn _ _ same.state)

theorem agrees_choose (index : Nat) :
    AgreesOn (Abreast mode) (choose index) story other := by
  have choices := same.state.visibleChoices
  have chosen := rel_getElem?_of_forall₂ choices index
  apply get_bind
  rw [choices.length_eq, same.program, same.otherProgram]
  generalize story.state.visibleChoices[index]? = first at chosen
  generalize other.state.visibleChoices[index]? = second at chosen
  cases chosen with
  | none => exact .throw _ same
  | some sameChoice =>
    refine (agrees_modifyState same (same.state.take sameChoice)).andThen
      fun _ story other same => ?_
    rw [sameChoice.target]
    exact agrees_choosePath same _ true

theorem agrees_leaveFor (path : String) (reset : Bool) :
    AgreesOn (Abreast mode) (leaveFor path reset) story other := by
  apply get_bind
  rw [same.state.callStack.kind, same.state.callStack.pointer, same.state.callStack.trace,
    same.program, same.otherProgram]
  split
  · exact agrees_modifyState same same.state.forceEnd
  · split
    · exact .throw _ same
    · exact .pure rfl same

theorem agrees_goTo (path : String) (reset : Bool) (arguments : List Value) :
    AgreesOn (Abreast mode) (goTo path reset arguments) story other := by
  refine (agrees_requireLineEnd same _).andThen fun _ story other same => ?_
  refine (agrees_leaveFor same path reset).andThen fun _ story other same => ?_
  refine (agrees_state same (Run.respects_passArguments arguments _ _ same.state)).andThen
    fun _ story other same => ?_
  apply get_bind
  rw [same.program, same.otherProgram]
  exact agrees_choosePath same _ true

theorem agrees_enterCall (name : String) (arguments : List Value) :
    AgreesOn (Abreast mode) (enterCall name arguments) story other := by
  refine (agrees_requireLineEnd same _).andThen fun _ story other same => ?_
  split
  · exact .throw_bind _ same
  · apply get_bind
    rw [same.program, same.otherProgram]
    cases (mode.around story).program.knot? name with
    | none => exact .throw _ same
    | some function =>
      refine (agrees_modifyState same { same.state with output := Output.matches_refl {} }).andThen
        fun _ story other same => ?_
      exact agrees_state same (Run.respects_enterFunction function arguments _ _ same.state)

theorem agrees_leaveCall {output next : Output} (sameOutput : output.Matches next) :
    Agrees Eq (Abreast mode) (leaveCall output story) (leaveCall next other) := by
  refine (agrees_modifyState same { same.state with
    output := .ofStream sameOutput.stream }).andThen fun _ story other same => ?_
  apply get_bind
  rw [same.program, same.otherProgram]
  exact agrees_state same (Run.respects_leaveFunction _ _ _ same.state)

theorem agrees_callFunction (name : String) (arguments : List Value)
    (declared : mode.lockstep ∨ ∀ step ∈
    (Operation.callFunction name arguments).steps story, step.AssignsDeclared) :
    AgreesOn (Abreast mode) (callFunction name arguments) story other := by
  have output := same.state.output
  refine (agrees_enterCall same name arguments).andThenFrom fun _ entered next done same => ?_
  simp only [Operation.steps, done] at declared
  refine (agrees_linesWithin same declared).andThen fun text _ _ same => ?_
  refine (agrees_leaveCall same output).andThen fun value _ _ same => ?_
  exact .pure rfl same

/-! ### What the host sets up -/

theorem agrees_setGlobal (name : String) (value : Value) :
    AgreesOn (Abreast mode) (setGlobal name value) story other := by
  by_cases declared : (story.state.globals.default? name).isSome
  · have written := same.state.write value (.inr (same.state.globals.declared name declared))
    rw [AgreesOn, setGlobal_declared declared,
      setGlobal_declared (same.state.globals.default? name ▸ declared)]
    have left : State.Matches (mode.around story)
        { story.state.write name value with
          globals := (story.state.write name value).globals.forgetOthers }
        { other.state.write name value with
          globals := (other.state.write name value).globals.forgetOthers } :=
      { written with globals := written.globals.forgetOthers }
    exact .ok rfl ((same.withState left).notify written.globals.otherChanges)
  · rw [AgreesOn, setGlobal_undeclared declared,
      setGlobal_undeclared (same.state.globals.default? name ▸ declared)]
    exact .error _ same

end

/-- Tables of functions of the host that answer alike. -/
abbrev SameBindings (bindings others : Table String Binding) : Prop :=
  ∀ name, Option.Rel Binding.Matches (bindings.get? name) (others.get? name)

theorem sameBindings_insert (same : SameBindings bindings others) (bound : String)
    (binding : Binding) :
    SameBindings (bindings.insert bound binding) (others.insert bound binding) := by
  intro name
  rw [Table.get?_insert, Table.get?_insert]
  exact related_ite (.some ⟨rfl, fun _ _ => rfl⟩) (same name)

theorem sameBindings_bindAll (same : SameBindings bindings others)
    (functions : List (String × HostFunction × Bool)) :
    SameBindings
      (functions.foldl (fun bindings (name, function, lookaheadSafe) =>
        if bindings.contains name then bindings
        else bindings.insert name { function, lookaheadSafe }) bindings)
      (functions.foldl (fun bindings (name, function, lookaheadSafe) =>
        if bindings.contains name then bindings
        else bindings.insert name { function, lookaheadSafe }) others) := by
  induction functions generalizing bindings others with
  | nil => exact same
  | cons function rest ih =>
    apply ih
    dsimp only
    rw [show bindings.contains function.1 = others.contains function.1 from
      isSome_eq_of_rel (same function.1)]
    exact related_ite same (sameBindings_insert same _ _)

section

variable (same : Abreast mode story other)

include same

/-- Functions of the host that answer alike may take the place of others, unless one is taken away
that the host is to leave. -/
theorem abreast_rebind (sameBindings : SameBindings bindings others)
    (left : ¬mode.bound ∨ ∀ name, story.bindings.contains name → bindings.contains name) :
    Abreast mode { story with bindings := bindings }
      { other with bindings := others } :=
  { same with
    bindings := sameBindings
    checked := by
      rcases same.checked with checked | ⟨bound, found⟩
      · exact .inl checked
      · have retains : Retains story { story with bindings := bindings } :=
          ⟨rfl, rfl, left.resolve_left fun free => free bound⟩
        exact .inr ⟨bound, retains.missingFunctions found⟩ }

theorem agrees_bind (name : String) (function : HostFunction) (lookaheadSafe : Bool) :
    AgreesOn (Abreast mode) (bind name function lookaheadSafe) story other := by
  refine (agrees_requireLineEnd same _).andThen fun _ story other same => ?_
  apply get_bind
  rw [same.contains_bindings]
  split
  · exact .throw_bind _ same
  · refine .modify (abreast_rebind same (sameBindings_insert same.bindings _ _) (.inr ?_))
    exact fun _ => Table.contains_insert

theorem agrees_bindAll (functions : List (String × HostFunction × Bool)) :
    AgreesOn (Abreast mode) (bindAll functions) story other := by
  refine (agrees_requireLineEnd same _).andThen fun _ story other same => ?_
  refine .modify (abreast_rebind same (sameBindings_bindAll same.bindings functions) (.inr ?_))
  exact fun _ there => contains_bindAll there functions

theorem agrees_unbind (free : ¬mode.bound) (name : String) :
    AgreesOn (Abreast mode) (unbind name) story other := by
  refine (agrees_requireLineEnd same _).andThen fun _ story other same => ?_
  apply get_bind
  rw [same.contains_bindings]
  split
  · exact .throw_bind _ same
  · refine .modify (abreast_rebind same (fun query => ?_) (.inl free))
    rw [Table.get?_erase, Table.get?_erase]
    exact related_ite .none (same.bindings query)

theorem agrees_observe (verbatim : mode.verbatim) (name : String) :
    AgreesOn (Abreast mode) (observe name) story other := by
  refine (agrees_requireLineEnd same _).andThen fun _ story other same => ?_
  obtain ⟨observers, nextObserver⟩ := same.observers verbatim
  apply get_bind
  rw [same.state.globals.has, observers, nextObserver]
  split
  · exact .throw_bind _ same
  · exact .ok rfl { same with observers := fun _ => ⟨rfl, rfl⟩ }

theorem agrees_removeObserver (verbatim : mode.verbatim) (observer : Nat) :
    AgreesOn (Abreast mode) (removeObserver observer) story other := by
  refine (agrees_requireLineEnd same _).andThen fun _ story other same => ?_
  obtain ⟨observers, nextObserver⟩ := same.observers verbatim
  apply get_bind
  rw [observers]
  exact .ok rfl { same with observers := fun _ => ⟨rfl, nextObserver⟩ }

theorem agrees_resetCallStack :
    AgreesOn (Abreast mode) resetCallStack story other := by
  refine (agrees_requireLineEnd same _).andThen fun _ story other same => ?_
  exact agrees_modifyState same same.state.forceEnd

theorem agrees_forgetReports :
    AgreesOn (Abreast mode) forgetReports story other :=
  agrees_modifyState same { same.state with errors := rfl, warnings := fun _ => rfl }

/-! ### Saves -/

theorem agrees_startBackgroundSave (lockstep : mode.lockstep) :
    Agrees (fun _ _ => True) (Abreast mode) (startBackgroundSave story)
      (startBackgroundSave other) := by
  refine (agrees_requireLineEnd same _).andThen fun _ story other same => ?_
  apply get_bind
  rw [same.saving lockstep]
  split
  · exact .throw_bind _ same
  · exact .ok trivial { same with state := same.state.startPatch, saving := fun _ => rfl }

theorem agrees_endBackgroundSave :
    AgreesOn (Abreast mode) endBackgroundSave story other := by
  refine .modify { same with state := ?_, saving := fun _ => rfl }
  rw [← Option.not_isSome, ← Option.not_isSome, isSome_eq_of_rel same.snapshot]
  exact related_ite same.state.applyPatch same.state

end

theorem respects_takeOver (verbatim : mode.verbatim) (program : Program) (save : Save)
    (flow : SavedFlow) :
    Respects (State.Matches mode) (Run.takeOver program save flow) := by
  have ofExcept {α : Type} (result : Except Error α) :
      Respects (State.Matches mode) (ofExcept result : Run α) := by
    cases result with
    | ok value => exact .pure value
    | error error => exact .throw error
  refine .bind (.modify fun state other same => ?_) fun _ => ?_
  · exact { same with
      callStack := CallStack.matches_refl _ _
      choices := forall₂_same.mpr fun choice _ => choice.matches_refl _
      globals := same.globals.load verbatim _ }
  refine .bind (ofExcept _) fun evaluation => ?_
  refine .bind (.modify fun state other same => { same with evaluation := rfl }) fun _ => ?_
  refine .bind (ofExcept _) fun output => ?_
  refine .bind (.modify fun state other same =>
    { same with output := Output.matches_refl _ }) fun _ => ?_
  refine .modify fun state other same => .warnAll _ { same with
    diverted := rfl, turn := rfl, seed := rfl, previousDraw := rfl
    visited := fun _ => rfl
    turned := fun _ => rfl
    tally := fun _ => rfl
    globals := same.globals.unpatched verbatim }

theorem agrees_load (same : Abreast mode story other)
    (verbatim : mode.verbatim) (text : String) :
    AgreesOn (Abreast mode) (load text) story other := by
  refine (agrees_requireLineEnd same _).andThen fun _ story other same => ?_
  apply get_bind
  rw [same.program, same.otherProgram]
  have loaded : Respects (State.Matches (mode.around story))
      (Run.load mode.program text) := by
    unfold Run.load
    cases Save.open mode.program text with
    | error error => exact .throw_bind _
    | ok opened =>
      have verbatim : (mode.around story).verbatim := verbatim
      exact .bind (.pure opened) fun opened => respects_takeOver verbatim _ opened.1 opened.2
  refine (agrees_state same (loaded _ _ same.state)).andThen fun _ story other same => ?_
  exact .modify { same with snapshot := .none }

theorem agrees_declareGlobals (same : Abreast mode story other)
    (verbatim : mode.verbatim) :
    AgreesOn (Abreast mode) declareGlobals story other := by
  have declared {story other : Story} (same : Abreast mode story other) :
      AgreesOn (Abreast mode)
        (modifyState fun state => { state with globals := state.globals.declare }) story other :=
    agrees_modifyState same { same.state with globals := same.state.globals.declare verbatim }
  apply get_bind
  rw [same.program, same.otherProgram, same.state.pointer]
  split
  · refine (agrees_choosePath same _ false).andThen fun _ story other same => ?_
    refine (agrees_wholeLine same (.inl (mode.together verbatim))).andThen
      fun _ story other same => ?_
    exact (agrees_modifyState same (same.state.setPointer _)).andThen
      fun _ story other same => declared same
  · exact declared same

theorem agrees_reset (same : Abreast mode story other)
    (verbatim : mode.verbatim) :
    AgreesOn (Abreast mode) reset story other := by
  refine (agrees_requireLineEnd same _).andThen fun _ story other same => ?_
  apply agrees_declareGlobals _ verbatim
  have restarted : State.Matches (mode.around story) (State.atStart story.config)
      (State.atStart other.config) := by
    rw [same.config]
    exact .refl (.inl (mode.together verbatim)) nofun
  exact { same with state := restarted, snapshot := .none }

end Play

/-! ### Operations -/

/-- What a host learns from an operation that succeeds. -/
inductive Answer where
  | nothing
  | text (text : String)
  | called (value : Option Value) (text : String)
  | observer (number : Nat)
  | removed (found : Bool)
  deriving DecidableEq, Repr

namespace Operation

open Play

/-- Carry out an operation for its answer. -/
def ask : Operation → Play Answer
  | .nextLine => return .text (← Play.nextLine)
  | .allLines => return .text (← Play.allLines)
  | .callFunction name arguments => do
    let (value, text) ← Play.callFunction name arguments
    return .called value text
  | .observe name => return .observer (← Play.observe name)
  | .removeObserver observer => return .removed (← Play.removeObserver observer)
  | operation => do
    operation.perform
    return .nothing

/-- An operation leaves the same story, whether it is asked or not. -/
theorem leaves_ask (operation : Operation) (story : Story) :
    leaves (operation.ask story) = operation.after story := by
  have answered {α : Type} (play : Play α) (answer : α → Answer) :
      leaves ((do return answer (← play)) story) = leaves ((do let _ ← play) story) := by
    rw [bind_apply, bind_apply]
    cases play story <;> rfl
  have silent (play : Play Unit) :
      leaves ((do play; return Answer.nothing) story) = leaves (play story) := by
    rw [bind_apply]
    cases play story <;> rfl
  cases operation with
  | nextLine => exact answered Play.nextLine .text
  | allLines => exact answered Play.allLines .text
  | callFunction name arguments =>
    exact answered (Play.callFunction name arguments) fun result => .called result.1 result.2
  | observe name => exact answered (Play.observe name) .observer
  | removeObserver observer => exact answered (Play.removeObserver observer) .removed
  | _ => exact silent _

/-- Plays that are compared may be compared behind an operation too. -/
def Comparable (mode : Comparison) : Operation → Prop
  | .unbind _ => ¬mode.bound
  | .observe _ | .removeObserver _ | .reset | .load _ => mode.verbatim
  | .startBackgroundSave | .endBackgroundSave => mode.lockstep
  | _ => True

/-- An operation has the same answer, or fails alike, in stories that a host cannot tell apart, and
leaves such stories. -/
theorem agrees_ask {operation : Operation} (same : Story.Abreast mode story other)
    (comparable : operation.Comparable mode)
    (declared : mode.lockstep ∨ ∀ step ∈ operation.steps story, step.AssignsDeclared) :
    AgreesOn (Story.Abreast mode) operation.ask story other := by
  have answered {α : Type} {play : Play α} {answer : α → Answer}
      (agrees : AgreesOn (Story.Abreast mode) play story other) :
      AgreesOn (Story.Abreast mode) (do return answer (← play)) story other :=
    agrees.andThen fun _ _ _ same => .pure rfl same
  cases operation with
  | nextLine => exact answered (agrees_nextLine same declared)
  | nextSteps more => exact answered (agrees_nextSteps same declared)
  | allLines =>
    refine answered (agrees_allLines same (declared.imp_right fun declared complete step taken =>
      declared step ?_))
    simpa [steps, complete] using taken
  | choose index => exact answered (agrees_choose same index)
  | goTo path leave arguments => exact answered (agrees_goTo same path leave arguments)
  | callFunction name arguments => exact answered (agrees_callFunction same name arguments declared)
  | bind name function lookaheadSafe =>
    exact answered (agrees_bind same name function lookaheadSafe)
  | bindAll functions => exact answered (agrees_bindAll same functions)
  | unbind name => exact answered (agrees_unbind same comparable name)
  | checkBindings => exact answered (agrees_checkBindings same)
  | setGlobal name value => exact answered (agrees_setGlobal same name value)
  | observe name => exact answered (agrees_observe same comparable name)
  | removeObserver observer => exact answered (agrees_removeObserver same comparable observer)
  | reset => exact answered (agrees_reset same comparable)
  | resetCallStack => exact answered (agrees_resetCallStack same)
  | forgetReports => exact answered (agrees_forgetReports same)
  | load text => exact answered (agrees_load same comparable text)
  | startBackgroundSave =>
    refine andThen ?_ fun _ _ _ same => .pure rfl same
    exact (agrees_startBackgroundSave same comparable).bind fun _ _ _ _ _ same => .pure rfl same
  | endBackgroundSave => exact answered (agrees_endBackgroundSave same)

end Operation

end InkStory
