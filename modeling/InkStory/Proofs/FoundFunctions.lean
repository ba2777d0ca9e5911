import InkStory.Proofs.CarryingOut
import InkStory.Proofs.FailedCalls
import InkStory.Proofs.VisitCounts

/-! # Functions that were found

Once every function that a story calls was found, and as long as the host takes none away, no divert
fails for want of a function (`Story.found_functions_suffice`): what the check goes through is all
that a story can come to, and what it takes for a function is what a call falls back to. -/

namespace InkStory

variable {program : Program} {place : Place} {divert : Divert} {state : State} {function : String}
  {story : Story}

/-- A function is called that is neither bound nor known to the story. -/
def Error.isUnbound : Error → Bool
  | .runtime (.unboundWithoutFallbacks _) | .runtime (.unboundWithoutFallback _) => true
  | _ => false

/-- An operation does not fail for want of a function. -/
abbrev Finds (run : EStateM Error σ α) (state : σ) : Prop := Errs (·.isUnbound = false) run state

namespace Run

variable {after : State}

theorem finds_ofFault {result : Except Fault α}
    (other : ∀ fault, result = .error fault → (Error.runtime fault).isUnbound = false) :
    Finds (ofFault result) state := by
  cases result with
  | ok value => exact .pure value
  | error fault => exact .throw (other fault rfl)

theorem finds_popCondition : Finds popCondition state := by
  refine .bind (.bind (.get_bind ?_) fun content _ _ => ?_)
    fun value _ _ => finds_ofFault fun fault failed => ?_
  · split
    · exact .bind (.modify _) fun _ _ _ => .pure _
    · exact .throw rfl
  · split
    · exact .pure _
    · exact .throw rfl
  · cases value <;> cases failed <;> rfl

theorem finds_divertTo (path : Path) : Finds (divertTo program path) state := by
  refine .bind (.bind (finds_ofFault fun fault failed => ?_) fun landing _ _ => ?_)
    fun _ _ _ => .modify _
  · unfold Program.pointerAt at failed
    dsimp only at failed
    split at failed
    · cases failed
    · split at failed <;> cases failed
      rfl
  · dsimp only
    split
    · exact .bind (.modify _) fun _ _ _ => .pure _
    · exact .pure _

theorem finds_jump : Finds (jump program place divert) state := by
  have lands {state : State} : Finds (do
      if (← get).diverted.isNone then fault (.unresolvedDivert divert.description)
      return none : Run (Option HostRequest)) state := by
    refine .get_bind ?_
    dsimp only
    split
    · exact .bind (.throw rfl) fun _ _ _ => .pure _
    · exact .pure _
  have finishes {state : State} : Finds (finishJump divert) state := by
    unfold finishJump
    dsimp only
    split
    · exact .bind (.modify _) fun _ _ _ => lands
    · exact lands
  unfold jump
  split
  · exact .pure _
  · refine .bind (.get_bind ?_) fun _ _ _ => finishes
    split
    · exact .throw rfl
    · exact finds_divertTo _
    · exact .throw rfl
    · exact .throw rfl
  · exact .bind (.modify _) fun _ _ _ => finishes

/-- Every error that a divert comes to by itself is another one. -/
theorem finds_performDivert : Finds (performDivert program place divert) state := by
  unfold performDivert
  split
  · refine .bind finds_popCondition fun holds _ _ => ?_
    split
    · exact .pure _
    · exact finds_jump
  · exact finds_jump

/-- A divert asks for no call but its own. -/
theorem target_of_request {request : HostRequest}
    (run : performDivert program place divert state = .ok (some request) after) :
    divert.target = .external request.function request.arguments := by
  have jumped {state : State} (run : jump program place divert state = .ok (some request) after) :
      divert.target = .external request.function request.arguments := by
    unfold jump at run
    cases target : divert.target with
    | external function arguments =>
      rw [target] at run
      cases run
      rfl
    | «variable» name =>
      rw [target] at run
      obtain ⟨_, _, -, run⟩ := bind_eq_ok_iff.mp run
      cases (finishJump_eq_ok run).1
    | path path =>
      rw [target] at run
      obtain ⟨_, _, -, run⟩ := bind_eq_ok_iff.mp run
      cases (finishJump_eq_ok run).1
  unfold performDivert at run
  rw [ite_run] at run
  split at run
  · obtain ⟨holds, middle, -, run⟩ := bind_eq_ok_iff.mp run
    rw [ite_run] at run
    split at run
    · cases run
    · exact jumped run
  · exact jumped run

end Run

theorem Program.Holds.mem_externals {arguments : Nat} (holds : program.Holds place (.divert divert))
    (target : divert.target = .external function arguments) : function ∈ program.externals := by
  obtain ⟨pointer, object⟩ := holds
  obtain ⟨index, -, -, node⟩ := node_of_objectAt object
  refine List.mem_flatMap.mpr ⟨_, (has_of_node node).mem_addresses, ?_⟩
  refine List.mem_filterMap.mpr ⟨_, List.mem_of_getElem? node, ?_⟩
  obtain ⟨_, _, _⟩ := divert
  cases target
  rfl

namespace Play

theorem finds_popArguments (count : Nat) :
    Finds (popArguments function count) state := by
  refine .bind (.get_bind ?_) fun contents _ popped => Run.finds_ofFault fun fault failed => ?_
  · dsimp only
    split
    · exact .bind (.throw rfl) fun _ _ failed => nomatch failed
    · exact .bind (.modify _) fun _ _ _ => .pure _
  · clear popped
    induction contents with
    | nil => cases failed
    | cons content rest ih =>
      rw [List.mapM_cons] at failed
      cases first : passable function content with
      | error found =>
        rw [first] at failed
        cases failed
        cases content <;> cases first <;> rfl
      | ok value =>
        rw [first] at failed
        cases others : rest.mapM (passable function) with
        | error found =>
          rw [others] at failed
          cases failed
          exact ih others
        | ok values =>
          rw [others] at failed
          cases failed

/-- A call of a function that is there does not fail for want of it. -/
theorem finds_callHost (found : story.hasFunctionFor function) (count : Nat) :
    Finds (callHost function count) story := by
  refine .get_bind ?_
  split
  · next unbound =>
    have known : story.config.allowFallbacks ∧ story.program.root.hasName function := by
      simpa [Story.hasFunctionFor, Table.contains, unbound] using found
    obtain ⟨step, named⟩ := Option.isSome_iff_exists.mp known.2
    have there : story.program.knot? function = some [step] :=
      congrArg (Option.map (· :: [])) named
    refine .get_bind ?_
    simp only [known.1, there]
    exact .bind (.onState (.modify _)) fun _ _ _ => .modify _
  · next binding _ =>
    split
    · exact .set _
    · refine .bind (.onState (finds_popArguments count)) fun arguments _ _ => ?_
      refine .bind (.modify _) fun _ _ _ => ?_
      rcases binding.answer arguments with reason | _ | value
      · exact .throw rfl
      · exact .onState (.modify _)
      · exact .onState (.modify _)

/-- A divert does not fail for want of a function, where every function was found. -/
theorem finds_evaluate (found : story.missingFunctions = [])
    (holds : story.program.Holds place (.divert divert)) :
    Finds (evaluate place (.divert divert)) story := by
  have finishes {story : Story} {program : Program} :
      Finds (onState (Run.finishContent program place (.divert divert))) story := by
    refine .onState (.get_bind ?_)
    split
    · exact .pure _
    · exact .bind (.pure _) fun _ _ _ => .modify _
  refine .get_bind (.bind (.onState Run.finds_performDivert) fun request middle performed => ?_)
  cases request with
  | none => exact finishes
  | some request =>
    refine .bind (finds_callHost ?_ _) fun _ _ _ => finishes
    obtain ⟨asked, same⟩ := onState_eq_ok performed
    have there := Story.missingFunctions_eq_nil_iff.mp found _
      (holds.mem_externals (Run.target_of_request asked))
    rw [same]
    exact there

end Play

namespace Story

variable {checked : Story} {operations : List Operation}

theorem found_allSteps (found : story.missingFunctions = [])
    (left : ∀ name, .unbind name ∉ operations) :
    ∀ step ∈ story.allSteps operations, step.missingFunctions = [] := by
  induction operations generalizing story with
  | nil => exact fun _ member => absurd member List.not_mem_nil
  | cons operation rest ih =>
    have stays : ¬operation.unbinds := by
      intro unbinds
      cases operation with
      | unbind name => exact left name List.mem_cons_self
      | _ => exact unbinds
    intro step member
    rcases List.mem_append.mp member with now | later
    · have acts (before after : Story) (action : Action (fun _ => True) (fun _ => True) before after)
          (found : before.missingFunctions = []) : after.missingFunctions = [] :=
        action.retains.missingFunctions found
      exact Operation.steps_invariant acts (fun _ => found) found step now
    · have found := (retains_after stays story).missingFunctions found
      exact ih found (fun name member => left name (List.mem_cons_of_mem _ member)) step later

/-- Once every function that a story calls was found, and as long as the host takes none away, no
divert fails for want of a function, wherever it is in the program and whatever the state. -/
theorem found_functions_suffice (validated : Play.checkBindings story = .ok () checked)
    (left : ∀ name, .unbind name ∉ operations) :
    ∀ step ∈ checked.allSteps operations, ∀ place divert,
      step.program.Holds place (.divert divert) → ∀ state error failed,
        Play.evaluate place (.divert divert) { step with state := state } = .error error failed →
        error.isUnbound = false := by
  have found : checked.missingFunctions = [] := by
    rw [Play.checkBindings_apply] at validated
    split at validated
    · next found =>
      cases validated
      exact List.isEmpty_iff.mp found
    · cases validated
  intro step member place divert holds state error failed fails
  let story := { step with state := state }
  have found : story.missingFunctions = [] := found_allSteps found left step member
  exact Play.finds_evaluate found holds error failed fails

theorem host_call_finds_function :
    ∃ story checked step : Story, Play.checkBindings story = .ok () checked ∧
      step ∈ checked.allSteps [.nextLine] ∧
      step.program.Holds (.content [] 3) (.divert { target := .external "host" 0 }) ∧
      ∀ state error failed, Play.evaluate (.content [] 3)
          (.divert { target := .external "host" 0 }) { step with state := state } =
          .error error failed →
        error.isUnbound = false := by
  obtain ⟨_, -, story, -, checked, validated, step, member, object⟩ :
      ∃ fresh, start Operation.callBehindNewline {} = .ok fresh ∧
        ∃ story, Operation.performAll [Operation.bindCareful] fresh = .ok () story ∧
          ∃ checked, Play.checkBindings story = .ok () checked ∧
            ∃ step ∈ checked.allSteps [.nextLine], step.program.objectAt? ⟨[], some 3⟩ =
              some (.content [] 3, .divert { target := .external "host" 0 }) := by
    decide +kernel
  have holds : step.program.Holds (.content [] 3) (.divert { target := .external "host" 0 }) :=
    ⟨_, object⟩
  refine ⟨story, checked, step, validated, member, holds, ?_⟩
  exact found_functions_suffice validated (by simp) step member _ _ holds

end Story

end InkStory
