import InkStory.Story.Basic
import Mathlib

/-! # Outcomes of operations

Operations on states and stories are functions to an outcome: a value or an error, each with what
was done until then. The lemmas say what the pieces of an operation do to one state or story. -/

namespace InkStory

variable {ε σ α β : Type} {first : EStateM ε σ α} {next : α → EStateM ε σ β} {state : σ}

/-- Operations in a row: the second runs behind the first, unless that failed. -/
theorem bind_apply (first : EStateM ε σ α) (next : α → EStateM ε σ β) (state : σ) :
    (first >>= next) state =
      match first state with
      | .ok value state => next value state
      | .error error state => .error error state := by
  simp only [Bind.bind, EStateM.bind]
  cases first state <;> rfl

theorem bind_eq_ok_iff {after : σ} {result : β} :
    (first >>= next) state = .ok result after ↔
      ∃ value middle, first state = .ok value middle ∧ next value middle = .ok result after := by
  rw [bind_apply]
  cases first state with
  | ok value middle => simp [and_assoc]
  | error found middle => simp

theorem bind_eq_error_iff {left : σ} {error : ε} :
    (first >>= next) state = .error error left ↔
      first state = .error error left ∨
        ∃ value middle, first state = .ok value middle ∧ next value middle = .error error left := by
  rw [bind_apply]
  cases first state <;> simp

theorem map_apply (change : α → β) (run : EStateM ε σ α) (state : σ) :
    (change <$> run) state =
      match run state with
      | .ok value state => .ok (change value) state
      | .error error state => .error error state := by
  simp only [Functor.map, EStateM.map]
  cases run state <;> rfl

theorem get_bind_apply {next : σ → EStateM ε σ α} : (get >>= next) state = next state state := rfl

theorem get_apply (state : σ) : (get : EStateM ε σ σ) state = .ok state state := rfl

theorem modify_apply (change : σ → σ) (state : σ) :
    (modify change : EStateM ε σ PUnit) state = .ok () (change state) := rfl

theorem pure_apply (value : α) (state : σ) : (pure value : EStateM ε σ α) state = .ok value state :=
  rfl

theorem throw_apply (error : ε) (state : σ) :
    (throw error : EStateM ε σ α) state = .error error state := rfl

theorem ite_run (condition : Prop) [Decidable condition] (first second : EStateM ε σ α)
    (state : σ) :
    (if condition then first else second) state =
      if condition then first state else second state := by
  split <;> rfl

/-- An operation that is refused in some states succeeds in others only. -/
theorem of_refused {denied : σ → Prop} [∀ state, Decidable (denied state)] {error : σ → ε}
    {next : σ → PUnit → EStateM ε σ α} {value : α} {after : σ}
    (run : (get >>= fun state =>
      if denied state then throw (error state) >>= next state else next state ()) state =
        .ok value after) :
    ¬denied state ∧ next state () state = .ok value after := by
  rw [get_bind_apply] at run
  split at run
  · contradiction
  · next allowed => exact ⟨allowed, run⟩

theorem exists_of_map {result : Except ε α} {change : α → β} {value : β}
    (mapped : result.map change = .ok value) : ∃ found, result = .ok found ∧ change found = value := by
  cases result with
  | error error => contradiction
  | ok found => exact ⟨found, rfl, Except.ok.inj mapped⟩

theorem ofExcept_ok (value : α) (state : σ) :
    (ofExcept (.ok value : Except ε α) : EStateM ε σ α) state = .ok value state := rfl

theorem ofExcept_error (error : ε) (state : σ) :
    (ofExcept (.error error : Except ε α) : EStateM ε σ α) state = .error error state := rfl

/-- The state that an outcome leaves. -/
def leaves : EStateM.Result ε σ α → σ
  | .ok _ state => state
  | .error _ state => state

/-- Whether it fails or not, an operation leads by steps from a state to the one that it leaves. -/
def Leads (step : σ → σ → Prop) (run : EStateM ε σ α) (state : σ) : Prop :=
  Relation.ReflTransGen step state (leaves (run state))

namespace Leads

variable {step : σ → σ → Prop} {state : σ} {run : EStateM ε σ α}

theorem pure (value : α) : Leads step (Pure.pure value : EStateM ε σ α) state := .refl

theorem throw (error : ε) : Leads step (throw error : EStateM ε σ α) state := .refl

theorem modify {change : σ → σ} (steps : Relation.ReflTransGen step state (change state)) :
    Leads step (modify change : EStateM ε σ PUnit) state := steps

theorem set {next : σ} (steps : Relation.ReflTransGen step state next) :
    Leads step (MonadStateOf.set next : EStateM ε σ PUnit) state := steps

theorem bind {first : EStateM ε σ α} {next : α → EStateM ε σ β} (head : Leads step first state)
    (tail : ∀ value middle, first state = .ok value middle → Leads step (next value) middle) :
    Leads step (first >>= next) state := by
  unfold Leads at *
  rw [bind_apply]
  cases run : first state with
  | ok value middle =>
    rw [run] at head
    exact head.trans (tail value middle run)
  | error error middle =>
    rw [run] at head
    exact head

theorem get_bind {next : σ → EStateM ε σ β} (tail : Leads step (next state) state) :
    Leads step (get >>= next) state := tail

/-- An operation that is refused in some states. -/
theorem refused {denied : Prop} [Decidable denied] {error : ε} {next : PUnit → EStateM ε σ α}
    (tail : ¬denied → Leads step (next ()) state) :
    Leads step (if denied then MonadExcept.throw error >>= next else next ()) state := by
  split
  · exact .refl
  · next allowed => exact tail allowed

theorem map {change : α → β} (head : Leads step run state) : Leads step (change <$> run) state := by
  unfold Leads at *
  rw [map_apply]
  cases outcome : run state <;> rw [outcome] at head <;> exact head

theorem mono {wider : σ → σ → Prop} (leads : Leads step run state)
    (includes : ∀ before after, step before after → wider before after) : Leads wider run state :=
  Relation.ReflTransGen.mono includes _ _ leads

/-- What steps keep, an operation keeps that leads by them. -/
theorem invariant {holds : σ → Prop} (leads : Leads step run state)
    (kept : ∀ before after, step before after → holds before → holds after) (start : holds state) :
    holds (leaves (run state)) := by
  unfold Leads at leads
  generalize leaves (run state) = after at leads
  induction leads with
  | refl => exact start
  | tail _ last ih => exact kept _ _ last ih

end Leads

namespace Play

theorem fault_apply (found : Fault) (story : Story) :
    (fault found : Play α) story = .error (.runtime found) story := rfl

theorem modifyState_apply (change : State → State) (story : Story) :
    modifyState change story = .ok () { story with state := change story.state } := rfl

theorem onState_apply (run : Run α) (story : Story) :
    onState run story =
      match run story.state with
      | .ok value state => .ok value { story with state := state }
      | .error error state => .error error { story with state := state } := rfl

theorem requireLineEnd_apply (activity : String) (story : Story) :
    requireLineEnd activity story =
      if story.inLine then .error (.lineUnfinished activity) story else .ok () story := by
  cases ended : story.inLine <;>
    simp [requireLineEnd, bind_apply, get_apply, ended, throw_apply, pure_apply]

theorem requireLineEnd_eq_ok {activity : String} {value : Unit} {story after : Story}
    (required : requireLineEnd activity story = .ok value after) :
    story.inLine = false ∧ after = story := by
  rw [requireLineEnd_apply] at required
  split at required
  · contradiction
  · next complete =>
    cases required
    exact ⟨by simpa using complete, rfl⟩

end Play

/-! ### Outcomes that can be tested -/

section Tests

variable {run : EStateM ε σ α} {state : σ}

instance decidableOk {outcome : Except ε α} {P : α → Prop} [DecidablePred P] :
    Decidable (∃ value, outcome = .ok value ∧ P value) :=
  match outcome with
  | .ok value => decidable_of_iff (P value) (by simp)
  | .error _ => isFalse (by simp)

instance decidableSucceeds {P : α → σ → Prop} [∀ value, DecidablePred (P value)] :
    Decidable (∃ value after, run state = .ok value after ∧ P value after) :=
  match run state with
  | .ok value after => decidable_of_iff (P value after) (by simp)
  | .error _ _ => isFalse (by simp)

instance decidableAnswers [DecidableEq α] {value : α} {P : σ → Prop} [DecidablePred P] :
    Decidable (∃ after, run state = .ok value after ∧ P after) :=
  match run state with
  | .ok found after => decidable_of_iff (found = value ∧ P after) (by simp)
  | .error _ _ => isFalse (by simp)

instance decidableFails {P : ε → σ → Prop} [∀ error, DecidablePred (P error)] :
    Decidable (∃ error left, run state = .error error left ∧ P error left) :=
  match run state with
  | .ok _ _ => isFalse (by simp)
  | .error error left => decidable_of_iff (P error left) (by simp)

end Tests

end InkStory
