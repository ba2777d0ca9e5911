import InkStory.Proofs.Outcomes

/-! # Operations that agree

Two operations agree on two states if both succeed with related values, or both fail with the same
error, and leave states that are related as they were before. -/

namespace InkStory

variable {ε σ α β γ δ : Type}

/-- What is related in both branches of one decision is related behind it. -/
theorem related_ite {related : α → β → Prop} {condition : Prop} [Decidable condition]
    {first second : α} {other another : β} (holds : related first other)
    (fails : related second another) :
    related (if condition then first else second) (if condition then other else another) := by
  split
  · exact holds
  · exact fails

/-- Results with related values, or the same error. -/
inductive Concurs (values : α → β → Prop) : Except ε α → Except ε β → Prop where
  | ok {value : α} {other : β} (answers : values value other) :
      Concurs values (.ok value) (.ok other)
  | error (error : ε) : Concurs values (.error error) (.error error)

/-- Outcomes with related values, or the same error, that leave related states. -/
inductive Agrees (values : α → β → Prop) (states : σ → σ → Prop) :
    EStateM.Result ε σ α → EStateM.Result ε σ β → Prop where
  | ok {value : α} {other : β} {state next : σ} (answers : values value other)
      (left : states state next) : Agrees values states (.ok value state) (.ok other next)
  | error (error : ε) {state next : σ} (left : states state next) :
      Agrees values states (.error error state) (.error error next)

namespace Agrees

variable {values : α → β → Prop} {states : σ → σ → Prop} {state next : σ} {first : EStateM ε σ α}
  {second : EStateM ε σ β} {results : γ → δ → Prop} {rest : α → EStateM ε σ γ}
  {others : β → EStateM ε σ δ} {change other : σ → σ}

/-- What is known behind the first operation serves the second. -/
theorem bindWithin {narrower : σ → σ → Prop}
    (head : Agrees values narrower (first state) (second next))
    (includes : ∀ state next, narrower state next → states state next)
    (tail : ∀ value other state next, values value other → narrower state next →
      Agrees results states (rest value state) (others other next)) :
    Agrees results states ((first >>= rest) state) ((second >>= others) next) := by
  rw [bind_apply, bind_apply]
  generalize first state = reached at head
  generalize second next = matched at head
  cases head with
  | ok answers left => exact tail _ _ _ _ answers left
  | error error left => exact .error error (includes _ _ left)

theorem bind (head : Agrees values states (first state) (second next))
    (tail : ∀ value other state next, values value other → states state next →
      Agrees results states (rest value state) (others other next)) :
    Agrees results states ((first >>= rest) state) ((second >>= others) next) :=
  head.bindWithin (fun _ _ => id) tail

/-- Operations that agree on their value go on with the same. -/
theorem andThen {second : EStateM ε σ α} {others : α → EStateM ε σ δ}
    (head : Agrees Eq states (first state) (second next))
    (tail : ∀ value state next, states state next →
      Agrees results states (rest value state) (others value next)) :
    Agrees results states ((first >>= rest) state) ((second >>= others) next) := by
  apply head.bind
  rintro value _ state next rfl left
  exact tail value state next left

/-- Operations that agree on their value go on with the same, from where the first one led. -/
theorem andThenFrom {second : EStateM ε σ α} {others : α → EStateM ε σ δ}
    (head : Agrees Eq states (first state) (second next))
    (tail : ∀ value reached matched, first state = .ok value reached → states reached matched →
      Agrees results states (rest value reached) (others value matched)) :
    Agrees results states ((first >>= rest) state) ((second >>= others) next) := by
  rw [bind_apply, bind_apply]
  generalize led : first state = reached at head tail
  generalize second next = matched at head
  cases head with
  | ok answers left =>
    subst answers
    exact tail _ _ _ rfl left
  | error error left => exact .error error left

theorem get_bind {rest : σ → EStateM ε σ γ} {others : σ → EStateM ε σ δ}
    (tail : Agrees results states (rest state state) (others next next)) :
    Agrees results states ((get >>= rest) state) ((get >>= others) next) := tail

theorem modify_bind {rest : EStateM ε σ γ} {others : EStateM ε σ δ}
    (tail : Agrees results states (rest (change state)) (others (other next))) :
    Agrees results states ((do modify change; rest) state) ((do modify other; others) next) :=
  tail

theorem pure {value : α} {other : β} (answers : values value other) (left : states state next) :
    Agrees values states ((Pure.pure value : EStateM ε σ α) state)
      ((Pure.pure other : EStateM ε σ β) next) := .ok answers left

theorem throw (error : ε) (left : states state next) :
    Agrees values states ((throw error : EStateM ε σ α) state)
      ((throw error : EStateM ε σ β) next) := .error error left

/-- What follows a failure does not count. -/
theorem throw_bind (error : ε) (left : states state next) :
    Agrees results states ((MonadExcept.throw error >>= rest) state)
      ((MonadExcept.throw error >>= others) next) := .error error left

theorem modify (left : states (change state) (other next)) :
    Agrees Eq states ((modify change : EStateM ε σ PUnit) state)
      ((modify other : EStateM ε σ PUnit) next) := .ok rfl left

end Agrees

/-- From two states, an operation gives the same answer, or fails alike, and leaves related ones. -/
abbrev AgreesOn (states : σ → σ → Prop) (run : EStateM ε σ α) (state other : σ) : Prop :=
  Agrees Eq states (run state) (run other)

/-- From related states, an operation gives the same answer, or fails alike, and leaves such. -/
def Respects (states : σ → σ → Prop) (run : EStateM ε σ α) : Prop :=
  ∀ state other, states state other → AgreesOn states run state other

namespace Respects

variable {states : σ → σ → Prop} {rest : α → EStateM ε σ β}

theorem pure (value : α) : Respects states (Pure.pure value : EStateM ε σ α) := by
  intro state other same
  exact .pure rfl same

theorem throw (error : ε) : Respects states (throw error : EStateM ε σ α) := by
  intro state other same
  exact .throw error same

theorem throw_bind (error : ε) : Respects states (MonadExcept.throw error >>= rest) := by
  intro state other same
  exact .throw_bind error same

theorem bind {first : EStateM ε σ α} (head : Respects states first)
    (tail : ∀ value, Respects states (rest value)) : Respects states (first >>= rest) := by
  intro state other same
  exact (head state other same).andThen fun value state other => tail value state other

theorem modify {change : σ → σ}
    (respects : ∀ state other, states state other → states (change state) (change other)) :
    Respects states (modify change : EStateM ε σ PUnit) := by
  intro state other same
  exact .modify (respects state other same)

/-- What is read from related states is the same. -/
theorem read {rest : σ → EStateM ε σ α}
    (respects : ∀ state other, states state other → rest state = rest other)
    (tail : ∀ state, Respects states (rest state)) : Respects states (get >>= rest) := by
  intro state other same
  apply Agrees.get_bind
  rw [respects state other same]
  exact tail other state other same

end Respects

end InkStory
