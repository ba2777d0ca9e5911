import InkStory.Proofs.Notifications

/-! # When a story looks ahead

A story has something to go back to, and notes changes for its observers, only while a line is left
unfinished; it writes apart only then or while the host is saving; and a line is left unfinished only
where the story can go on. This holds behind every operation of the host, whether it fails or not
(`Story.Reachable.orderly`). -/

namespace InkStory

namespace Story

variable {story : Story}

/-- How looking ahead, writing apart and noting changes go with the evaluation of a line. -/
structure Orderly (story : Story) : Prop where
  /-- There is something to go back to only within a line. -/
  snapshot : story.snapshot.isSome = true → story.inLine = true
  /-- Writes are kept apart only while the story looks ahead or the host is saving. -/
  patch : story.state.patch.isSome = true → story.snapshot.isSome = true ∨ story.isSaving = true
  /-- Changes are noted exactly within a line. -/
  batch : story.state.globals.batch.isSome = true ↔ story.inLine = true
  /-- A line is left unfinished only where the story can go on. -/
  line : story.inLine = true → story.canContinue = true

/-- Behind every operation of the host, the story is in order. -/
theorem Reachable.orderly (reachable : story.Reachable) : story.Orderly where
  snapshot pending := by
    rcases reachable.poised with idle | engaged
    · rw [idle.settled] at pending
      contradiction
    · exact engaged.unfinished
  patch patched := by
    by_contra neither
    obtain ⟨settled, free⟩ := not_or.mp neither
    rw [Option.not_isSome_iff_eq_none] at settled
    rw [Bool.not_eq_true] at free
    rw [reachable.kept.unpatched free settled] at patched
    contradiction
  batch := by
    rcases reachable.poised with idle | engaged
    · simp [idle.complete, idle.unnoted]
    · simp [engaged.unfinished, engaged.state.noted]
  line unfinished := by
    rcases reachable.poised with idle | engaged
    · rw [idle.complete] at unfinished
      contradiction
    · exact engaged.goesOn

/-- A line whose newline may be taken back. -/
@[irreducible]
def lineAndMore : Program := Operation.lineAnd [.ofText "More", .ofText "\n", .command .done]

/-- A story that looks ahead while the host is saving. -/
theorem orderly_while_saving :
    ∃ story : Story, story.Reachable ∧ story.snapshot.isSome = true ∧
      story.state.patch.isSome = true ∧ story.isSaving = true ∧ story.Orderly := by
  obtain ⟨fresh, started, story, played, pending, patched, saving⟩ :
      ∃ fresh, start lineAndMore {} = .ok fresh ∧
        ∃ story, Operation.performAll [.startBackgroundSave, .nextSteps 1] fresh =
            .ok () story ∧
          story.snapshot.isSome = true ∧ story.state.patch.isSome = true ∧
          story.isSaving = true := by
    decide +kernel
  have reachable := Operation.reachable_performAll played (.start started)
  exact ⟨story, reachable, pending, patched, saving, reachable.orderly⟩

end Story

end InkStory
