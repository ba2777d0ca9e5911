import InkStory.Text.Lines
import Mathlib

/-! # Newlines at the ends of a text

A text with something to see is blanks, a core and blanks. Its parts are cut there: the newlines of
either run of blanks become one part, and what is left of the runs stays with the core or stands by
itself (`Text.splitEnds?_around`). -/

namespace InkStory.Text

open List

variable {text lead body trail : List Char}

theorem not_separates_of_mem {separates : Char → Bool} {piece : List Char}
    (member : piece ∈ text.splitOnP separates) : ∀ c ∈ piece, ¬separates c := by
  induction text generalizing piece with
  | nil =>
    obtain rfl : piece = [] := by simpa using member
    exact forall_mem_nil _
  | cons c text ih =>
    rw [splitOnP_cons_eq_if_modifyHead] at member
    split at member
    · rcases mem_cons.mp member with rfl | member
      · exact forall_mem_nil _
      · exact ih member
    · next other =>
      obtain ⟨first, rest, split⟩ := exists_cons_of_ne_nil (splitOnP_ne_nil _ text)
      rw [split] at member
      rcases mem_cons.mp member with rfl | member
      · exact forall_mem_cons.mpr ⟨other, ih (split ▸ mem_cons_self)⟩
      · exact ih (split ▸ mem_cons_of_mem _ member)

/-- A text that begins and ends with something to see. -/
structure Core (body : List Char) : Prop where
  first : ∃ c rest, body = c :: rest ∧ isLineBlank c = false
  last : ∃ rest c, body = rest ++ [c] ∧ isLineBlank c = false

theorem Core.takeWhile (core : Core body) (blank : ∀ c ∈ lead, isLineBlank c) :
    (lead ++ body ++ trail).takeWhile isLineBlank = lead := by
  obtain ⟨c, rest, rfl, seen⟩ := core.first
  rw [append_assoc, takeWhile_append_of_pos blank, cons_append,
    takeWhile_cons_of_neg (by simp [seen]), append_nil]

theorem Core.dropWhile (core : Core body) (blank : ∀ c ∈ lead, isLineBlank c) :
    (lead ++ body ++ trail).dropWhile isLineBlank = body ++ trail := by
  obtain ⟨c, rest, rfl, seen⟩ := core.first
  rw [append_assoc, dropWhile_append_of_pos blank, cons_append,
    dropWhile_cons_of_neg (by simp [seen])]

theorem Core.reverse (core : Core body) : Core body.reverse := by
  obtain ⟨⟨c, rest, split, seen⟩, ⟨front, last, shape, shown⟩⟩ := core
  exact ⟨⟨last, front.reverse, by simp [shape], shown⟩, ⟨rest.reverse, c, by simp [split], seen⟩⟩

theorem Core.rtakeWhile (core : Core body) (blank : ∀ c ∈ trail, isLineBlank c) :
    (lead ++ body ++ trail).rtakeWhile isLineBlank = trail := by
  rw [List.rtakeWhile, reverse_append, reverse_append, ← append_assoc,
    core.reverse.takeWhile (by simpa using blank), reverse_reverse]

theorem exists_core (visible : ∃ c ∈ text, isLineBlank c = false) :
    ∃ lead body trail, text = lead ++ body ++ trail ∧ Core body ∧
      (∀ c ∈ lead, isLineBlank c) ∧ ∀ c ∈ trail, isLineBlank c := by
  obtain ⟨c, rest, behind⟩ := exists_cons_of_ne_nil
    (show text.dropWhile isLineBlank ≠ [] by simpa [dropWhile_eq_nil_iff] using visible)
  have seen : isLineBlank c = false := by
    simpa [behind] using head?_dropWhile_not isLineBlank text
  have some : (c :: rest).rdropWhile isLineBlank ≠ [] := by simp [seen]
  refine ⟨text.takeWhile isLineBlank, (c :: rest).rdropWhile isLineBlank,
    (c :: rest).rtakeWhile isLineBlank, ?_, ⟨?_, ?_⟩, fun _ => mem_takeWhile_imp,
    fun _ => mem_rtakeWhile_imp⟩
  · rw [append_assoc, rdropWhile_append_rtakeWhile, ← behind, takeWhile_append_dropWhile]
  · obtain ⟨first, others, split⟩ := exists_cons_of_ne_nil some
    have same := rdropWhile_prefix isLineBlank (l := c :: rest)
    rw [split, cons_prefix_cons] at same
    exact ⟨first, others, split, same.1 ▸ seen⟩
  · exact ⟨_, _, (dropLast_append_getLast some).symm, by simpa using rdropWhile_last_not _ _ some⟩

theorem aroundNewlines?_eq (run : List Char) :
    aroundNewlines? run = if '\n' ∈ run then
      some (run.takeWhile (· != '\n'), run.rtakeWhile (· != '\n')) else none := by
  simp only [aroundNewlines?, contains_iff_mem, List.rtakeWhile]

theorem whole {run : List Char} (none : '\n' ∉ run) :
    run.takeWhile (· != '\n') = run ∧ run.rtakeWhile (· != '\n') = run := by
  have other : ∀ c ∈ run, (c != '\n') = true := fun c member => by
    simpa using ne_of_mem_of_not_mem member none
  exact ⟨takeWhile_eq_self_iff.mpr other, rtakeWhile_eq_self_iff.mpr other⟩

/-- The parts before the core. -/
def leadParts (lead : List Char) : List (List Char) :=
  if '\n' ∈ lead then part (lead.takeWhile (· != '\n')) ++ [['\n']] else []

/-- The parts behind the core. -/
def trailParts (trail : List Char) : List (List Char) :=
  if '\n' ∈ trail then ['\n'] :: part (trail.rtakeWhile (· != '\n')) else []

/-- A text with something to see in parts. -/
theorem splitEnds?_around (core : Core body) (before : ∀ c ∈ lead, isLineBlank c)
    (behind : ∀ c ∈ trail, isLineBlank c) :
    splitEnds? (lead ++ body ++ trail) =
      if '\n' ∈ lead ∨ '\n' ∈ trail then
        some (leadParts lead ++ [lead.rtakeWhile (· != '\n') ++ body ++
          trail.takeWhile (· != '\n')] ++ trailParts trail)
      else none := by
  have run : ((body ++ trail).reverse.takeWhile isLineBlank).reverse = trail :=
    @Core.rtakeWhile [] body trail core behind
  have kept : ((body ++ trail).reverse.dropWhile isLineBlank).reverse = body := by
    have back := @Core.dropWhile _ _ [] core.reverse (fun c member => behind c (mem_reverse.mp member))
    rw [append_nil, append_nil] at back
    rw [reverse_append, back, reverse_reverse]
  have some : (body ++ trail).isEmpty = false := by
    obtain ⟨c, rest, rfl, -⟩ := core.first
    rfl
  unfold splitEnds?
  simp only [core.takeWhile before, core.dropWhile before, some, run, kept, aroundNewlines?_eq, leadParts,
    trailParts]
  by_cases left : '\n' ∈ lead <;> by_cases right : '\n' ∈ trail <;>
    simp [left, right, whole]

/-- A blank text is split into the blanks before its first newline and one newline. -/
theorem splitEnds?_of_blank (blank : ∀ c ∈ text, isLineBlank c) :
    splitEnds? text = if '\n' ∈ text then some (leadParts text) else none := by
  have lead : text.takeWhile isLineBlank = text := takeWhile_eq_self_iff.mpr blank
  have rest : text.dropWhile isLineBlank = [] := dropWhile_eq_nil_iff.mpr blank
  unfold splitEnds?
  by_cases newline : '\n' ∈ text <;> simp [lead, rest, aroundNewlines?_eq, leadParts, newline]

theorem mem_part {text found : List Char} (member : found ∈ part text) : found = text := by
  unfold part at member
  split at member
  · cases member
  · exact mem_singleton.mp member

theorem mem_leadParts {part : List Char} (member : part ∈ leadParts lead) :
    part = ['\n'] ∨ part <+: lead ∧ '\n' ∉ part := by
  unfold leadParts at member
  split at member
  · rcases mem_append.mp member with first | newline
    · obtain rfl := mem_part first
      exact .inr ⟨ takeWhile_prefix _, fun there => by simpa using mem_takeWhile_imp there⟩
    · exact .inl (mem_singleton.mp newline)
  · cases member

/-- A text with something to see and no newline at either end. -/
structure Solid (text : List Char) : Prop where
  visible : ∃ c ∈ text, isLineBlank c = false
  leading : '\n' ∉ text.takeWhile isLineBlank
  trailing : '\n' ∉ text.reverse.takeWhile isLineBlank

/-- Nothing is split off a text without newlines at its ends. -/
theorem Solid.splitEnds? (solid : Solid text) : splitEnds? text = none := by
  obtain ⟨lead, body, trail, rfl, core, before, behind⟩ := exists_core solid.visible
  have leading := core.takeWhile before ▸ solid.leading
  have trailing : '\n' ∉ trail := by
    rw [← core.rtakeWhile behind, List.rtakeWhile, mem_reverse]
    exact solid.trailing
  rw [splitEnds?_around core before behind, if_neg (not_or.mpr ⟨leading, trailing⟩)]

end InkStory.Text
