import InkStory.Proofs.Pushes

/-! # The output within a string

A string is built at the end of the output, and what it is built from shares the stream with the
objects before it. Texts, glue and tags that are added within the string, and strings within it,
change nothing before its beginning (`Output.Within`). Only the end of a function may: the blanks that
a function leaves behind are looked for back to where its output begins, also past the beginning of a
string, so that blanks at the end of what stands there may be gone. -/

namespace InkStory

open List

variable {rest later : List Content}

namespace Output

open Content

variable {output : Output} {stack : CallStack} {content : Content} {start limit depth : Nat}
  {spared : Prop} {stream left inner before : List Content}

/-! ### Blanks at the end of a function -/

/-- Some blanks behind the last visible text are dropped. -/
inductive Sheds : List Content → List Content → Prop where
  | refl (stream : List Content) : Sheds stream stream
  | keep {content : Content} {stream left : List Content} (unread : content.isText = false)
      (sheds : Sheds stream left) : Sheds (content :: stream) (content :: left)
  | drop {content : Content} {stream left : List Content} (blank : content.isBlank = true)
      (sheds : Sheds stream left) : Sheds (content :: stream) left

theorem Sheds.trans {middle : List Content} (first : Sheds stream middle)
    (second : Sheds middle left) : Sheds stream left := by
  induction first generalizing left with
  | refl stream => exact second
  | drop blank _ ih => exact .drop blank (ih second)
  | keep unread sheds ih =>
    cases second with
    | refl => exact .keep unread sheds
    | keep _ second => exact .keep unread (ih second)
    | drop blank _ =>
      rw [isText_of_blank blank] at unread
      contradiction

theorem Sheds.sublist (sheds : Sheds stream left) : left.Sublist stream := by
  induction sheds with
  | refl stream => exact .refl stream
  | keep _ _ ih => exact ih.cons_cons _
  | drop _ _ ih => exact ih.cons _

theorem trimFunctionEnd_cons (start : Nat) (content : Content) (rest : List Content) :
    trimFunctionEnd start (content :: rest) =
      if rest.length < start then content :: rest
      else if content.isBlank then trimFunctionEnd start rest
      else if content.isVisible then content :: rest
      else content :: trimFunctionEnd start rest := by
  rw [trimFunctionEnd]
  unfold isBlank isVisible
  cases content.isText <;> cases content.isNewline <;> cases content.isInlineBlank <;> rfl

theorem sheds_trimFunctionEnd (start : Nat) (stream : List Content) :
    Sheds stream (trimFunctionEnd start stream) := by
  induction stream with
  | nil => exact .refl []
  | cons content rest ih =>
    rw [trimFunctionEnd_cons]
    split
    · exact .refl _
    · split
      · next blank => exact .drop blank ih
      · split
        · exact .refl _
        · next filled unseen => exact .keep (by simpa [isBlank, unseen] using filled) ih

/-- The end of a function whose output begins at a position takes a blank from the first objects,
`limit` of them: nothing to see is behind it. -/
def Strips (start limit : Nat) (stream : List Content) : Prop :=
  ∃ later blank earlier, stream = later ++ blank :: earlier ∧ blank.isBlank = true ∧
    (∀ content ∈ later, content.isVisible = false) ∧ start ≤ earlier.length ∧
    earlier.length < limit

theorem strips_cons :
    Strips start limit (content :: rest) ↔
      (content.isBlank ∧ start ≤ rest.length ∧ rest.length < limit) ∨
        (content.isVisible = false ∧ Strips start limit rest) := by
  constructor
  · rintro ⟨later, blank, earlier, split, isBlank, unseen, begins, within⟩
    cases later with
    | nil =>
      cases split
      exact .inl ⟨isBlank, begins, within⟩
    | cons first later =>
      cases split
      obtain ⟨unseenFirst, unseen⟩ := forall_mem_cons.mp unseen
      exact .inr ⟨unseenFirst, later, blank, earlier, rfl, isBlank, unseen, begins, within⟩
  · rintro (⟨blank, begins, within⟩ | ⟨unseen, later, blank, earlier, rfl, isBlank, others, bounds⟩)
    · exact ⟨[], content, rest, rfl, blank, forall_mem_nil _, begins, within⟩
    · exact ⟨content :: later, blank, earlier, rfl, isBlank,
        forall_mem_cons.mpr ⟨unseen, others⟩, bounds⟩

instance decidableStrips (start limit : Nat) :
    (stream : List Content) → Decidable (Strips start limit stream)
  | [] => isFalse fun ⟨_, _, _, split, _⟩ => by simp at split
  | _ :: rest =>
    have := decidableStrips start limit rest
    decidable_of_iff' _ strips_cons

theorem Strips.lt_length (strips : Strips start limit stream) : start < stream.length := by
  obtain ⟨later, blank, earlier, rfl, -, -, begins, -⟩ := strips
  rw [length_append, length_cons]
  omega

theorem Strips.lt_limit (strips : Strips start limit stream) : start < limit := by
  obtain ⟨later, blank, earlier, -, -, -, begins, within⟩ := strips
  omega

/-- The end of a function changes a stream if it takes a blank. -/
theorem trimFunctionEnd_eq_self_iff (long : stream.length ≤ limit) :
    trimFunctionEnd start stream = stream ↔ ¬ Strips start limit stream := by
  induction stream with
  | nil => exact iff_of_true rfl fun strips => absurd strips.lt_length (Nat.not_lt_zero _)
  | cons content rest ih =>
    rw [length_cons] at long
    rw [trimFunctionEnd_cons, strips_cons]
    split
    · next outside =>
      refine iff_of_true rfl ?_
      rintro (⟨-, begins, -⟩ | ⟨-, strips⟩)
      · omega
      · exact absurd strips.lt_length (by omega)
    · next inside =>
      split
      · next blank =>
        refine iff_of_false (fun same => ?_) (not_not_intro (.inl ⟨blank, by omega, by omega⟩))
        have short := (sheds_trimFunctionEnd start rest).sublist.length_le
        rw [same, length_cons] at short
        omega
      · next filled =>
        split
        · next visible => exact iff_of_true rfl (by simp [filled, visible])
        · next unseen => simp [filled, unseen, ih (by omega)]

/-- The end of a function within a string takes blanks before the string, or none there. -/
theorem exists_trimFunctionEnd (start : Nat) (inner kept : List Content) :
    ∃ trimmed shed,
      trimFunctionEnd start (inner ++ .command .beginString :: kept) =
          trimmed ++ .command .beginString :: shed ∧
        trimmed.count (.command .beginString) = inner.count (.command .beginString) ∧
        Sheds kept shed ∧
        (shed = kept ↔ ¬ Strips start kept.length (inner ++ .command .beginString :: kept)) := by
  have untouched (inner : List Content)
      (stays : ¬ Strips start kept.length (inner ++ .command .beginString :: kept)) :
      ∃ trimmed shed,
        inner ++ .command .beginString :: kept = trimmed ++ .command .beginString :: shed ∧
          trimmed.count (.command .beginString) = inner.count (.command .beginString) ∧
          Sheds kept shed ∧
          (shed = kept ↔ ¬ Strips start kept.length (inner ++ .command .beginString :: kept)) :=
    ⟨inner, kept, rfl, rfl, .refl kept, iff_of_true rfl stays⟩
  induction inner with
  | nil =>
    rw [nil_append, trimFunctionEnd_cons]
    split
    · next outside => exact untouched [] fun strips => absurd strips.lt_limit (by omega)
    · refine ⟨[], _, rfl, rfl, sheds_trimFunctionEnd start kept, ?_⟩
      rw [strips_cons, trimFunctionEnd_eq_self_iff (Nat.le_refl _)]
      simp [isVisible, isText, text?]
  | cons content inner ih =>
    obtain ⟨trimmed, shed, split, same, sheds, stays⟩ := ih
    rw [cons_append, trimFunctionEnd_cons]
    have behind : ¬ (inner ++ .command .beginString :: kept).length < kept.length := by
      rw [length_append, length_cons]
      omega
    split
    · next outside =>
      exact untouched (content :: inner) fun strips => absurd strips.lt_limit (by omega)
    · split
      · next blank =>
        have other : content ≠ .command .beginString := by
          rintro rfl
          contradiction
        refine ⟨trimmed, shed, split, ?_, sheds, ?_⟩
        · rw [same, count_cons_of_ne other]
        · have other : ¬ (content.isBlank ∧
              start ≤ (inner ++ .command .beginString :: kept).length ∧
              (inner ++ .command .beginString :: kept).length < kept.length) :=
            fun within => behind within.2.2
          rw [stays, strips_cons, or_iff_right other,
            and_iff_right (isVisible_of_blank blank)]
      · next filled =>
        split
        · next visible =>
          refine untouched (content :: inner) ?_
          rw [cons_append, strips_cons]
          simp [filled, visible]
        · next unseen =>
          refine ⟨content :: trimmed, shed, by rw [split, cons_append], ?_, sheds, ?_⟩
          · rw [count_cons, count_cons, same]
          · rw [stays, strips_cons]
            simp [filled, unseen]

/-! ### Within a string -/

/-- A string is being built, with some strings begun within it. Of the objects before it some blanks
at their end may be gone, but none if they are `spared`. -/
def Within (before : List Content) (depth : Nat) (spared : Prop) (stream : List Content) : Prop :=
  ∃ inner kept, stream = inner ++ .command .beginString :: kept ∧
    inner.count (.command .beginString) = depth ∧ Sheds before kept ∧ (kept = before ↔ spared)

namespace Within

theorem begin (before : List Content) : Within before 0 True (.command .beginString :: before) :=
  ⟨[], before, rfl, rfl, .refl before, iff_of_true rfl trivial⟩

section

variable (within : Within before depth spared stream)

include within

/-- Objects within the string are exchanged for others. -/
theorem exchange {later : Nat}
    (exchanged : ∀ inner kept, stream = inner ++ .command .beginString :: kept →
      inner.count (.command .beginString) = depth →
      ∃ others, left = others ++ .command .beginString :: kept ∧
        others.count (.command .beginString) = later) : Within before later spared left := by
  obtain ⟨inner, kept, split, count, sheds, same⟩ := within
  obtain ⟨others, split, count⟩ := exchanged inner kept split count
  exact ⟨others, kept, split, count, sheds, same⟩

theorem cons (other : content ≠ .command .beginString) :
    Within before depth spared (content :: stream) :=
  within.exchange fun inner kept split count =>
    ⟨content :: inner, by rw [split, cons_append], by rw [count_cons_of_ne other, count]⟩

theorem nest : Within before (depth + 1) spared (.command .beginString :: stream) :=
  within.exchange fun inner kept split count =>
    ⟨.command .beginString :: inner, by rw [split, cons_append],
      by rw [count_cons_self, count]⟩

theorem trimNewlines : Within before depth spared (trimNewlines stream) := by
  refine within.exchange fun inner kept split count => ?_
  refine ⟨Output.trimNewlines inner, by rw [split, trimNewlines_append rfl], ?_⟩
  have unread (contents : List Content) :
      (contents.filter fun content => !content.isText).count (.command .beginString) =
        contents.count (.command .beginString) :=
    count_filter rfl
  rw [← unread, unread_trimNewlines, unread, count]

theorem removeGlue : Within before depth spared (removeGlue stream) := by
  refine within.exchange fun inner kept split count => ?_
  refine ⟨Output.removeGlue inner, by rw [split, removeGlue_append rfl], ?_⟩
  have kept : ((inner.takeWhile fun content => !content.isCommand).filter
      fun content => !content.isGlue).count (.command .beginString) =
        (inner.takeWhile fun content => !content.isCommand).count (.command .beginString) :=
    count_filter rfl
  rw [Output.removeGlue, count_append, kept, ← count_append,
    takeWhile_append_dropWhile, count]

end

/-- Nothing that is added changes what stands before the string. -/
theorem push (within : Within before depth spared output.stream)
    (other : content ≠ .command .beginString) :
    Within before depth spared (output.push stack content).1.stream := by
  refine push_invariant (P := fun reached => Within before depth spared reached.1.stream) ?_ within
  rintro piece start after kind (_ | ⟨left, -⟩) within
  · exact within
  have apart : piece ≠ .command .beginString := by
    rcases kind with rfl | ⟨text, rfl⟩
    · exact other
    · nofun
  rcases left with rfl | rfl | rfl
  · exact within.cons apart
  · exact within.removeGlue.cons apart
  · exact within.trimNewlines.cons apart

/-- An object that no beginning of a string stands behind is within the string that is built. -/
theorem exists_inner {kept : List Content} (quiet : ∀ found ∈ later, found ≠ .command .beginString)
    (same : later ++ content :: rest = inner ++ .command .beginString :: kept)
    (apart : content ≠ .command .beginString) :
    ∃ others, inner = later ++ content :: others ∧
      rest = others ++ .command .beginString :: kept := by
  induction later generalizing inner with
  | nil =>
    cases inner with
    | nil => exact absurd (cons.inj same).1 apart
    | cons first inner =>
      obtain ⟨rfl, rfl⟩ := cons.inj same
      exact ⟨inner, rfl, rfl⟩
  | cons found later ih =>
    obtain ⟨other, quiet⟩ := forall_mem_cons.mp quiet
    cases inner with
    | nil => exact absurd (cons.inj same).1 other
    | cons first inner =>
      obtain ⟨rfl, tail⟩ := cons.inj same
      obtain ⟨others, rfl, behind⟩ := ih quiet tail
      exact ⟨others, rfl, behind⟩

/-- A tag within the string is taken out from its beginning on. -/
theorem endTag {text : String} {ended : Output} (within : Within before depth spared output.stream)
    (taken : output.endTag = .ok (text, ended)) : Within before depth spared ended.stream := by
  refine within.exchange fun inner kept split count => ?_
  have quiet : ∀ found ∈ output.stream.takeWhile fun content => !content.isCommand,
      found ≠ .command .beginString := by
    rintro found member rfl
    have other := mem_takeWhile_imp member
    contradiction
  have whole := prefix_iff_eq_append.mp
    (List.takeWhile_prefix (l := output.stream) fun content => !content.isCommand)
  unfold Output.endTag at taken
  dsimp only at taken
  generalize output.stream.takeWhile (fun content => !content.isCommand) = later at quiet whole taken
  split at taken
  · next nothing =>
    rw [nothing, append_nil] at whole
    have member : .command .beginString ∈ later := by simp [whole, split]
    exact absurd rfl (quiet _ member)
  · next rest begins =>
    cases taken
    rw [begins, split] at whole
    obtain ⟨others, rfl, behind⟩ := exists_inner quiet whole (by simp)
    refine ⟨others, behind, ?_⟩
    rwa [count_append, count_eq_zero.mpr fun member => quiet _ member rfl, Nat.zero_add,
      count_cons_of_ne (by simp)] at count
  · contradiction

end Within

/-- A legacy tag. -/
def isTag : Content → Bool
  | .tag _ => true
  | _ => false

/-- The end of a string takes what is behind its beginning, but for tags. -/
theorem stream_endString (quiet : .command .beginString ∉ later)
    (split : output.stream = later ++ .command .beginString :: rest) :
    output.endString.2.stream = later.filter isTag ++ rest := by
  have whole : output.stream.takeWhile
      (fun content => decide (content ≠ .command .beginString)) = later := by
    rw [split, takeWhile_append_of_pos, takeWhile_cons_of_neg (by simp),
      append_nil]
    intro found member
    rw [decide_eq_true_iff]
    rintro rfl
    exact quiet member
  have behind : output.stream.drop (later.length + 1) = rest := by
    rw [split]
    simp
  change (output.splitString.1.filter isTag) ++ output.splitString.2.stream = _
  rw [splitString, whole]
  exact congrArg _ behind

namespace Within

/-- A string within the string is taken out. -/
theorem endString (within : Within before (depth + 1) spared output.stream) :
    Within before depth spared output.endString.2.stream := by
  refine within.exchange fun inner kept split count => ?_
  have nested : .command .beginString ∈ inner := count_pos_iff.mp (by omega)
  obtain ⟨later, others, rfl, quiet⟩ := eq_append_cons_of_mem nested
  rw [append_assoc, cons_append] at split
  refine ⟨later.filter isTag ++ others, ?_, ?_⟩
  · rw [stream_endString quiet split, append_assoc]
  · have none : (later.filter isTag).count (.command .beginString) = 0 :=
      count_eq_zero.mpr fun member => quiet (mem_of_mem_filter member)
    rw [count_append, count_eq_zero.mpr quiet, count_cons_self] at count
    rw [count_append]
    omega

/-- What is left when the string is taken out is what stood before it, and tags. -/
theorem exists_endString (within : Within before 0 spared output.stream) :
    ∃ tags kept, output.endString.2.stream = tags ++ kept ∧
      (∀ content ∈ tags, isTag content) ∧ Sheds before kept ∧ (kept = before ↔ spared) := by
  obtain ⟨inner, kept, split, count, sheds, same⟩ := within
  exact ⟨inner.filter isTag, kept, stream_endString (count_eq_zero.mp count) split,
    fun content => of_mem_filter, sheds, same⟩

/-- The end of a function spares what stands before the string, unless it takes a blank there. -/
theorem trimFunctionEnd (within : Within before depth spared stream) (start : Nat) :
    Within before depth (spared ∧ ¬ Strips start before.length stream)
      (trimFunctionEnd start stream) := by
  obtain ⟨inner, kept, rfl, count, sheds, same⟩ := within
  obtain ⟨trimmed, shed, split, sameCount, more, stays⟩ := exists_trimFunctionEnd start inner kept
  refine ⟨trimmed, shed, split, sameCount.trans count, sheds.trans more, ?_⟩
  by_cases all : kept = before
  · subst all
    rw [stays, and_iff_right (same.mp rfl)]
  · refine iff_of_false (fun whole => all ?_) fun both => all (same.mpr both.1)
    exact (sheds.sublist).antisymm (whole ▸ more.sublist)

theorem of_iff {other : Prop} (within : Within before depth spared stream) (same : spared ↔ other) :
    Within before depth other stream := by
  obtain ⟨inner, kept, split, count, sheds, whole⟩ := within
  exact ⟨inner, kept, split, count, sheds, whole.trans same⟩

theorem inString (within : Within before depth spared output.stream) : output.inString := by
  obtain ⟨inner, kept, split, -⟩ := within
  simp [Output.inString, split]

end Within

end Output

end InkStory
