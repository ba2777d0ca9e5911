import InkStory.Output
import InkStory.Proofs.SplitTexts

/-! # What glue takes away

Glue takes away the newlines before the next visible text, and so does the beginning of a function.
A visible text uses both up, but for glue that stands before a command. There is such glue where a
tag was written behind it: the text finds the glue and does not remove it, so that every newline
from then on is taken away. -/

namespace InkStory

open List

variable {text : String} {content : Content}

/-- A text with something to see and no newline at either end is to be seen. -/
theorem Content.isVisible_of_solid (solid : Text.Solid text.toList) :
    (Content.ofText text).isVisible := by
  obtain ⟨c, member, visible⟩ := solid.visible
  obtain ⟨inline, newline⟩ := Bool.or_eq_false_iff.mp visible
  have notNewline : text ≠ "\n" := by
    rintro rfl
    obtain rfl : c = '\n' := by simpa using member
    contradiction
  have notBlank : text.toList.all Text.isInlineBlank = false :=
    all_eq_false.mpr ⟨c, member, by simp [inline]⟩
  simp [isVisible, isText, isNewline, isInlineBlank, ofText, text?, notNewline, notBlank]

theorem Content.isGlue_iff : content.isGlue ↔ content = .glue := by
  cases content <;> simp [isGlue]

theorem Content.isNewline_of_visible (visible : content.isVisible) :
    content.isNewline = false := by
  rw [isVisible, Bool.and_eq_true, Bool.and_eq_true] at visible
  simpa using visible.1.2

namespace Output

open Content (isNewline_of_visible)

variable {output : Output} {stack : CallStack} {stream rest : List Content}

/-! ### Glue that is found and not removed -/

/-- There is glue with a command behind it, and no string was begun since. -/
def HoldsGlue (stream : List Content) : Prop :=
  ∃ later earlier, stream = later ++ .glue :: earlier ∧ .command .beginString ∉ later ∧
    ∃ command, .command command ∈ later

theorem exists_glue_cons_iff {P : List Content → Prop} (other : content ≠ .glue) :
    (∃ later earlier, content :: rest = later ++ .glue :: earlier ∧ P later) ↔
      ∃ later earlier, rest = later ++ .glue :: earlier ∧ P (content :: later) := by
  constructor
  · rintro ⟨later, earlier, split, holds⟩
    cases later with
    | nil =>
      cases split
      contradiction
    | cons head later =>
      cases split
      exact ⟨later, earlier, rfl, holds⟩
  · rintro ⟨later, earlier, rfl, holds⟩
    exact ⟨content :: later, earlier, rfl, holds⟩

theorem holdsGlue_cons (quiet : content.isCommand = false) :
    HoldsGlue (content :: rest) ↔ HoldsGlue rest := by
  have different (command : Command) : content ≠ .command command := by
    rintro rfl
    contradiction
  constructor
  · rintro ⟨later, earlier, split, unbegun, command, member⟩
    cases later with
    | nil => simp at member
    | cons head later =>
      cases split
      refine ⟨later, earlier, rfl, fun begun => unbegun (mem_cons_of_mem _ begun), command,
        ?_⟩
      exact (mem_cons.mp member).resolve_left (different command).symm
  · rintro ⟨later, earlier, rfl, unbegun, command, member⟩
    refine ⟨content :: later, earlier, rfl, fun begun => ?_, command, mem_cons_of_mem _ member⟩
    exact unbegun ((mem_cons.mp begun).resolve_left (different _).symm)

theorem lookBack_eq_glue_iff :
    lookBack stream = .glue ↔
      ∃ later earlier, stream = later ++ .glue :: earlier ∧ .command .beginString ∉ later := by
  induction stream with
  | nil => simp [lookBack]
  | cons content rest ih =>
    by_cases glue : content = .glue
    · subst glue
      exact iff_of_true rfl ⟨[], rest, rfl, not_mem_nil⟩
    rw [exists_glue_cons_iff glue]
    rw [lookBack, if_neg (mt Content.isGlue_iff.mp glue)]
    by_cases string : content = .command .beginString
    · rw [if_pos string]
      subst string
      refine iff_of_false (by simp) ?_
      rintro ⟨later, earlier, -, unbegun⟩
      exact unbegun mem_cons_self
    · rw [if_neg string, ih]
      simp [Ne.symm string]

theorem lookBack_cons_of_quiet (quiet : content.isCommand = false)
    (other : content.isGlue = false) : lookBack (content :: rest) = lookBack rest := by
  rw [lookBack, if_neg (by simp [other]), if_neg]
  rintro rfl
  contradiction

theorem removeGlue_cons :
    removeGlue (content :: rest) =
      if content.isCommand then content :: rest
      else if content.isGlue then removeGlue rest
      else content :: removeGlue rest := by
  cases command : content.isCommand with
  | true => simp [removeGlue, command]
  | false => cases glue : content.isGlue <;> simp [removeGlue, command, glue]

/-- Where a text finds no glue, there is none to remove. -/
theorem removeGlue_of_lookBack (absent : lookBack stream ≠ .glue) : removeGlue stream = stream := by
  induction stream with
  | nil => rfl
  | cons content rest ih =>
    rw [removeGlue_cons]
    split
    · rfl
    · next quiet =>
      have other : content.isGlue = false := by
        rw [Bool.eq_false_iff]
        intro glue
        exact absent (by rw [lookBack, if_pos glue])
      rw [if_neg (by simp [other]), ih]
      rwa [lookBack_cons_of_quiet (by simpa using quiet) other] at absent

/-- A text still finds glue, when that behind the last command is removed. -/
theorem lookBack_removeGlue_iff : lookBack (removeGlue stream) = .glue ↔ HoldsGlue stream := by
  induction stream with
  | nil => simp [removeGlue, lookBack, HoldsGlue]
  | cons content rest ih =>
    rw [removeGlue_cons]
    split
    · next isCommand =>
      cases content with
      | command command =>
        rw [lookBack_eq_glue_iff, HoldsGlue, exists_glue_cons_iff (by simp),
          exists_glue_cons_iff (by simp)]
        simp
      | _ => contradiction
    · next quiet =>
      rw [Bool.not_eq_true] at quiet
      rw [holdsGlue_cons quiet, ← ih]
      split
      · rfl
      · next other => rw [lookBack_cons_of_quiet quiet (by simpa using other)]

/-! ### Trimming at the beginning of a function -/

/-- Where the output of a function begins for a text that trims it: not before the string that the
text is in. -/
def trimStart? (behind : Behind) (stack : CallStack) : Option Nat :=
  match behind, functionStart? stack with
  | .string position, some start => if start ≤ position then none else some start
  | _, start => start

theorem trimStart?_eq_none (behind : Behind) (stopped : functionStart? stack = none) :
    trimStart? behind stack = none := by
  cases behind <;> simp [trimStart?, stopped]

theorem functionStart?_stopFunctionTrimming (stack : CallStack) :
    functionStart? (stopFunctionTrimming stack) = none := by
  obtain ⟨⟨top, below, index, previous⟩, waiting, counter⟩ := stack
  by_cases function : top.kind = .function <;>
    simp [functionStart?, stopFunctionTrimming, Thread.frames, stopTrimming, CallStack.frame,
      function]

/-- The call stack behind a visible text. -/
def stopped (stream : List Content) (stack : CallStack) : CallStack :=
  if (trimStart? (lookBack stream) stack).isSome then stopFunctionTrimming stack else stack

/-- Behind a visible text, no function is trimmed. -/
theorem trimStart?_stopped (stream : List Content) (stack : CallStack) :
    trimStart? (lookBack (removeGlue stream)) (stopped stream stack) = none := by
  unfold stopped
  split
  · exact trimStart?_eq_none _ (functionStart?_stopFunctionTrimming stack)
  · next untrimmed =>
    rw [Bool.not_eq_true, Option.isSome_eq_false_iff, Option.isNone_iff_eq_none] at untrimmed
    by_cases glue : lookBack stream = .glue
    · rw [glue] at untrimmed
      exact trimStart?_eq_none _ untrimmed
    · rwa [removeGlue_of_lookBack glue]

/-! ### A newline behind a visible text -/

theorem pushText_eq (output : Output) (stack : CallStack) (content : Content) :
    output.pushText stack content =
      if lookBack output.stream == .glue ||
          (trimStart? (lookBack output.stream) stack).isSome then
        if content.isNewline then (output, stack)
        else if content.isVisible then
          (ofStream (content :: if lookBack output.stream == .glue then removeGlue output.stream
            else output.stream), stopped output.stream stack)
        else (ofStream (content :: output.stream), stack)
      else if content.isNewline && (output.endsInNewline || !output.hasText) then (output, stack)
      else (ofStream (content :: output.stream), stack) := rfl

theorem pushText_visible (visible : content.isVisible) :
    output.pushText stack content =
      (ofStream (content :: removeGlue output.stream), stopped output.stream stack) := by
  simp only [pushText_eq, isNewline_of_visible visible, visible]
  by_cases glue : lookBack output.stream = .glue
  · simp [glue]
  · rw [removeGlue_of_lookBack glue, stopped]
    cases trimStart? (lookBack output.stream) stack <;> simp [glue]

theorem endsInNewline_visible (visible : content.isVisible) :
    (ofStream (content :: rest)).endsInNewline = false := by
  simp [endsInNewline, ofStream, visible, isNewline_of_visible visible]

theorem pushText_newline (visible : (Content.ofText text).isVisible)
    (untrimmed : trimStart? (lookBack rest) stack = none) :
    ((ofStream (.ofText text :: rest)).pushText stack (.ofText "\n")).1 =
      ofStream (if lookBack rest = .glue then .ofText text :: rest
        else .ofText "\n" :: .ofText text :: rest) := by
  have behind : lookBack (ofStream (.ofText text :: rest)).stream = lookBack rest := rfl
  have newline : (Content.ofText "\n").isNewline := rfl
  have shown : (ofStream (.ofText text :: rest)).hasText := rfl
  simp only [pushText_eq, behind, untrimmed, newline, shown, endsInNewline_visible visible]
  by_cases glue : lookBack rest = .glue
  · simp [glue]
  · simp [glue, ofStream]

theorem push_of_solid (solid : Text.Solid text.toList) :
    output.push stack (.ofText text) = output.pushText stack (.ofText text) := by
  rw [push, Content.ofText, Content.text?, Option.bind_some, solid.splitEnds?]
  rfl

theorem push_newline : output.push stack (.ofText "\n") = output.pushText stack (.ofText "\n") := by
  rfl

/-! ### Texts behind glue that is not removed -/

/-- Add objects, the first first. -/
def pushAll (contents : List Content) (start : Output × CallStack) : Output × CallStack :=
  contents.foldl (fun reached content => reached.1.push reached.2 content) start

theorem HoldsGlue.lookBack (holds : HoldsGlue stream) : lookBack stream = .glue := by
  obtain ⟨later, earlier, split, unbegun, -⟩ := holds
  exact lookBack_eq_glue_iff.mpr ⟨later, earlier, split, unbegun⟩

theorem holdsGlue_removeGlue (holds : HoldsGlue stream) : HoldsGlue (removeGlue stream) := by
  induction stream with
  | nil => exact holds
  | cons content rest ih =>
    rw [removeGlue_cons]
    split
    · exact holds
    · next quiet =>
      rw [Bool.not_eq_true] at quiet
      rw [holdsGlue_cons quiet] at holds
      split
      · exact ih holds
      · exact (holdsGlue_cons quiet).mpr (ih holds)

theorem newlines_removeGlue :
    (removeGlue stream).filter Content.isNewline = stream.filter Content.isNewline := by
  induction stream with
  | nil => rfl
  | cons content rest ih =>
    rw [removeGlue_cons]
    split
    · rfl
    · split
      · next glue =>
        cases Content.isGlue_iff.mp glue
        exact ih
      · rw [filter_cons, filter_cons, ih]

/-- Objects were added to a stream: there is glue that no text removes, and no newline is new. -/
structure Swallows (before after : List Content) : Prop where
  holds : HoldsGlue after
  newlines : after.filter Content.isNewline = before.filter Content.isNewline

namespace Swallows

variable {before : List Content} (swallows : Swallows before output.stream)

include swallows

theorem pushText (text : String) :
    Swallows before (output.pushText stack (.ofText text)).1.stream := by
  have quiet : (Content.ofText text).isCommand = false := rfl
  have added {rest : List Content} (holds : HoldsGlue rest)
      (newlines : rest.filter Content.isNewline = before.filter Content.isNewline)
      (other : ¬(Content.ofText text).isNewline) :
      Swallows before (.ofText text :: rest) :=
    ⟨(holdsGlue_cons quiet).mpr holds, by rw [filter_cons_of_neg other, newlines]⟩
  rw [pushText_eq, swallows.holds.lookBack, if_pos (by simp)]
  split
  · exact swallows
  · next other =>
    split
    · exact added (holdsGlue_removeGlue swallows.holds)
        (newlines_removeGlue.trans swallows.newlines) other
    · exact added swallows.holds swallows.newlines other

theorem push (text : String) : Swallows before (output.push stack (.ofText text)).1.stream := by
  unfold Output.push
  split
  · next parts split =>
    -- The parts of the text come one after another.
    clear split
    induction parts generalizing output stack with
    | nil => exact swallows
    | cons part parts ih => exact ih (swallows.pushText (String.ofList part))
  · exact swallows.pushText text

theorem pushAll (texts : List String) :
    Swallows before (pushAll (texts.map .ofText) (output, stack)).1.stream := by
  induction texts generalizing output stack with
  | nil => exact swallows
  | cons text texts ih => exact ih (swallows.push text)

end Swallows

/-! ### When a newline stays -/

/-- **A newline stays behind a visible text**, unless there is glue that the text does not remove.
Then no newline of any text to come stays. -/
theorem newline_stays_iff (output : Output) (stack : CallStack) {text : String}
    (solid : Text.Solid text.toList) :
    ((pushAll [.ofText text, .ofText "\n"] (output, stack)).1.endsInNewline = true ↔
      ¬HoldsGlue output.stream) ∧
    (HoldsGlue output.stream → ∀ texts : List String,
      Swallows output.stream (pushAll (texts.map .ofText) (output, stack)).1.stream) := by
  refine ⟨?_, fun holds texts => Swallows.pushAll ⟨holds, rfl⟩ texts⟩
  have visible := Content.isVisible_of_solid solid
  simp only [pushAll, List.foldl_cons, List.foldl_nil]
  rw [push_newline, push_of_solid solid, pushText_visible visible,
    pushText_newline visible (trimStart?_stopped output.stream stack), ← lookBack_removeGlue_iff]
  split
  · next glue => simp [endsInNewline_visible visible, glue]
  · next clear => exact iff_of_true rfl clear

/-- Glue joins two lines, and the second ends. -/
theorem glued_line_ends :
    Text.Solid " world".toList ∧
      (pushAll [.ofText " world", .ofText "\n"]
        (pushAll [.ofText "Hello", .ofText "\n", .glue] ({}, default))).1.endsInNewline = true := by
  have solid : Text.Solid " world".toList :=
    ⟨⟨'w', by decide, by decide⟩, by decide, by decide⟩
  refine ⟨solid, (newline_stays_iff _ _ solid).1.mpr ?_⟩
  rw [← lookBack_removeGlue_iff]
  decide

/-- With a tag behind the glue, the second line does not end. -/
theorem line_behind_tag_unended :
    Text.Solid " world".toList ∧
      (pushAll [.ofText " world", .ofText "\n"]
        (pushAll [.ofText "Hello", .glue, .command .beginTag, .ofText "loud", .command .endTag]
          ({}, default))).1.endsInNewline = false := by
  refine ⟨⟨⟨'w', by decide, by decide⟩, by decide, by decide⟩, ?_⟩
  decide +kernel

end Output

end InkStory
