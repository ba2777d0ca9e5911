import InkStory.Proofs.Pushes

/-! # Lines of the output

A reader sees the lines of the output without spaces and tabs at their ends, and with one space for
each run of them within (`Text.tidy_by_lines`). Whatever is done to the output, no line in it is
empty: a newline stands behind text, and behind something else than another newline
(`Output.Edits.newlines_apart`). -/

namespace InkStory

open List

namespace Text

variable {line : List Char}

/-! ### White space in lines -/

/-- The words of a line with one space between them: what is left if spaces and tabs at its ends
are dropped and each run of them within becomes one space. -/
def tidyLine (line : List Char) : List Char :=
  [' '].intercalate ((line.splitOnP isInlineBlank).filter (· ≠ []))

/-- Pieces of a line, each that is not empty behind a space. -/
def spaced (pieces : List (List Char)) : List Char :=
  (pieces.filter (· ≠ [])).flatMap (' ' :: ·)

theorem intercalate_filter {first : List Char} (present : first ≠ []) (others : List (List Char)) :
    [' '].intercalate ((first :: others).filter (· ≠ [])) = first ++ spaced others := by
  rw [filter_cons_of_pos (by simpa using present), spaced]
  generalize others.filter _ = pieces
  clear present
  induction pieces generalizing first with
  | nil => simp
  | cons next pieces ih => simp [ih]

/-- From within a line on, each word stands behind a space, but for the one that goes on. -/
theorem tidyFrom_within (single : '\n' ∉ line) :
    tidyFrom false true line = spaced (line.splitOnP isInlineBlank) ∧
      ∃ first others, line.splitOnP isInlineBlank = first :: others ∧
        tidyFrom false false line = first ++ spaced others := by
  induction line with
  | nil => exact ⟨rfl, [], [], rfl, rfl⟩
  | cons c rest ih =>
    obtain ⟨other, single⟩ := ne_and_not_mem_of_not_mem_cons single
    obtain ⟨pending, first, others, split, going⟩ := ih single
    simp only [splitOnP_cons_eq_if_modifyHead, tidyFrom, if_neg other.symm]
    by_cases blank : isInlineBlank c
    · simp only [if_pos blank, pending]
      exact ⟨rfl, [], _, rfl, rfl⟩
    · simp only [if_neg blank, going, split]
      exact ⟨by simp [spaced], c :: first, others, rfl, rfl⟩

/-- A line is tidied by its words. -/
theorem tidyFrom_start (pending : Bool) (single : '\n' ∉ line) :
    tidyFrom true pending line = tidyLine line := by
  induction line generalizing pending with
  | nil => rfl
  | cons c rest ih =>
    obtain ⟨other, single⟩ := ne_and_not_mem_of_not_mem_cons single
    rw [tidyFrom, tidyLine, splitOnP_cons_eq_if_modifyHead]
    by_cases blank : isInlineBlank c
    · rw [if_pos blank, if_pos blank, ih true single]
      rfl
    · obtain ⟨-, first, others, split, going⟩ := tidyFrom_within single
      rw [if_neg blank, if_neg blank, if_neg other.symm, split, going, modifyHead_cons,
        intercalate_filter (cons_ne_nil _ _)]
      simp

theorem tidyFrom_append (atStart pending : Bool) (line rest : List Char) :
    tidyFrom atStart pending (line ++ '\n' :: rest) =
      tidyFrom atStart pending line ++ '\n' :: tidyFrom true false rest := by
  fun_induction tidyFrom atStart pending line <;> simp_all [tidyFrom, isInlineBlank]

/-- Each line is tidied by itself. -/
theorem tidyFrom_intercalate {lines : List (List Char)} (some : lines ≠ [])
    (single : ∀ line ∈ lines, '\n' ∉ line) :
    tidyFrom true false (['\n'].intercalate lines) = ['\n'].intercalate (lines.map tidyLine) := by
  induction lines with
  | nil => contradiction
  | cons line others ih =>
    obtain ⟨first, single⟩ := forall_mem_cons.mp single
    cases others with
    | nil => simp [tidyFrom_start false first]
    | cons next others =>
      have later := ih (cons_ne_nil _ _) single
      rw [map_cons] at later
      rw [map_cons, map_cons, intercalate_cons_cons, intercalate_cons_cons, ← later,
        append_assoc, append_assoc]
      exact (tidyFrom_append ..).trans (congrArg (· ++ _) (tidyFrom_start false first))

theorem tidyFrom_tidyFrom (atStart pending : Bool) (text : List Char) :
    tidyFrom atStart false (tidyFrom atStart pending text) = tidyFrom atStart pending text := by
  fun_induction tidyFrom atStart pending text <;> simp_all [tidyFrom]

theorem filter_tidyFrom (atStart pending : Bool) (text : List Char) :
    (tidyFrom atStart pending text).filter (fun c => !isInlineBlank c) =
      text.filter fun c => !isInlineBlank c := by
  fun_induction tidyFrom atStart pending text with
  | case2 atStart pending c rest blank ih => rw [ih, filter_cons_of_neg (by simp [blank])]
  | _ => simp_all [isInlineBlank]

/-- **Texts are tidied line by line.** Nothing is left to tidy then, no line more or less is there,
and all characters but spaces and tabs are there in their order. -/
theorem tidy_by_lines (text : String) :
    (tidy text).toList = ['\n'].intercalate ((text.toList.splitOn '\n').map tidyLine) ∧
      tidy (tidy text) = tidy text ∧
      (tidy text).toList.count '\n' = text.toList.count '\n' ∧
      (tidy text).toList.filter (fun c => !isInlineBlank c) =
        text.toList.filter fun c => !isInlineBlank c := by
  have kept : (tidy text).toList.filter (fun c => !isInlineBlank c) =
      text.toList.filter fun c => !isInlineBlank c := by
    rw [tidy, String.toList_ofList, filter_tidyFrom]
  refine ⟨?_, ?_, ?_, kept⟩
  · have single : ∀ line ∈ text.toList.splitOn '\n', '\n' ∉ line := by
      intro line member newline
      exact not_separates_of_mem member _ newline rfl
    rw [tidy, String.toList_ofList, ← tidyFrom_intercalate (splitOn_ne_nil _ _) single,
      intercalate_splitOn]
  · rw [tidy, tidy, String.toList_ofList, tidyFrom_tidyFrom]
  · have counted := congrArg (count '\n') kept
    rwa [count_filter rfl, count_filter rfl] at counted

end Text

namespace Output

open Content

variable {output : Output} {stack : CallStack} {content : Content}
  {stream rest later earlier : List Content}

/-! ### Newlines in the output -/

/-- Each newline stands behind text, and behind something else than another newline. -/
def Parted : List Content → Prop
  | [] => True
  | content :: rest =>
    (content.isNewline → (ofStream rest).endsInNewline = false ∧ (ofStream rest).hasText) ∧
      Parted rest

theorem endsInNewline_removeGlue (stream : List Content) :
    (ofStream (removeGlue stream)).endsInNewline = (ofStream stream).endsInNewline ∧
      (ofStream (removeGlue stream)).hasText = (ofStream stream).hasText := by
  induction stream with
  | nil => exact ⟨rfl, rfl⟩
  | cons content rest ih =>
    rw [removeGlue_cons]
    split
    · exact ⟨rfl, rfl⟩
    · split
      · next glue =>
        rw [isGlue_iff.mp glue]
        exact ih
      · rw [endsInNewline_cons, endsInNewline_cons, ih.1]
        exact ⟨rfl, congrArg (content.isText || ·) ih.2⟩

namespace Parted

theorem of_append (parted : Parted (later ++ earlier)) : Parted earlier := by
  induction later with
  | nil => exact parted
  | cons content later ih => exact ih parted.2

/-- Objects that are no newlines may be added. -/
theorem append (others : ∀ content ∈ later, content.isNewline = false) (parted : Parted earlier) :
    Parted (later ++ earlier) := by
  induction later with
  | nil => exact parted
  | cons content later ih =>
    obtain ⟨other, others⟩ := forall_mem_cons.mp others
    exact ⟨fun newline => by simp [other] at newline, ih others⟩

theorem removeGlue (parted : Parted stream) : Parted (removeGlue stream) := by
  induction stream with
  | nil => exact parted
  | cons content rest ih =>
    rw [removeGlue_cons]
    split
    · exact parted
    · split
      · exact ih parted.2
      · obtain ⟨ends, text⟩ := endsInNewline_removeGlue rest
        exact ⟨ends ▸ text ▸ parted.1, ih parted.2⟩

theorem trimNewlines (parted : Parted stream) : Parted (trimNewlines stream) := by
  obtain ⟨rest, split, trimmed⟩ := exists_trimNewlines stream
  rw [split] at parted
  rw [trimmed]
  refine append (fun content member => ?_) parted.of_append
  exact isNewline_eq_false_of_isText (by simpa using (mem_filter.mp member).2)

theorem trimFunctionEnd (start : Nat) (parted : Parted stream) :
    Parted (trimFunctionEnd start stream) := by
  fun_induction Output.trimFunctionEnd start stream with
  | case1 => exact parted
  | case2 => exact parted
  | case3 content rest _ other ih =>
    refine ⟨fun newline => ?_, ih parted.2⟩
    rw [isNewline_eq_false_of_isText (by simpa using other)] at newline
    contradiction
  | case4 content rest _ _ _ ih => exact ih parted.2
  | case5 => exact parted

theorem push (parted : Parted output.stream) : Parted (output.push stack content).1.stream := by
  refine push_invariant (P := fun reached => Parted reached.1.stream) ?_ parted
  rintro piece before after - (_ | ⟨left, -, apart⟩) parted
  · exact parted
  refine ⟨fun newline => ?_, ?_⟩
  · obtain ⟨rfl, away⟩ := apart newline
    exact away
  · rcases left with rfl | rfl | rfl
    · exact parted
    · exact parted.removeGlue
    · exact parted.trimNewlines

theorem endString (parted : Parted output.stream) : Parted output.endString.2.stream := by
  refine append (fun content member => ?_) ?_
  · have tag := (mem_filter.mp member).2
    cases content <;> trivial
  · have whole := take_append_drop (output.splitString.1.length + 1) output.stream
    exact of_append (whole.symm ▸ parted)

theorem endTag {text : String} {ended : Output} (parted : Parted output.stream)
    (left : output.endTag = .ok (text, ended)) : Parted ended.stream := by
  unfold Output.endTag at left
  dsimp only at left
  split at left
  · cases left
    trivial
  · next before behind =>
    cases left
    rw [← take_append_drop _ output.stream, behind] at parted
    exact parted.of_append.2
  · contradiction

/-- Between two newlines there is a command or something to see. -/
theorem exists_between {between : List Content} {first : Content}
    (ends : (ofStream (between ++ first :: earlier)).endsInNewline = false)
    (newline : first.isNewline) : ∃ content ∈ between, content.isCommand ∨ content.isVisible := by
  induction between with
  | nil => simp_all [endsInNewline, ofStream]
  | cons content between ih =>
    rw [cons_append, endsInNewline_cons] at ends
    cases run : isRun content with
    | true =>
      rw [run, Bool.true_and, Bool.or_eq_false_iff] at ends
      obtain ⟨found, member, stops⟩ := ih ends.2
      exact ⟨found, mem_cons_of_mem _ member, stops⟩
    | false => exact ⟨content, mem_cons_self, by simpa [isRun, imp_iff_not_or] using run⟩

end Parted

/-- What may be done to an output: an object is added under some call stack, a function is left, a
string or a tag is taken out, or it is cleared or set back to what it was. -/
inductive Edit (past : List Output) (now : Output) : Output → Prop where
  | push (stack : CallStack) (content : Content) : Edit past now (now.push stack content).1
  | leaveFunction (stack : CallStack) : Edit past now (now.leaveFunction stack)
  | endString : Edit past now now.endString.2
  | endTag {text : String} {ended : Output} (taken : now.endTag = .ok (text, ended)) :
      Edit past now ended
  | clear : Edit past now {}
  | reset {before : Output} (earlier : before ∈ past) : Edit past now before

/-- The outputs that one becomes from nothing on, latest first. -/
inductive Edits : List Output → Prop where
  | empty : Edits [{}]
  | edit {now next : Output} {past : List Output} (edits : Edits (now :: past))
      (edit : Edit past now next) : Edits (next :: now :: past)

theorem Edit.parted {past : List Output} {next : Output} (edit : Edit past output next)
    (parted : Parted output.stream) (before : ∀ output ∈ past, Parted output.stream) :
    Parted next.stream := by
  cases edit with
  | push stack content => exact parted.push
  | leaveFunction stack => exact parted.trimFunctionEnd _
  | endString => exact parted.endString
  | endTag taken => exact parted.endTag taken
  | clear => trivial
  | reset earlier => exact before _ earlier

theorem Edits.parted {outputs : List Output} (edits : Edits outputs) :
    ∀ output ∈ outputs, Parted output.stream := by
  induction edits with
  | empty => exact forall_mem_singleton.mpr trivial
  | edit _ edit parted =>
    obtain ⟨now, before⟩ := forall_mem_cons.mp parted
    exact forall_mem_cons.mpr ⟨edit.parted now before, parted⟩

/-- **No line is empty.** Between two newlines of the output there is always a command or something
to see, and before each newline a text. -/
theorem Edits.newlines_apart {past : List Output} (edits : Edits (output :: past)) :
    (∀ before first between second behind,
      output.toList = before ++ first :: (between ++ second :: behind) →
      first.isNewline = true → second.isNewline = true →
      ∃ content ∈ between, content.isCommand = true ∨ content.isVisible = true) ∧
    ∀ before newline behind, output.toList = before ++ newline :: behind →
      newline.isNewline = true → ∃ content ∈ before, content.isText = true := by
  have parted := edits.parted output mem_cons_self
  have within {before behind : List Content} {newline : Content}
      (split : output.toList = before ++ newline :: behind) (isNewline : newline.isNewline) :
      (ofStream before.reverse).endsInNewline = false ∧ (ofStream before.reverse).hasText := by
    rw [← reverse_reverse output.stream, ← toList, split, reverse_append, reverse_cons,
      append_assoc] at parted
    exact parted.of_append.1 isNewline
  refine ⟨fun before first between second behind split isFirst isSecond => ?_,
    fun before newline behind split isNewline => ?_⟩
  · rw [← cons_append, ← append_assoc] at split
    have ends := (within split isSecond).1
    rw [reverse_append, reverse_cons, append_assoc] at ends
    simpa using Parted.exists_between ends isFirst
  · simpa [ofStream] using any_eq_true.mp (within split isNewline).2

theorem two_lines_apart :
    ∃ output past, Edits (output :: past) ∧
      output.toList = [.ofText "a", .ofText "\n", .ofText " b", .ofText "\n"] ∧
      ∃ content ∈ [Content.ofText " b"], content.isCommand = true ∨ content.isVisible = true := by
  have edits := (Edits.empty.edit (.push default (.ofText "a\n"))).edit (.push default (.ofText "\n b\n"))
  refine ⟨_, _, edits, by decide +kernel, ?_⟩
  exact edits.newlines_apart.1 [.ofText "a"] (.ofText "\n") [.ofText " b"] (.ofText "\n") []
    (by decide +kernel) rfl rfl

end Output

end InkStory
