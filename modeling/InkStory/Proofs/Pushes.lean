import InkStory.Proofs.Glue

/-! # Adding objects to the output

An object is added in parts: the newlines at the ends of a text come by themselves
(`Output.push_eq`). A part looks back no further than to what stops it. Glue takes away newlines
back to a visible text or a command (`Output.trimNewlines_append`), and a visible text takes away glue
back to a command (`Output.removeGlue_append`). So glue joins the lines around it
(`Output.glue_joins`). -/

namespace InkStory

open List

variable {content part : Content}

namespace Content

variable {text : String}

/-- An object that is text and not to be seen: a newline, or spaces and tabs only. -/
def isBlank (content : Content) : Bool := content.isText && !content.isVisible

/-- An object that is a text of spaces, tabs and newlines only. -/
def isWhite (content : Content) : Bool :=
  content.text?.any fun text => text.toList.all Text.isLineBlank

theorem isBlank_iff : content.isBlank ↔
    content.isNewline ∨ content.isInlineBlank := by
  unfold isBlank isVisible isText isNewline isInlineBlank
  cases content.text? <;> simp [imp_iff_not_or]

theorem isVisible_eq_false_of_isText (other : content.isText = false) :
    content.isVisible = false := by
  simp [isVisible, other]

theorem isNewline_eq_false_of_isText (other : content.isText = false) :
    content.isNewline = false := by
  rw [isText, Option.isSome_eq_false_iff, Option.isNone_iff_eq_none] at other
  simp [isNewline, other]

theorem isText_of_visible (visible : content.isVisible) : content.isText := by
  rw [isVisible, Bool.and_eq_true, Bool.and_eq_true] at visible
  exact visible.1.1

theorem isText_of_blank (blank : content.isBlank) : content.isText :=
  (Bool.and_eq_true_iff.mp blank).1

theorem isVisible_of_blank (blank : content.isBlank) : content.isVisible = false := by
  simpa using (Bool.and_eq_true_iff.mp blank).2

theorem isCommand_of_text (text : content.isText) : content.isCommand = false := by
  cases content <;> trivial

theorem isGlue_of_text (text : content.isText) : content.isGlue = false := by
  cases content <;> trivial

end Content

namespace Output

open Content

variable {output : Output} {stack : CallStack} {stream later earlier run : List Content}

/-! ### Parts -/

/-- The parts that an object is added in. -/
def parts (content : Content) : List Content :=
  (content.text?.bind fun text => Text.splitEnds? text.toList).elim [content] fun parts =>
    parts.map fun part => .ofText (String.ofList part)

/-- Add objects that are not to be split, the first first. -/
def addParts (contents : List Content) (start : Output × CallStack) : Output × CallStack :=
  contents.foldl (fun reached content => reached.1.pushOne reached.2 content) start

theorem push_eq (output : Output) (stack : CallStack) (content : Content) :
    output.push stack content = addParts (parts content) (output, stack) := by
  unfold push parts addParts
  cases content.text?.bind fun text => Text.splitEnds? text.toList with
  | none => rfl
  | some found =>
    rw [Option.elim_some, foldl_map]

theorem addParts_append (first second : List Content) (start : Output × CallStack) :
    addParts (first ++ second) start = addParts second (addParts first start) := foldl_append

theorem pushAll_eq (contents : List Content) (start : Output × CallStack) :
    pushAll contents start = addParts (contents.flatMap parts) start := by
  induction contents generalizing start with
  | nil => rfl
  | cons content rest ih =>
    rw [flatMap_cons, addParts_append, ← push_eq, ← ih]
    rfl

theorem pushAll_concat (contents : List Content) (content : Content) (start : Output × CallStack) :
    pushAll (contents ++ [content]) start =
      (pushAll contents start).1.push (pushAll contents start).2 content := by
  rw [pushAll, foldl_append]
  rfl

/-- The parts of a text are texts. -/
theorem isText_of_mem_parts (text : content.isText) (member : part ∈ parts content) :
    part.isText := by
  unfold parts at member
  cases split : content.text?.bind fun text => Text.splitEnds? text.toList with
  | none =>
    rw [split] at member
    rw [mem_singleton.mp member]
    exact text
  | some found =>
    rw [split] at member
    obtain ⟨characters, -, rfl⟩ := mem_map.mp member
    rfl

/-- The parts of a text without anything to see are newlines, and spaces and tabs. -/
theorem isBlank_of_mem_parts (white : content.isWhite) (member : part ∈ parts content) :
    part.isBlank := by
  have inline {characters : List Char} (all : ∀ c ∈ characters, Text.isInlineBlank c) :
      (ofText (String.ofList characters)).isBlank := by
    refine isBlank_iff.mpr (.inr ?_)
    simpa [isInlineBlank, ofText, text?] using all
  have inlineOf {c : Char} (line : Text.isLineBlank c) (other : c ≠ '\n') :
      Text.isInlineBlank c := by simpa [Text.isLineBlank, other] using line
  obtain ⟨text, found, white⟩ := (Option.any_eq_true _ _).mp white
  rw [all_eq_true] at white
  unfold parts at member
  rw [found, Option.bind_some, Text.splitEnds?_of_blank white] at member
  split at member
  · obtain ⟨characters, there, rfl⟩ := mem_map.mp member
    rcases Text.mem_leadParts there with rfl | ⟨starts, absent⟩
    · rfl
    · refine inline fun c there => inlineOf (white c (starts.subset there)) ?_
      exact ne_of_mem_of_not_mem there absent
  · next absent =>
    rw [mem_singleton.mp member]
    refine isBlank_iff.mpr (.inr ?_)
    rw [isInlineBlank, found]
    refine all_eq_true.mpr fun c there => inlineOf (white c there) ?_
    exact fun same => absent (same ▸ there)

/-! ### Where looking back stops -/

/-- Objects that glue looks back through for newlines. -/
def isRun (content : Content) : Bool := !content.isCommand && !content.isVisible

theorem isRun_iff : isRun content ↔ content.isCommand = false ∧ content.isVisible = false := by
  simp [isRun]

theorem endsInNewline_cons (content : Content) (rest : List Content) :
    (ofStream (content :: rest)).endsInNewline =
      (isRun content && (content.isNewline || (ofStream rest).endsInNewline)) := by
  have newline (newline : content.isNewline) : isRun content := by
    have text : content.isText := isText_of_blank (isBlank_iff.mpr (.inl newline))
    simp [isRun, isCommand_of_text text, isVisible, newline]
  cases isNewline : content.isNewline <;> cases run : isRun content <;>
    simp_all [endsInNewline, ofStream, isRun]

/-- The last run of blanks, from its first newline on. -/
def lineEnd (stream : List Content) : List Content :=
  (stream.takeWhile isRun).rdropWhile fun content => !content.isNewline

theorem isPrefix_lineEnd (stream : List Content) : lineEnd stream <+: stream :=
  (List.rdropWhile_prefix _ _).trans (List.takeWhile_prefix _)

/-- Glue takes the texts out of the end of the line. -/
theorem exists_trimNewlines (stream : List Content) :
    ∃ rest, stream = lineEnd stream ++ rest ∧
      trimNewlines stream = (lineEnd stream).filter (fun content => !content.isText) ++ rest := by
  obtain ⟨rest, split⟩ := isPrefix_lineEnd stream
  have behind : stream.drop (lineEnd stream).length = rest := by
    nth_rewrite 2 [← split]
    exact drop_left
  exact ⟨rest, split.symm, congrArg _ behind⟩

/-- Newlines are taken away back to a command or a visible text. -/
theorem trimNewlines_append (stop : isRun content = false) :
    trimNewlines (later ++ content :: earlier) = trimNewlines later ++ content :: earlier := by
  have same : (later ++ content :: earlier).takeWhile isRun = later.takeWhile isRun := by
    rw [takeWhile_append]
    split
    · next whole =>
      rw [takeWhile_cons_of_neg (by simp [stop]), append_nil]
      exact ((List.takeWhile_prefix _).eq_of_length whole).symm
    · rfl
  have short := (isPrefix_lineEnd later).length_le
  change (lineEnd _).filter _ ++ drop (lineEnd _).length _ = _
  rw [lineEnd, same, ← lineEnd, drop_append_of_le_length short, ← append_assoc]
  rfl

/-- Glue takes away texts only. -/
theorem unread_trimNewlines (stream : List Content) :
    (trimNewlines stream).filter (fun content => !content.isText) =
      stream.filter fun content => !content.isText := by
  obtain ⟨rest, split, trimmed⟩ := exists_trimNewlines stream
  rw [trimmed]
  nth_rewrite 2 [split]
  simp

theorem trimNewlines_sublist (stream : List Content) : (trimNewlines stream).Sublist stream := by
  obtain ⟨rest, split, trimmed⟩ := exists_trimNewlines stream
  rw [trimmed]
  nth_rewrite 2 [split]
  exact filter_sublist.append_right rest

/-- Back to where looking back stops, glue leaves no newlines. -/
theorem isNewline_of_mem_trimNewlines (unstopped : ∀ content ∈ run, isRun content)
    (member : content ∈ trimNewlines run) : content.isNewline = false := by
  have whole : run.takeWhile isRun = run := takeWhile_eq_self_iff.mpr unstopped
  have behind : lineEnd run ++ run.rtakeWhile (fun content => !content.isNewline) = run := by
    rw [lineEnd, whole]
    exact rdropWhile_append_rtakeWhile
  obtain ⟨rest, split, trimmed⟩ := exists_trimNewlines run
  obtain rfl := append_cancel_left (split.symm.trans behind.symm)
  rw [trimmed] at member
  rcases mem_append.mp member with unread | rest
  · have other := (mem_filter.mp unread).2
    exact isNewline_eq_false_of_isText (by simpa using other)
  · simpa using mem_rtakeWhile_imp rest

/-- Glue is taken away back to a command. -/
theorem removeGlue_append (stop : content.isCommand) :
    removeGlue (later ++ content :: earlier) = removeGlue later ++ content :: earlier := by
  induction later with
  | nil => rw [nil_append, removeGlue_cons, if_pos stop]; rfl
  | cons first later ih =>
    rw [cons_append, removeGlue_cons, removeGlue_cons, ih]
    split
    · rfl
    · split <;> rfl

/-- No glue is left behind the last command. -/
theorem removeGlue_append_of_quiet (quiet : ∀ content ∈ later, content.isCommand = false) :
    removeGlue (later ++ earlier) =
      later.filter (fun content => !content.isGlue) ++ removeGlue earlier := by
  induction later with
  | nil => rfl
  | cons first later ih =>
    have others := ih fun content member => quiet content (mem_cons_of_mem _ member)
    rw [cons_append, removeGlue_cons, if_neg (by simp [quiet first mem_cons_self]),
      others]
    cases glue : first.isGlue <;> simp [glue]

theorem isGlue_of_mem_removeGlue
    (member : content ∈ (removeGlue stream).takeWhile fun content => !content.isCommand) :
    content.isGlue = false := by
  induction stream with
  | nil => cases member
  | cons first rest ih =>
    rw [removeGlue_cons] at member
    split at member
    · next isCommand => simp [isCommand] at member
    · next quiet =>
      split at member
      · exact ih member
      · next other =>
        rw [takeWhile_cons_of_pos (by simpa using quiet)] at member
        rcases mem_cons.mp member with rfl | later
        · simpa using other
        · exact ih later

/-! ### Glue between two texts -/

/-- A blank text is taken away or added. A newline is not added behind glue. -/
theorem pushText_blank (output : Output) (stack : CallStack) (unseen : content.isVisible = false) :
    output.pushText stack content = (output, stack) ∨
      output.pushText stack content = (ofStream (content :: output.stream), stack) ∧
        (lookBack output.stream = .glue → content.isNewline = false) := by
  rw [pushText_eq, unseen]
  split
  · split
    · exact .inl rfl
    · next other => exact .inr ⟨rfl, fun _ => by simpa using other⟩
  · next away =>
    split
    · exact .inl rfl
    · refine .inr ⟨rfl, fun glue => absurd ?_ away⟩
      simp [glue]

theorem pushOne_text (text : content.isText) :
    output.pushOne stack content = output.pushText stack content := by
  rw [pushOne, if_neg (by simp [isGlue_of_text text]), if_pos text]

theorem pushOne_glue :
    output.pushOne stack .glue = (ofStream (.glue :: trimNewlines output.stream), stack) := rfl

/-- Nothing stands behind a stream at which looking back for newlines stops, and, if there is glue, no
newline. -/
def Gathers (before : List Content) (glued : Prop) (stream : List Content) : Prop :=
  ∃ run, stream = run ++ before ∧ (∀ content ∈ run, isRun content = true) ∧
    (glued → .glue ∈ run ∧ ∀ content ∈ run, content.isNewline = false)

theorem lookBack_of_mem (unstopped : ∀ content ∈ run, isRun content) (glue : .glue ∈ run)
    (before : List Content) : lookBack (run ++ before) = .glue := by
  obtain ⟨later, earlier, rfl⟩ := append_of_mem glue
  refine lookBack_eq_glue_iff.mpr ⟨later, earlier ++ before, by simp, fun begun => ?_⟩
  have stopped := unstopped _ (mem_append_left _ begun)
  contradiction

namespace Gathers

variable {first : Content} {before : List Content} {glued : Prop}

/-- Glue takes away all newlines behind a visible text, and those to come. -/
theorem pushOne (gathers : Gathers (first :: before) glued output.stream) (stack : CallStack)
    (shown : first.isVisible) (piece : content = .glue ∨ content.isBlank) :
    Gathers (first :: before) (glued ∨ content = .glue)
      (output.pushOne stack content).1.stream := by
  obtain ⟨run, stream, unstopped, clear⟩ := gathers
  rcases piece with rfl | blank
  · have stop : isRun first = false := by simp [isRun, shown]
    refine ⟨.glue :: trimNewlines run, ?_, ?_, fun _ => ⟨mem_cons_self, ?_⟩⟩
    · rw [pushOne_glue, stream, trimNewlines_append stop]
      rfl
    · rintro content (_ | ⟨_, member⟩)
      · rfl
      · exact unstopped content ((trimNewlines_sublist run).subset member)
    · rintro content (_ | ⟨_, member⟩)
      · rfl
      · exact isNewline_of_mem_trimNewlines unstopped member
  · have text := isText_of_blank blank
    have unseen := isVisible_of_blank blank
    have other : content ≠ .glue := by
      rintro rfl
      contradiction
    rw [pushOne_text text]
    rcases pushText_blank output stack unseen with same | ⟨added, behindGlue⟩
    · rw [same]
      exact ⟨run, stream, unstopped, fun holds => clear (holds.resolve_right other)⟩
    · refine ⟨content :: run, ?_, ?_, fun holds => ?_⟩
      · rw [added, stream]
        rfl
      · rintro found (_ | ⟨_, member⟩)
        · exact isRun_iff.mpr ⟨isCommand_of_text text, unseen⟩
        · exact unstopped found member
      · obtain ⟨glue, none⟩ := clear (holds.resolve_right other)
        refine ⟨mem_cons_of_mem _ glue, ?_⟩
        rintro found (_ | ⟨_, member⟩)
        · exact behindGlue (stream ▸ lookBack_of_mem unstopped glue _)
        · exact none found member

theorem addParts (gathers : Gathers (first :: before) glued output.stream) (stack : CallStack)
    (shown : first.isVisible) {contents : List Content}
    (pieces : ∀ content ∈ contents, content = .glue ∨ content.isBlank) :
    Gathers (first :: before) (glued ∨ .glue ∈ contents)
      (addParts contents (output, stack)).1.stream := by
  induction contents generalizing output stack glued with
  | nil => simpa [addParts] using gathers
  | cons content rest ih =>
    have next := gathers.pushOne stack shown (pieces content mem_cons_self)
    have all := ih next (output.pushOne stack content).2 fun other member =>
      pieces other (mem_cons_of_mem _ member)
    rw [or_assoc, eq_comm, ← mem_cons] at all
    exact all

end Gathers

/-- **Glue joins.** Behind a visible text come newlines, spaces, tabs and glue in any order, and then
another visible text. No newline stands between the two, and no glue behind the last command. -/
theorem glue_joins (output : Output) (stack : CallStack) {first : Content} {second : String}
    {unseen before contents : List Content} (stream : output.stream = unseen ++ first :: before)
    (shown : first.isVisible = true)
    (last : ∀ content ∈ unseen, content.isText = false ∧ content.isCommand = false ∧
      content.isGlue = false)
    (white : ∀ content ∈ contents, content = .glue ∨ content.isWhite = true)
    (glued : .glue ∈ contents) (solid : Text.Solid second.toList) :
    let joined := (pushAll (contents ++ [.ofText second]) (output, stack)).1.stream
    (∃ between, joined = .ofText second :: (between ++ first :: removeGlue before) ∧
      ∀ content ∈ between, content.isNewline = false) ∧
    ∀ content ∈ joined.takeWhile fun content => !content.isCommand, content.isGlue = false := by
  have start : Gathers (first :: before) False output.stream := by
    refine ⟨unseen, stream, fun content member => ?_, False.elim⟩
    obtain ⟨other, quiet, -⟩ := last content member
    exact isRun_iff.mpr ⟨quiet, isVisible_eq_false_of_isText other⟩
  have pieces : ∀ part ∈ contents.flatMap parts, part = .glue ∨ part.isBlank = true := by
    intro part member
    obtain ⟨content, there, within⟩ := List.mem_flatMap.mp member
    rcases white content there with rfl | all
    · exact .inl (List.mem_singleton.mp within)
    · exact .inr (isBlank_of_mem_parts all within)
  have among : .glue ∈ contents.flatMap parts :=
    List.mem_flatMap.mpr ⟨.glue, glued, List.mem_singleton.mpr rfl⟩
  obtain ⟨run, behind, unstopped, clear⟩ := start.addParts stack shown pieces
  rw [← pushAll_eq] at behind
  have joins : (pushAll (contents ++ [.ofText second]) (output, stack)).1.stream =
      .ofText second :: removeGlue (run ++ first :: before) := by
    rw [pushAll_concat, push_of_solid solid, pushText_visible (isVisible_of_solid solid), behind]
    rfl
  intro joined
  have quiet : ∀ content ∈ run, content.isCommand = false := fun content member =>
    (isRun_iff.mp (unstopped content member)).1
  refine ⟨⟨run.filter fun content => !content.isGlue, ?_, ?_⟩, ?_⟩
  · have text := isText_of_visible shown
    simp only [joined, joins]
    rw [removeGlue_append_of_quiet quiet, removeGlue_cons, isCommand_of_text text,
      isGlue_of_text text]
    rfl
  · intro content member
    exact (clear (.inr among)).2 content (List.mem_filter.mp member).1
  · intro content member
    simp only [joined, joins] at member
    rcases List.mem_cons.mp member with rfl | behind
    · rfl
    · exact isGlue_of_mem_removeGlue behind

/-- Newlines come before, between and behind glue, and a tag stands behind the first text. -/
theorem greeting_joined :
    (Content.ofText "Hello").isVisible = true ∧ Text.Solid " world".toList ∧
      ∃ between,
        (pushAll [.ofText "\n", .glue, .ofText " \n", .glue, .ofText "\t", .ofText "\n",
            .ofText " world"] (ofStream [.tag "loud", .ofText "Hello"], default)).1.stream =
          .ofText " world" :: (between ++ [.ofText "Hello"]) ∧
        ∀ content ∈ between, content.isNewline = false := by
  have solid : Text.Solid " world".toList :=
    ⟨⟨'w', by decide, by decide⟩, by decide, by decide⟩
  have white : ∀ content ∈ [Content.ofText "\n", .glue, .ofText " \n", .glue, .ofText "\t",
      .ofText "\n"], content = .glue ∨ content.isWhite = true := by decide
  have joins := glue_joins (ofStream [.tag "loud", .ofText "Hello"]) default rfl
    (show (Content.ofText "Hello").isVisible = true by decide)
    (List.forall_mem_singleton.mpr ⟨rfl, rfl, rfl⟩) white (by decide) solid
  exact ⟨by decide, solid, joins.1⟩

end Output

end InkStory
