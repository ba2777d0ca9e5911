import InkStory.Proofs.Changes
import InkStory.Proofs.Pushes

/-! # The value of a string

Of the output before a string, what is written within sees only whether there is any text
(`Output.addParts_within`): a newline is taken away where there is none yet. So the value of a string
depends on earlier output where it begins with a newline that stays, and only there
(`Run.string_values_agree_iff`). -/

namespace InkStory

open List Option Content

variable {content : Content} {before contents : List Content}

namespace Content

/-- A text without characters. -/
def isEmptyText (content : Content) : Bool := content.text? == some ""

/-- Glue or a text. -/
def isPiece (content : Content) : Bool := content.isGlue || content.isText

theorem isInlineBlank_of_emptyText (empty : content.isEmptyText) : content.isInlineBlank := by
  rw [isEmptyText, beq_iff_eq] at empty
  simp [isInlineBlank, empty]

theorem isNewline_of_inline (inline : content.isInlineBlank) : content.isNewline = false := by
  rw [Bool.eq_false_iff]
  intro newline
  rw [isNewline, beq_iff_eq] at newline
  rw [isInlineBlank, newline] at inline
  contradiction

theorem isCommand_of_piece (piece : content.isPiece) : content.isCommand = false := by
  cases content <;> trivial

theorem eq_newline_of_isNewline (newline : content.isNewline) : content = .ofText "\n" := by
  cases content with
  | value value =>
    cases value with
    | string text =>
      rw [isNewline, text?, beq_iff_eq, some.injEq] at newline
      rw [newline]
      rfl
    | _ => contradiction
  | _ => contradiction

/-- A part is glue, a newline, spaces and tabs, or to be seen. -/
theorem piece_cases (piece : content.isPiece) :
    content = .glue ∨ content = .ofText "\n" ∨ content.isInlineBlank ∨ content.isVisible := by
  rcases Bool.or_eq_true_iff.mp piece with glue | text
  · exact .inl (isGlue_iff.mp glue)
  · cases visible : content.isVisible with
    | true => exact .inr (.inr (.inr rfl))
    | false =>
      have blank : content.isBlank := by simp [isBlank, text, visible]
      rcases isBlank_iff.mp blank with newline | inline
      · exact .inr (.inl (eq_newline_of_isNewline newline))
      · exact .inr (.inr (.inl inline))

end Content

namespace Output

open Content

variable {output : Output} {stack : CallStack} {inner later earlier : List Content} {texted : Bool}

/-! ### Objects within a string -/

/-- What a part makes of the objects within a string. Of the output before the string, only whether
there is text in it counts. -/
def grow (texted : Bool) (inner : List Content) (content : Content) : List Content :=
  if content.isGlue then content :: trimNewlines inner
  else if inner.contains .glue then
    if content.isNewline then inner
    else if content.isVisible then content :: inner.filter fun content => !content.isGlue
    else content :: inner
  else if content.isNewline &&
      ((ofStream inner).endsInNewline || !(texted || inner.any Content.isText)) then inner
  else content :: inner

/-- Looking back within a string finds glue where there is some. -/
theorem lookBack_within (pieces : ∀ content ∈ inner, content.isPiece) :
    (lookBack (inner ++ .command .beginString :: before) == .glue) = inner.contains .glue := by
  rw [Bool.eq_iff_iff, contains_iff_mem]
  induction inner with
  | nil => simp [lookBack, isGlue]
  | cons content rest ih =>
    have others := ih fun content member => pieces content (mem_cons_of_mem _ member)
    rw [cons_append]
    cases glue : content.isGlue with
    | true =>
      rw [isGlue_iff.mp glue]
      exact iff_of_true rfl mem_cons_self
    | false =>
      have quiet := isCommand_of_piece (pieces content mem_cons_self)
      rw [lookBack_cons_of_quiet quiet glue, others]
      have different : Content.glue ≠ content := by
        rintro rfl
        contradiction
      simp [different]

/-- The end of a line is looked for no further back than newlines to take away. -/
theorem endsInNewline_append (stop : isRun content = false) :
    (ofStream (later ++ content :: earlier)).endsInNewline = (ofStream later).endsInNewline := by
  induction later with
  | nil =>
    rw [nil_append, endsInNewline_cons, stop]
    rfl
  | cons first later ih => rw [cons_append, endsInNewline_cons, endsInNewline_cons, ih]

theorem removeGlue_within (pieces : ∀ content ∈ inner, content.isPiece) :
    removeGlue (inner ++ .command .beginString :: before) =
      inner.filter (fun content => !content.isGlue) ++ .command .beginString :: before := by
  rw [removeGlue_append_of_quiet fun content member => isCommand_of_piece (pieces content member)]
  rfl

/-- A part is added within the string. -/
theorem pushOne_within (untrimmed : functionStart? stack = none)
    (pieces : ∀ content ∈ inner, content.isPiece) (piece : content.isPiece)
    (stream : output.stream = inner ++ .command .beginString :: before) :
    (output.pushOne stack content).1.stream =
        grow (before.any isText) inner content ++ .command .beginString :: before ∧
      (output.pushOne stack content).2 = stack := by
  unfold pushOne grow
  split
  · rw [stream, trimNewlines_append rfl]
    exact ⟨rfl, rfl⟩
  · next other =>
    have text : content.isText := by simpa [isPiece, other] using piece
    have ends : output.endsInNewline = (ofStream inner).endsInNewline := by
      have found := @endsInNewline_append (.command .beginString) inner before rfl
      rw [← found, ← stream]
      rfl
    have has : output.hasText = (before.any isText || inner.any isText) := by
      rw [hasText, stream, any_append, Bool.or_comm]
      rfl
    rw [if_pos text, pushText_eq, trimStart?_eq_none _ untrimmed, isSome_none,
      Bool.or_false, stream, lookBack_within pieces, ends, has, removeGlue_within pieces]
    have unstopped : stopped (inner ++ .command .beginString :: before) stack = stack := by
      rw [stopped, trimStart?_eq_none _ untrimmed]
      rfl
    rw [unstopped]
    split
    · split
      · exact ⟨stream, rfl⟩
      · split <;> exact ⟨rfl, rfl⟩
    · split
      · exact ⟨stream, rfl⟩
      · exact ⟨rfl, rfl⟩

theorem isPiece_of_mem_grow (pieces : ∀ content ∈ inner, content.isPiece)
    (piece : content.isPiece) {found : Content} (member : found ∈ grow texted inner content) :
    found.isPiece := by
  have added {rest : List Content} (kept : rest.Sublist inner) (member : found ∈ content :: rest) :
      found.isPiece := by
    rcases mem_cons.mp member with rfl | behind
    · exact piece
    · exact pieces found (kept.subset behind)
  unfold grow at member
  split at member
  · exact added (trimNewlines_sublist inner) member
  · split at member
    · split at member
      · exact pieces found member
      · split at member
        · exact added filter_sublist member
        · exact added (.refl inner) member
    · split at member
      · exact pieces found member
      · exact added (.refl inner) member

/-- Parts are added within the string. -/
theorem addParts_within (untrimmed : functionStart? stack = none)
    (pieces : ∀ content ∈ inner, content.isPiece) (more : ∀ content ∈ contents, content.isPiece)
    (stream : output.stream = inner ++ .command .beginString :: before) :
    (addParts contents (output, stack)).1.stream =
        contents.foldl (grow (before.any isText)) inner ++ .command .beginString :: before ∧
      ∀ content ∈ contents.foldl (grow (before.any isText)) inner, content.isPiece := by
  induction contents generalizing output inner with
  | nil => exact ⟨stream, pieces⟩
  | cons content rest ih =>
    obtain ⟨piece, more⟩ := forall_mem_cons.mp more
    obtain ⟨added, same⟩ := pushOne_within untrimmed pieces piece stream
    have others := ih (fun found => isPiece_of_mem_grow pieces piece) more added
    rw [addParts, foldl_cons]
    rwa [← Prod.mk.eta (p := output.pushOne stack content), same]

theorem isPiece_of_mem_flatMap (pieces : ∀ content ∈ contents, content.isPiece) {part : Content}
    (member : part ∈ contents.flatMap parts) : part.isPiece := by
  obtain ⟨content, there, within⟩ := mem_flatMap.mp member
  rcases Bool.or_eq_true_iff.mp (pieces content there) with glue | text
  · rw [isGlue_iff.mp glue] at within
    rw [mem_singleton.mp within]
    rfl
  · rw [isPiece, isText_of_mem_parts text within, Bool.or_true]

theorem takeWhile_within (pieces : ∀ content ∈ inner, content.isPiece) :
    (inner ++ .command .beginString :: before).takeWhile
      (fun content => decide (content ≠ .command .beginString)) = inner := by
  rw [takeWhile_append_of_pos, takeWhile_cons_of_neg (by simp), append_nil]
  intro content member
  rw [decide_eq_true_iff]
  rintro rfl
  have piece := pieces _ member
  contradiction

/-- A string takes the value of the texts within it. -/
theorem endString_within (pieces : ∀ content ∈ inner, content.isPiece)
    (stream : output.stream = inner ++ .command .beginString :: before) :
    output.endString.1 = textsOf inner := by
  change textsOf output.splitString.1 = textsOf inner
  rw [splitString, stream, takeWhile_within pieces]

/-! ### What each kind of part does -/

theorem grow_glue : grow texted inner .glue = .glue :: trimNewlines inner := rfl

theorem grow_inline (inline : content.isInlineBlank) :
    grow texted inner content = content :: inner := by
  have blank := isBlank_iff.mpr (.inr inline)
  rw [grow, isGlue_of_text (isText_of_blank blank), isNewline_of_inline inline,
    isVisible_of_blank blank]
  simp

theorem filter_of_clear (clear : ∀ found ∈ inner, found.isGlue = false) :
    inner.filter (fun content => !content.isGlue) = inner :=
  filter_eq_self.mpr fun found member => by simp [clear found member]

/-- A visible text takes away the glue within the string. -/
theorem grow_visible (visible : content.isVisible) :
    grow texted inner content = content :: inner.filter fun content => !content.isGlue := by
  rw [grow, isGlue_of_text (isText_of_visible visible), isNewline_of_visible visible, visible]
  by_cases glue : .glue ∈ inner
  · simp [glue]
  · have clear : ∀ found ∈ inner, found.isGlue = false := by
      intro found member
      rw [Bool.eq_false_iff]
      intro isGlue
      exact glue (isGlue_iff.mp isGlue ▸ member)
    simp [filter_of_clear clear]

theorem grow_newline_of_glue (glue : .glue ∈ inner) : grow texted inner (.ofText "\n") = inner := by
  rw [grow, if_neg (by decide), if_pos (by simpa using glue), if_pos (by decide)]

theorem grow_newline (unglued : .glue ∉ inner) :
    grow texted inner (.ofText "\n") =
      if (ofStream inner).endsInNewline || !(texted || inner.any isText) then inner
      else .ofText "\n" :: inner := by
  rw [grow, if_neg (by decide), if_neg (by simpa using unglued)]
  rfl

/-! ### Where earlier text makes no difference -/

/-- There is text or glue within the string: whether there is text before it makes no difference. -/
def Settled (inner : List Content) : Prop := inner.any isText = true ∨ .glue ∈ inner

theorem Settled.grow_eq (settled : Settled inner) (texted : Bool) (content : Content) :
    grow texted inner content = grow true inner content := by
  unfold grow
  split
  · rfl
  · split
    · rfl
    · next unglued =>
      have text := settled.resolve_right (by simpa using unglued)
      simp [text]

theorem settled_grow (piece : content.isPiece) (settled : content.isNewline → Settled inner) :
    Settled (grow texted inner content) := by
  have added {rest : List Content} (text : content.isText) : Settled (content :: rest) :=
    .inl (by simp [text])
  rcases piece_cases piece with rfl | rfl | inline | visible
  · exact .inr mem_cons_self
  · by_cases glue : .glue ∈ inner
    · rw [grow_newline_of_glue glue]
      exact settled rfl
    · rw [grow_newline glue]
      split
      · exact settled rfl
      · exact added rfl
  · rw [grow_inline inline]
    exact added (isText_of_blank (isBlank_iff.mpr (.inr inline)))
  · rw [grow_visible visible]
    exact added (isText_of_visible visible)

theorem Settled.foldl_eq (settled : Settled inner) (pieces : ∀ content ∈ contents, content.isPiece) :
    contents.foldl (Output.grow false) inner = contents.foldl (Output.grow true) inner := by
  induction contents generalizing inner with
  | nil => rfl
  | cons content rest ih =>
    obtain ⟨piece, more⟩ := forall_mem_cons.mp pieces
    rw [foldl_cons, settled.grow_eq]
    exact ih (settled_grow piece fun _ => settled) more

/-! ### Texts -/

theorem textsOf_append (later earlier : List Content) :
    textsOf (later ++ earlier) = textsOf earlier ++ textsOf later := by
  simp [textsOf]

theorem textsOf_cons (content : Content) (rest : List Content) :
    textsOf (content :: rest) = textsOf rest ++ content.text?.getD "" := by
  cases found : content.text? <;> simp [textsOf, found]

/-! ### Where earlier text makes a difference -/

variable {other : List Content}

theorem trimNewlines_of_clear (clear : ∀ content ∈ inner, content.isNewline = false) :
    trimNewlines inner = inner := by
  have none : lineEnd inner = [] := by
    refine rdropWhile_eq_nil_iff.mpr fun content member => ?_
    simp [clear content (takeWhile_subset _ member)]
  obtain ⟨rest, split, trimmed⟩ := exists_trimNewlines inner
  rw [none] at split trimmed
  rw [trimmed]
  exact split.symm

/-- Nothing to come reaches back behind these objects: a visible text is among them, or glue that has
taken away all newlines. -/
def Shields (later earlier : List Content) : Prop :=
  (∃ found ∈ later, found.isVisible = true) ∨
    .glue ∈ later ∧ ∀ found ∈ later ++ earlier, found.isNewline = false

section

variable (shields : Shields later earlier)

include shields

theorem Shields.settled : Settled later :=
  shields.imp (fun ⟨found, member, visible⟩ =>
    any_eq_true.mpr ⟨found, member, isText_of_visible visible⟩) And.left

theorem Shields.cons (other : content.isNewline = false) : Shields (content :: later) earlier :=
  shields.imp (fun ⟨found, member, visible⟩ => ⟨found, mem_cons_of_mem _ member, visible⟩)
    fun ⟨glued, clear⟩ => ⟨mem_cons_of_mem _ glued, forall_mem_cons.mpr ⟨other, clear⟩⟩

theorem Shields.grow_glue (texted : Bool) :
    grow texted (later ++ earlier) .glue = grow texted later .glue ++ earlier ∧
      Shields (grow texted later .glue) earlier := by
  rcases shields with ⟨found, member, visible⟩ | ⟨glue, clear⟩
  · obtain ⟨behind, ahead, rfl⟩ := append_of_mem member
    have stop : isRun found = false := by simp [isRun, visible]
    rw [Output.grow_glue, Output.grow_glue, append_assoc, cons_append,
      trimNewlines_append stop, trimNewlines_append stop]
    exact ⟨by simp, .inl ⟨found, by simp, visible⟩⟩
  · have kept : trimNewlines later = later :=
      trimNewlines_of_clear fun found member => clear found (mem_append_left _ member)
    rw [Output.grow_glue, Output.grow_glue, trimNewlines_of_clear clear, kept]
    exact ⟨rfl, Shields.cons (.inr ⟨glue, clear⟩) rfl⟩

theorem Shields.grow_newline (texted : Bool) (clear : ∀ found ∈ earlier, found.isGlue = false) :
    grow texted (later ++ earlier) (.ofText "\n") = grow texted later (.ofText "\n") ++ earlier ∧
      Shields (grow texted later (.ofText "\n")) earlier := by
  by_cases glue : .glue ∈ later
  · rw [grow_newline_of_glue glue, grow_newline_of_glue (mem_append_left _ glue)]
    exact ⟨rfl, shields⟩
  · obtain ⟨found, member, visible⟩ := shields.resolve_right fun glued => glue glued.1
    have unglued : .glue ∉ later ++ earlier := by
      rw [mem_append, not_or]
      exact ⟨glue, fun member => by simpa [isGlue] using clear _ member⟩
    obtain ⟨behind, ahead, rfl⟩ := append_of_mem member
    have stop : isRun found = false := by simp [isRun, visible]
    have text := isText_of_visible visible
    rw [grow_newline glue, grow_newline unglued, append_assoc, cons_append,
      endsInNewline_append stop, endsInNewline_append stop]
    simp only [any_append, any_cons, text, Bool.true_or]
    split
    · exact ⟨by simp, shields⟩
    · exact ⟨by simp, .inl ⟨found, by simp, visible⟩⟩

theorem Shields.grow (texted : Bool) (clear : ∀ found ∈ earlier, found.isGlue = false)
    (piece : content.isPiece) :
    grow texted (later ++ earlier) content = grow texted later content ++ earlier ∧
      Shields (grow texted later content) earlier := by
  rcases piece_cases piece with rfl | rfl | inline | seen
  · exact shields.grow_glue texted
  · exact shields.grow_newline texted clear
  · rw [grow_inline inline, grow_inline inline]
    exact ⟨rfl, shields.cons (isNewline_of_inline inline)⟩
  · rw [grow_visible seen, grow_visible seen, filter_append, filter_of_clear clear]
    exact ⟨rfl, .inl ⟨content, mem_cons_self, seen⟩⟩

/-- Behind such objects, texts stay different or equal. -/
theorem Shields.textsOf_foldl (otherShields : Shields later other)
    (clear : ∀ content ∈ earlier, content.isGlue = false)
    (otherClear : ∀ content ∈ other, content.isGlue = false)
    (pieces : ∀ content ∈ contents, content.isPiece) :
    textsOf (contents.foldl (Output.grow true) (later ++ earlier)) =
        textsOf (contents.foldl (Output.grow false) (later ++ other)) ↔
      textsOf earlier = textsOf other := by
  induction contents generalizing later with
  | nil => rw [foldl_nil, foldl_nil, textsOf_append, textsOf_append, String.append_left_inj]
  | cons content rest ih =>
    obtain ⟨piece, more⟩ := forall_mem_cons.mp pieces
    obtain ⟨left, next⟩ := shields.grow true clear piece
    obtain ⟨right, otherNext⟩ := otherShields.grow false otherClear piece
    rw [shields.settled.grow_eq] at right otherNext
    rw [foldl_cons, foldl_cons, left, right]
    exact ih next otherNext more

end

theorem isGlue_of_blank (blank : content.isBlank) : content.isGlue = false :=
  isGlue_of_text (isText_of_blank blank)

theorem isBlank_of_inline (inline : content.isInlineBlank) : content.isBlank :=
  isBlank_iff.mpr (.inr inline)

theorem isRun_of_blank (blank : content.isBlank) : isRun content :=
  isRun_iff.mpr ⟨isCommand_of_text (isText_of_blank blank), isVisible_of_blank blank⟩

theorem isBlank_around (highs : ∀ found ∈ later, found.isInlineBlank)
    (lows : ∀ found ∈ earlier, found.isInlineBlank) :
    ∀ found ∈ later ++ .ofText "\n" :: earlier, found.isBlank :=
  forall_mem_append.mpr ⟨fun found member => isBlank_of_inline (highs found member),
    forall_mem_cons.mpr ⟨rfl, fun found member => isBlank_of_inline (lows found member)⟩⟩

theorem glue_not_mem (blanks : ∀ found ∈ inner, found.isBlank) : .glue ∉ inner :=
  fun member => nomatch blanks _ member

section

variable {rest : List Content} (blanks : ∀ found ∈ inner, found.isBlank)
  (otherBlanks : ∀ found ∈ other, found.isBlank) (more : ∀ content ∈ rest, content.isPiece)

include blanks otherBlanks more

/-- A visible text leaves blanks as they are. -/
theorem textsOf_behind_visible (visible : content.isVisible) :
    textsOf (rest.foldl (grow true) (grow true inner content)) =
        textsOf (rest.foldl (grow false) (grow false other content)) ↔
      textsOf inner = textsOf other := by
  have clear {inner : List Content} (blanks : ∀ found ∈ inner, found.isBlank) :
      ∀ found ∈ inner, found.isGlue = false :=
    fun found member => isGlue_of_blank (blanks found member)
  have shields (inner : List Content) : Shields [content] inner :=
    .inl ⟨content, mem_cons_self, visible⟩
  rw [grow_visible visible, grow_visible visible, filter_of_clear (clear blanks),
    filter_of_clear (clear otherBlanks)]
  exact (shields inner).textsOf_foldl (shields other) (clear blanks) (clear otherBlanks) more

/-- Glue takes away newlines. -/
theorem textsOf_behind_glue :
    textsOf (rest.foldl (grow true) (grow true inner .glue)) =
        textsOf (rest.foldl (grow false) (grow false other .glue)) ↔
      textsOf (trimNewlines inner) = textsOf (trimNewlines other) := by
  have kept {inner : List Content} (blanks : ∀ found ∈ inner, found.isBlank) :
      Shields [.glue] (trimNewlines inner) ∧ ∀ found ∈ trimNewlines inner, found.isGlue = false :=
    ⟨.inr ⟨mem_cons_self, forall_mem_cons.mpr ⟨rfl, fun found =>
      isNewline_of_mem_trimNewlines fun found member => isRun_of_blank (blanks found member)⟩⟩,
      fun found member =>
        isGlue_of_blank (blanks found ((trimNewlines_sublist inner).subset member))⟩
  exact (kept blanks).1.textsOf_foldl (kept otherBlanks).1 (kept blanks).2 (kept otherBlanks).2 more

end

/-! ### Blanks at the beginning -/

theorem endsInNewline_of_clear (clear : ∀ found ∈ inner, found.isNewline = false) :
    (ofStream inner).endsInNewline = false := by
  induction inner with
  | nil => rfl
  | cons content rest ih =>
    obtain ⟨first, others⟩ := forall_mem_cons.mp clear
    rw [endsInNewline_cons, ih others, first, Bool.or_false, Bool.and_false]

theorem endsInNewline_behind (blanks : ∀ found ∈ inner, found.isInlineBlank)
    (earlier : List Content) : (ofStream (inner ++ .ofText "\n" :: earlier)).endsInNewline := by
  induction inner with
  | nil => rfl
  | cons content rest ih =>
    obtain ⟨first, others⟩ := forall_mem_cons.mp blanks
    rw [cons_append, endsInNewline_cons, ih others, isRun_of_blank (isBlank_of_inline first),
      Bool.or_true]
    rfl

/-- Glue takes away the blanks from the first newline on. -/
theorem trimNewlines_behind (blanks : ∀ found ∈ inner, found.isInlineBlank)
    (low : ∀ found ∈ earlier, found.isInlineBlank) :
    trimNewlines (inner ++ .ofText "\n" :: earlier) = earlier := by
  have all : ∀ found ∈ inner ++ .ofText "\n" :: earlier, isRun found := by
    rw [forall_mem_append, forall_mem_cons]
    exact ⟨fun found member => isRun_of_blank (isBlank_of_inline (blanks found member)), rfl,
      fun found member => isRun_of_blank (isBlank_of_inline (low found member))⟩
  have whole : lineEnd (inner ++ .ofText "\n" :: earlier) = inner ++ [.ofText "\n"] := by
    rw [lineEnd, takeWhile_eq_self_iff.mpr all, append_cons, rdropWhile,
      reverse_append, dropWhile_append_of_pos]
    · simp [isNewline, ofText, text?]
    · intro found member
      simp [isNewline_of_inline (low found (mem_reverse.mp member))]
  obtain ⟨rest, split, trimmed⟩ := exists_trimNewlines (inner ++ .ofText "\n" :: earlier)
  rw [whole, append_cons] at split
  obtain rfl := append_cancel_left split
  rw [trimmed, whole, filter_append, filter_eq_nil_iff.mpr]
  · rfl
  · intro found member
    simp [isText_of_blank (isBlank_of_inline (blanks found member))]

theorem isInlineBlank_of_mem_textsOf (inlines : ∀ found ∈ inner, found.isInlineBlank) {c : Char}
    (member : c ∈ (textsOf inner).toList) : Text.isInlineBlank c := by
  induction inner with
  | nil => cases member
  | cons content rest ih =>
    obtain ⟨first, others⟩ := forall_mem_cons.mp inlines
    rw [textsOf_cons, String.toList_append] at member
    rcases mem_append.mp member with behind | here
    · exact ih others behind
    · unfold isInlineBlank at first
      cases found : content.text? with
      | none => simp [found] at first
      | some text =>
        rw [found] at first here
        exact all_eq_true.mp first c here

/-- A newline at the beginning of a text and behind other blanks makes two texts. -/
theorem newline_first_iff {front behind : String}
    (inline : ∀ c ∈ front.toList, Text.isInlineBlank c) :
    "\n" ++ front ++ behind = front ++ "\n" ++ behind ↔ front = "" := by
  rw [String.append_left_inj]
  constructor
  · intro same
    have characters := congrArg String.toList same
    rw [String.toList_append, String.toList_append] at characters
    cases split : front.toList with
    | nil => exact String.toList_eq_nil_iff.mp split
    | cons first rest =>
      rw [split] at characters
      have blank := inline first (by simp [split])
      rw [← (cons.inj characters).1] at blank
      contradiction
  · rintro rfl
    rfl

/-! ### Strings that begin with a newline -/

/-- The first part is a newline. What follows, more newlines and then texts without characters apart,
is neither glue, which would take it away, nor another newline. -/
def opensWithNewline (contents : List Content) : Bool :=
  contents.head?.any Content.isNewline &&
    !((contents.dropWhile Content.isNewline).dropWhile isEmptyText).head?.any fun content =>
      content.isGlue || content.isNewline

/-- If there is no text before the string, a second newline comes behind other blanks. It shows,
unless those are empty. -/
theorem textsOf_behind_newlines (highs : ∀ found ∈ later, found.isInlineBlank)
    (inlines : ∀ found ∈ inner, found.isInlineBlank)
    (pieces : ∀ content ∈ contents, content.isPiece) :
    textsOf (contents.foldl (grow true) (later ++ inner ++ [.ofText "\n"])) =
        textsOf (contents.foldl (grow false) (later ++ .ofText "\n" :: inner)) ↔
      textsOf inner = "" := by
  have texts (later : List Content) : textsOf (later ++ inner ++ [.ofText "\n"]) =
      textsOf (later ++ .ofText "\n" :: inner) ↔ textsOf inner = "" := by
    rw [textsOf_append, textsOf_append, textsOf_append, textsOf_cons, textsOf_cons]
    exact newline_first_iff fun c => isInlineBlank_of_mem_textsOf inlines
  have none := forall_mem_nil fun found : Content => found.isInlineBlank
  induction contents generalizing later with
  | nil => exact texts later
  | cons content rest ih =>
    obtain ⟨piece, more⟩ := forall_mem_cons.mp pieces
    have all := forall_mem_append.mpr ⟨highs, inlines⟩
    have blanks := isBlank_around all none
    have otherBlanks := isBlank_around highs inlines
    rw [foldl_cons, foldl_cons]
    rcases piece_cases piece with rfl | rfl | inline | visible
    · rw [textsOf_behind_glue blanks otherBlanks more, trimNewlines_behind all none,
        trimNewlines_behind highs inlines]
      exact eq_comm
    · rw [grow_newline (glue_not_mem blanks), grow_newline (glue_not_mem otherBlanks),
        endsInNewline_behind all, endsInNewline_behind highs]
      exact ih highs more
    · rw [grow_inline inline, grow_inline inline]
      exact ih (forall_mem_cons.mpr ⟨inline, highs⟩) more
    · exact (textsOf_behind_visible blanks otherBlanks more visible).trans (texts later)

/-- Behind a newline at the beginning and other blanks, it shows whether there is text before the
string, unless the blanks are empty and the next part is glue or a newline. -/
theorem textsOf_behind_newline (inlines : ∀ found ∈ inner, found.isInlineBlank)
    (next : contents.head?.any isNewline → inner ≠ [])
    (pieces : ∀ content ∈ contents, content.isPiece) :
    textsOf (contents.foldl (grow true) (inner ++ [.ofText "\n"])) =
        textsOf (contents.foldl (grow false) inner) ↔
      textsOf inner = "" ∧ (contents.dropWhile isEmptyText).head?.any
        fun content => content.isGlue || content.isNewline := by
  have none := forall_mem_nil fun found : Content => found.isInlineBlank
  have longer (inner : List Content) : textsOf (inner ++ [.ofText "\n"]) ≠ textsOf inner := by
    intro same
    have length := congrArg String.length same
    simp [textsOf, ofText, text?] at length
  induction contents generalizing inner with
  | nil => exact iff_of_false (longer inner) fun both => Bool.false_ne_true both.2
  | cons content rest ih =>
    obtain ⟨piece, more⟩ := forall_mem_cons.mp pieces
    have concat := isBlank_around inlines none
    have blanks : ∀ found ∈ inner, found.isBlank := fun found member =>
      isBlank_of_inline (inlines found member)
    have clear : ∀ found ∈ inner, found.isNewline = false := fun found member =>
      isNewline_of_inline (inlines found member)
    rw [foldl_cons, foldl_cons]
    rcases piece_cases piece with rfl | rfl | inline | visible
    · rw [textsOf_behind_glue concat blanks more, trimNewlines_behind inlines none,
        trimNewlines_of_clear clear, eq_comm]
      exact (and_iff_left rfl).symm
    · obtain ⟨first, others, rfl⟩ := exists_cons_of_ne_nil (next rfl)
      rw [grow_newline (glue_not_mem concat), grow_newline (glue_not_mem blanks),
        endsInNewline_behind inlines, endsInNewline_of_clear clear, any_cons,
        isText_of_blank (blanks first mem_cons_self)]
      exact (textsOf_behind_newlines none inlines more).trans (and_iff_left rfl).symm
    · rw [grow_inline inline, grow_inline inline]
      refine (ih (forall_mem_cons.mpr ⟨inline, inlines⟩) (fun _ => cons_ne_nil _ _) more).trans ?_
      have unseen := isGlue_of_blank (isBlank_of_inline inline)
      cases found : content.text? with
      | none => simp [isInlineBlank, found] at inline
      | some text =>
        rw [textsOf_cons]
        by_cases empty : text = "" <;>
          simp [isEmptyText, found, empty, unseen, isNewline_of_inline inline]
    · refine iff_of_false (fun same => longer inner ?_) fun both => ?_
      · exact (textsOf_behind_visible concat blanks more visible).mp same
      · have full : content.isEmptyText = false := by
          rw [Bool.eq_false_iff]
          intro empty
          simp [isVisible, isInlineBlank_of_emptyText empty] at visible
        simp [full, isNewline_of_visible visible, isGlue_of_text (isText_of_visible visible)]
          at both

/-- A string becomes the same text whether there is text before it or not, unless it begins with a
newline that stays. -/
theorem textsOf_grown_eq_iff (pieces : ∀ content ∈ contents, content.isPiece) :
    textsOf (contents.foldl (grow true) []) = textsOf (contents.foldl (grow false) []) ↔
      opensWithNewline contents = false := by
  -- behind newlines only, the part that is none decides
  have behind {rest : List Content} (more : ∀ content ∈ rest, content.isPiece) :
      textsOf (rest.foldl (grow true) [.ofText "\n"]) = textsOf (rest.foldl (grow false) []) ↔
        ((rest.dropWhile isNewline).dropWhile isEmptyText).head?.any
          fun content => content.isGlue || content.isNewline := by
    induction rest with
    | nil => exact iff_of_false (by decide) nofun
    | cons content rest ih =>
      cases newline : content.isNewline with
      | true =>
        rw [eq_newline_of_isNewline newline]
        exact ih (forall_mem_cons.mp more).2
      | false =>
        rw [dropWhile_cons_of_neg (by simp [newline])]
        exact (textsOf_behind_newline (forall_mem_nil _) (by simp [newline]) more).trans
          (and_iff_right rfl)
  cases contents with
  | nil => exact iff_of_true rfl rfl
  | cons content rest =>
    obtain ⟨piece, more⟩ := forall_mem_cons.mp pieces
    cases newline : content.isNewline with
    | false =>
      have same : grow false [] content = grow true [] content := by simp [grow, newline]
      have settled : Settled (grow true [] content) :=
        settled_grow piece fun isNewline => by simp [newline] at isNewline
      rw [foldl_cons, foldl_cons, same, settled.foldl_eq more]
      exact iff_of_true rfl (by simp [opensWithNewline, newline])
    | true =>
      rw [opensWithNewline, head?_cons, any_some, newline,
        Bool.true_and, Bool.not_eq_false', eq_newline_of_isNewline newline]
      exact behind more

/-- The value of a string, with or without text before it. -/
def spelled (texted : Bool) (contents : List Content) : String :=
  textsOf ((contents.flatMap parts).foldl (grow texted) [])

theorem spelled_eq_iff (pieces : ∀ content ∈ contents, content.isPiece)
    (texted otherTexted : Bool) :
    spelled texted contents = spelled otherTexted contents ↔
      texted = otherTexted ∨ opensWithNewline (contents.flatMap parts) = false := by
  have differs := textsOf_grown_eq_iff fun part => isPiece_of_mem_flatMap pieces
  cases texted <;> cases otherTexted
  · exact iff_of_true rfl (.inl rfl)
  · rw [eq_comm, or_iff_right Bool.false_ne_true]
    exact differs
  · rw [or_iff_right Bool.false_ne_true.symm]
    exact differs
  · exact iff_of_true rfl (.inl rfl)

end Output

namespace Run

open Output

/-- Write objects within a string and end it. -/
def spell (program : Program) (contents : List Content) : Run Unit := do
  contents.forM emit
  perform program .endString

/-- The state when objects are added to the output. -/
def added (contents : List Content) (state : State) : State :=
  let reached := pushAll contents (state.output, state.callStack)
  { state with output := reached.1, callStack := reached.2 }

theorem forM_emit (contents : List Content) (state : State) :
    contents.forM emit state = .ok () (added contents state) := by
  induction contents generalizing state with
  | nil => rfl
  | cons content rest ih => exact ih (state.emit content)

theorem spell_apply (program : Program) (state : State)
    (begun : state.output.stream = .command .beginString :: before)
    (running : state.callStack.frame.kind ≠ .function)
    (pieces : ∀ content ∈ contents, content.isPiece) :
    ∃ after, spell program contents state = .ok () after ∧
      after.evaluation =
        .ofText (spelled (before.any isText) contents) :: state.evaluation := by
  have parted : ∀ part ∈ contents.flatMap parts, part.isPiece :=
    fun part => isPiece_of_mem_flatMap pieces
  obtain ⟨written, within⟩ := addParts_within (if_neg running) (forall_mem_nil _) parted begun
  rw [← pushAll_eq] at written
  have value : (added contents state).output.endString.1 =
      spelled (before.any isText) contents := endString_within within written
  have run : spell program contents state = perform program .endString (added contents state) := by
    rw [spell, bind_apply, forM_emit]
  refine ⟨_, run.trans rfl, ?_⟩
  rw [← value]
  rfl

/-- The value of a string depends on what stands before it only by whether there is text there, and
on that only if the string opens with a newline that nothing takes away. -/
theorem string_values_agree_iff (program : Program) (state : State) (other : Output)
    {contents before otherBefore : List Content}
    (begun : state.output.stream = .command .beginString :: before)
    (otherBegun : other.stream = .command .beginString :: otherBefore)
    (running : state.callStack.frame.kind ≠ .function)
    (pieces : ∀ content ∈ contents, content.isPiece = true) :
    ∃ text otherText after otherAfter,
      spell program contents state = .ok () after ∧
      after.evaluation = .ofText text :: state.evaluation ∧
      spell program contents { state with output := other } = .ok () otherAfter ∧
      otherAfter.evaluation = .ofText otherText :: state.evaluation ∧
      (text = otherText ↔ before.any isText = otherBefore.any isText ∨
        opensWithNewline (contents.flatMap parts) = false) := by
  obtain ⟨after, ran, value⟩ := spell_apply program state begun running pieces
  obtain ⟨otherAfter, otherRan, otherValue⟩ :=
    spell_apply program { state with output := other } otherBegun running pieces
  exact ⟨_, _, after, otherAfter, ran, value, otherRan, otherValue, spelled_eq_iff pieces _ _⟩

/-- A state in which a string begins behind some output. -/
def beginning (before : List Content) : State :=
  { output := ofStream (.command .beginString :: before) }

/-- Glue takes away the newline that a string opens with, so the value is the same behind text. -/
theorem glued_string_agrees :
    (beginning []).callStack.frame.kind ≠ .function ∧
      ∃ text after otherAfter,
        spell default [.ofText "\n", .glue, .ofText "a"] (beginning []) = .ok () after ∧
        after.evaluation = [.ofText text] ∧
        spell default [.ofText "\n", .glue, .ofText "a"] (beginning [.ofText "Hello "]) =
          .ok () otherAfter ∧
        otherAfter.evaluation = [.ofText text] := by
  have running : (beginning []).callStack.frame.kind ≠ .function := by decide
  have pieces : ∀ content ∈ [.ofText "\n", .glue, .ofText "a"], Content.isPiece content = true := by
    decide +kernel
  obtain ⟨text, otherText, after, otherAfter, ran, value, otherRan, otherValue, agree⟩ :=
    string_values_agree_iff default (beginning []) (beginning [.ofText "Hello "]).output
      rfl rfl running pieces
  have same : text = otherText := agree.mpr (.inr (by decide +kernel))
  exact ⟨running, text, after, otherAfter, ran, value, otherRan, same ▸ otherValue⟩

/-- A string that opens with a newline keeps it behind text and loses it otherwise. -/
theorem opening_newline_depends :
    (leaves (spell default [.ofText "\n", .ofText "a"] (beginning []))).evaluation =
        [.ofText "a"] ∧
      (leaves (spell default [.ofText "\n", .ofText "a"]
        (beginning [.ofText "Hello "]))).evaluation = [.ofText "\na"] := by
  decide +kernel

end Run

end InkStory
