import InkStory.Flow.CallStack
import InkStory.Text.Lines

/-! # The output of a story -/

namespace InkStory

/-- The output since a line began, latest object first, and its text and tags where they are
known already. -/
structure Output where
  stream : List Content := []
  knownText : Option String := none
  knownTags : Option (List String) := none
  deriving DecidableEq, Repr, Inhabited

namespace Output

/-- The output of objects, of which neither text nor tags are known. -/
def ofStream (stream : List Content) : Output := { stream := stream }

def ofList (contents : List Content) : Output := ofStream contents.reverse

def toList (output : Output) : List Content := output.stream.reverse

def length (output : Output) : Nat := output.stream.length

/-- The text of objects outside of tags, from the first on. -/
def plainText (inTag : Bool) : List Content → String
  | [] => ""
  | .command .beginTag :: rest => plainText true rest
  | .command .endTag :: rest => plainText false rest
  | content :: rest =>
    match content.text?, inTag with
    | some text, false => text ++ plainText inTag rest
    | _, _ => plainText inTag rest

def buildText (output : Output) : String := Text.tidy (plainText false output.toList)

/-- A finished tag, unless it is empty. -/
def finishTag (text : String) : List String := if text = "" then [] else [Text.tidy text]

/-- The tags of objects, from the first on: `inTag` behind the beginning of one, of which `text` is
there so far. -/
def plainTags (inTag : Bool) (text : String) : List Content → List String
  | [] => finishTag text
  | .command .beginTag :: rest =>
    if inTag then finishTag text ++ plainTags true "" rest else plainTags true text rest
  | .command .endTag :: rest => finishTag text ++ plainTags false "" rest
  | .tag own :: rest =>
    if !inTag && own != "" then own :: plainTags inTag text rest else plainTags inTag text rest
  | content :: rest =>
    match content.text?, inTag with
    | some more, true => plainTags inTag (text ++ more) rest
    | _, _ => plainTags inTag text rest

def buildTags (output : Output) : List String := plainTags false "" output.toList

def text (output : Output) : String := output.knownText.getD output.buildText

def tags (output : Output) : List String := output.knownTags.getD output.buildTags

def known (output : Output) : Output :=
  { output with knownText := some output.text, knownTags := some output.tags }

/-- Whether the last thing to see is a newline: nothing but blanks and unseen objects behind it. -/
def endsInNewline (output : Output) : Bool :=
  let rest := output.stream.dropWhile fun content =>
    !content.isCommand && !content.isNewline && !content.isVisible
  match rest with
  | content :: _ => content.isNewline
  | [] => false

def hasText (output : Output) : Bool := output.stream.any Content.isText

def inString (output : Output) : Bool := output.stream.contains (.command .beginString)

/-- What a new text finds first when it looks back. -/
inductive Behind where
  | glue
  /-- The beginning of a string, at a position from the first object. -/
  | string (position : Nat)
  | nothing
  deriving DecidableEq, Repr

/-- Look back for glue, up to the beginning of a string. -/
def lookBack : List Content → Behind
  | [] => .nothing
  | content :: rest =>
    if content.isGlue then .glue
    else if content = .command .beginString then .string rest.length
    else lookBack rest

/-- Drop the texts of the last run of blanks from its first newline on. -/
def trimNewlines (stream : List Content) : List Content :=
  let isRun := fun (content : Content) => !content.isCommand && !content.isVisible
  let run := stream.takeWhile isRun
  let cut := (run.reverse.dropWhile fun content => !content.isNewline).reverse
  cut.filter (fun content => !content.isText) ++ stream.drop cut.length

/-- Drop glue behind the last command. -/
def removeGlue (stream : List Content) : List Content :=
  (stream.takeWhile fun content => !content.isCommand).filter (fun content => !content.isGlue) ++
    stream.dropWhile fun content => !content.isCommand

/-- Drop blanks at the end of a function's output, which begins at a position. -/
def trimFunctionEnd (start : Nat) : List Content → List Content
  | [] => []
  | content :: rest =>
    if rest.length < start then content :: rest
    else if !content.isText then content :: trimFunctionEnd start rest
    else if content.isNewline || content.isInlineBlank then trimFunctionEnd start rest
    else content :: rest

/-- Where the running function's output begins, if it is still trimmed from there. -/
def functionStart? (stack : CallStack) : Option Nat :=
  if stack.frame.kind = .function then stack.frame.outputStart else none

/-- Stop trimming for the frames of functions from the top down to the first other frame. -/
def stopTrimming : List Frame → List Frame
  | [] => []
  | frame :: below =>
    if frame.kind = .function then { frame with outputStart := none } :: stopTrimming below
    else frame :: below

/-- Stop trimming for the running functions. -/
def stopFunctionTrimming (stack : CallStack) : CallStack :=
  match stopTrimming stack.current.frames with
  | top :: below => { stack with current := { stack.current with top := top, below := below } }
  | [] => stack

/-- Add a text that is not to be split. Glue and the beginning of a function take away newlines
before the next visible text; elsewhere only the first newline behind some text stays. -/
def pushText (output : Output) (stack : CallStack) (content : Content) : Output × CallStack :=
  let behind := lookBack output.stream
  let functionStart :=
    match behind, functionStart? stack with
    | .string position, some start => if start ≤ position then none else some start
    | _, start => start
  let atGlue := behind == .glue
  if atGlue || functionStart.isSome then
    if content.isNewline then (output, stack)
    else if content.isVisible then
      let stream := if atGlue then removeGlue output.stream else output.stream
      (ofStream (content :: stream),
        if functionStart.isSome then stopFunctionTrimming stack else stack)
    else (ofStream (content :: output.stream), stack)
  else if content.isNewline && (output.endsInNewline || !output.hasText) then (output, stack)
  else (ofStream (content :: output.stream), stack)

/-- Add an object that is not to be split. -/
def pushOne (output : Output) (stack : CallStack) (content : Content) : Output × CallStack :=
  if content.isGlue then (ofStream (content :: trimNewlines output.stream), stack)
  else if content.isText then output.pushText stack content
  else (ofStream (content :: output.stream), stack)

/-- Add an object; the newlines at the ends of a text are added by themselves. -/
def push (output : Output) (stack : CallStack) (content : Content) : Output × CallStack :=
  match content.text?.bind fun text => Text.splitEnds? text.toList with
  | some parts =>
    parts.foldl (fun (output, stack) part =>
      output.pushOne stack (Content.ofText (String.ofList part))) (output, stack)
  | none => output.pushOne stack content

/-- Trim the blanks that the running function leaves behind. -/
def leaveFunction (output : Output) (stack : CallStack) : Output :=
  ofStream (trimFunctionEnd (stack.frame.outputStart.getD 0) output.stream)

def textsOf (contents : List Content) : String :=
  String.join (contents.reverse.filterMap Content.text?)

/-- The objects behind the beginning of a string, latest first, and the output before it. -/
def splitString (output : Output) : List Content × Output :=
  let inner := output.stream.takeWhile fun content => content ≠ .command .beginString
  (inner, ofStream (output.stream.drop (inner.length + 1)))

/-- Take a string out of the output. The tags within stay. -/
def endString (output : Output) : String × Output :=
  let (inner, before) := output.splitString
  let tags := inner.filter fun content =>
    match content with
    | .tag _ => true
    | _ => false
  (textsOf inner, ofStream (tags ++ before.stream))

/-- Take a tag out of a string. No other command may stand behind the beginning of the tag. -/
def endTag (output : Output) : Except Fault (String × Output) :=
  let inner := output.stream.takeWhile fun content => !content.isCommand
  match output.stream.drop inner.length with
  | [] => .ok (Text.tidy (textsOf inner), ofStream [])
  | .command .beginTag :: before => .ok (Text.tidy (textsOf inner), ofStream before)
  | _ :: _ => .error .commandInTag

/-! ### What adding comes to -/

/-- What adding an object that is not to be split comes to: nothing, or that it stands behind what is
left of the output. -/
inductive Adds (content : Content) (start : Output × CallStack) : Output × CallStack → Prop where
  | nothing : Adds content start start
  | behind {stream : List Content} {stack : CallStack}
      (left : stream = start.1.stream ∨ stream = removeGlue start.1.stream ∨
        stream = trimNewlines start.1.stream)
      (marks : stack = start.2 ∨ stack = stopFunctionTrimming start.2)
      (apart : content.isNewline → stream = start.1.stream ∧ start.1.endsInNewline = false ∧
        start.1.hasText) :
      Adds content start (ofStream (content :: stream), stack)

theorem adds_pushOne (content : Content) (start : Output × CallStack) :
    Adds content start (start.1.pushOne start.2 content) := by
  have plain (newline : content.isNewline) : content.isText ∧ content.isGlue = false := by
    rw [Content.isNewline, beq_iff_eq] at newline
    exact ⟨by simp [Content.isText, newline], by cases content <;> trivial⟩
  unfold pushOne pushText
  extract_lets behind functionStart atGlue
  clear_value atGlue
  cases atGlue <;> repeat' split
  all_goals first | exact .nothing | exact .behind (by simp +zetaDelta) (by simp) fun newline => by simp_all

/-- What adding a piece keeps holds where an object is added. -/
theorem push_invariant {P : Output × CallStack → Prop} {output : Output} {stack : CallStack}
    {content : Content} (step : ∀ piece before after, (piece = content ∨ ∃ text, piece = .ofText text) →
      Adds piece before after → P before → P after)
    (held : P (output, stack)) : P (output.push stack content) := by
  have all (parts : List (List Char)) (start : Output × CallStack) (held : P start) :
      P (parts.foldl (fun reached part =>
        reached.1.pushOne reached.2 (.ofText (String.ofList part))) start) := by
    induction parts generalizing start with
    | nil => exact held
    | cons part rest ih => exact ih _ (step _ _ _ (.inr ⟨_, rfl⟩) (adds_pushOne _ start) held)
  unfold push
  split
  · exact all _ _ held
  · exact step _ _ _ (.inl rfl) (adds_pushOne content (output, stack)) held

end Output

end InkStory
