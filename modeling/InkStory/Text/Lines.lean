import InkStory.Text.Blank

/-! # White space in lines -/

namespace InkStory.Text

/-- Tidy a text from somewhere in a line: `atStart` while nothing of the line stands yet, and
`pending` behind spaces or tabs that are not written yet. -/
def tidyFrom (atStart pending : Bool) : List Char → List Char
  | [] => []
  | c :: rest =>
    if isInlineBlank c then tidyFrom atStart true rest
    else if c = '\n' then '\n' :: tidyFrom true false rest
    else if pending && !atStart then ' ' :: c :: tidyFrom false false rest
    else c :: tidyFrom false false rest

/-- Drop spaces and tabs at both ends of every line, and make one space of each run within. -/
def tidy (text : String) : String := String.ofList (tidyFrom true false text.toList)

/-- Spaces, tabs and newlines. -/
def isLineBlank (c : Char) : Bool := isInlineBlank c || c == '\n'

/-- What stands before the first newline of a run and behind its last, if it has one. -/
def aroundNewlines? (run : List Char) : Option (List Char × List Char) :=
  if run.contains '\n' then
    some (run.takeWhile (· != '\n'), (run.reverse.takeWhile (· != '\n')).reverse)
  else none

/-- A part of a text, unless it is empty. -/
def part (text : List Char) : List (List Char) := if text.isEmpty then [] else [text]

/-- Split the newlines at both ends off a text, each run of them as one newline. Blanks outside
them are parts of their own, and nothing is split where no end has a newline. -/
def splitEnds? (text : List Char) : Option (List (List Char)) :=
  let lead := text.takeWhile isLineBlank
  let rest := text.dropWhile isLineBlank
  if rest.isEmpty then (aroundNewlines? lead).map fun (before, _) => part before ++ [['\n']]
  else
    let trail := (rest.reverse.takeWhile isLineBlank).reverse
    let body := (rest.reverse.dropWhile isLineBlank).reverse
    match aroundNewlines? lead, aroundNewlines? trail with
    | none, none => none
    | some (before, inner), none => some (part before ++ [['\n'], inner ++ body ++ trail])
    | none, some (inner, behind) => some ([lead ++ body ++ inner, ['\n']] ++ part behind)
    | some (before, leadInner), some (trailInner, behind) =>
      some (part before ++ [['\n'], leadInner ++ body ++ trailInner, ['\n']] ++ part behind)

end InkStory.Text
