import InkStory.Story.Basic

/-! # Tags at the start of content -/

namespace InkStory

/-- The tags before all other content: `inTag` behind the beginning of one, of which `text` is there
so far. A tag must consist of text. -/
def Container.leadingTags (inTag : Bool) (text : String) :
    List (Node Container) → Except Fault (List String)
  | [] => .ok []
  | .content (.command .beginTag) :: rest => leadingTags true text rest
  | .content (.command .endTag) :: rest => do
    let tags ← leadingTags false "" rest
    return if text = "" then tags else text :: tags
  | .content (.command _) :: rest => leadingTags inTag text rest
  | .content content :: rest =>
    if inTag then
      match content.text? with
      | some more => leadingTags inTag (text ++ more) rest
      | none => .error .strangeTag
    else
      match content with
      | .tag own => do return own :: (← leadingTags inTag text rest)
      | _ => .ok []
  | .container _ :: _ => if inTag then .error .strangeTag else .ok []

namespace Story

def tagsAt (story : Story) (path : Path) : Except Error (List String) :=
  match (story.program.followPath [] path).exactContainer? with
  | none => .error (.invalidArgument (.noContent path.text))
  | some address =>
    let (entered, _) := story.program.descend ⟨address, none⟩
    let first := story.program.container (entered.getLast?.getD address)
    match Container.leadingTags false "" first.nodes with
    | .ok tags => .ok tags
    | .error fault => .error (.runtime fault)

def globalTags (story : Story) : Except Error (List String) := story.tagsAt {}

end Story

end InkStory
