import InkStory.Json.Basic

/-! # Settings of a play-through -/

namespace InkStory

structure Config where
  /-- A function that the host has not bound is taken from the story itself. -/
  allowFallbacks : Bool := true
  /-- Globals are saved even while they have their declared values. -/
  saveDefaults : Bool := false
  seed : Option Int32 := none
  deriving DecidableEq, Repr, Inhabited

namespace Config

def readSeed? : Json → Option (Option Int32)
  | .null => some none
  | json => json.int32?.map some

/-- Read one named setting; others are passed over. -/
def addMember? (config : Config) (member : String × Json) : Option Config :=
  match member with
  | ("allow_external_function_fallbacks", json) =>
    json.bool?.map fun value => { config with allowFallbacks := value }
  | ("save_default_globals", json) =>
    json.bool?.map fun value => { config with saveDefaults := value }
  | ("story_seed", json) => (readSeed? json).map fun seed => { config with seed := seed }
  | _ => some config

/-- Read settings by name, or by position in the order of the fields. What is missing takes its
default. -/
def read? : Json → Option Config
  | .object members => members.foldlM addMember? {}
  | .array items =>
    if 3 < items.length then none
    else
      (["allow_external_function_fallbacks", "save_default_globals", "story_seed"].zip
        items).foldlM addMember? {}
  | _ => none

def write (config : Config) : Json :=
  .object
    [("allow_external_function_fallbacks", .bool config.allowFallbacks),
      ("save_default_globals", .bool config.saveDefaults),
      ("story_seed",
        match config.seed with
        | some seed => .int seed.toInt
        | none => .null)]

end Config

end InkStory
