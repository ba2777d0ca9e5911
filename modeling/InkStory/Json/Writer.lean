import InkStory.Json.Token

/-! # Compact JSON text -/

namespace InkStory.Json

mutual

def tokens : Json → List Token
  | .null => [.null]
  | .bool value => [.bool value]
  | .number value => [.number (some value)]
  | .string value => [.string (some value)]
  | .array items => .openArray :: itemTokens items ++ [.closeArray]
  | .object members => .openObject :: memberTokens members ++ [.closeObject]

/-- The tokens of the items of an array, with commas between them. -/
def itemTokens : List Json → List Token
  | [] => []
  | [json] => tokens json
  | json :: rest => tokens json ++ .comma :: itemTokens rest

def memberTokens : List (String × Json) → List Token
  | [] => []
  | [(name, json)] => .string (some name) :: .colon :: tokens json
  | (name, json) :: rest =>
    .string (some name) :: .colon :: tokens json ++ .comma :: memberTokens rest

end

def render (json : Json) : String := String.ofList (json.tokens.flatMap Token.chars)

end InkStory.Json
