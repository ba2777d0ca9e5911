/-! # White space -/

namespace InkStory.Text

/-- Characters with the Unicode property `White_Space`. -/
def isBlank (c : Char) : Bool :=
  let code := c.toNat
  (9 ≤ code && code ≤ 13) || code == 0x20 || code == 0x85 || code == 0xA0 || code == 0x1680 ||
    (0x2000 ≤ code && code ≤ 0x200A) || code == 0x2028 || code == 0x2029 || code == 0x202F ||
    code == 0x205F || code == 0x3000

/-- Drop the characters of a class from both ends of a text. -/
def stripChars (drop : Char → Bool) (text : List Char) : List Char :=
  ((text.dropWhile drop).reverse.dropWhile drop).reverse

def strip (text : String) : String := String.ofList (stripChars isBlank text.toList)

/-- Spaces and tabs, the white space that stays within a line. -/
def isInlineBlank (c : Char) : Bool := c == ' ' || c == '\t'

end InkStory.Text
