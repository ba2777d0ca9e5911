import InkStory.Json.Number

/-! # Tokens of JSON text -/

namespace InkStory.Json

/-- A token. A number out of range and a text with half a surrogate pair are still tokens, but
carry no value. -/
inductive Token where
  | openArray
  | closeArray
  | openObject
  | closeObject
  | colon
  | comma
  | null
  | bool (value : Bool)
  | number (value : Option Number)
  | string (value : Option String)
  deriving Repr, DecidableEq

namespace Token

def hexDigit (value : Nat) : Char := Nat.digitChar value

def escape (c : Char) : List Char :=
  if c = '"' then ['\\', '"']
  else if c = '\\' then ['\\', '\\']
  else if c = '\x08' then ['\\', 'b']
  else if c = '\x0c' then ['\\', 'f']
  else if c = '\n' then ['\\', 'n']
  else if c = '\r' then ['\\', 'r']
  else if c = '\t' then ['\\', 't']
  else if c.toNat < 0x20 then
    ['\\', 'u', '0', '0', hexDigit (c.toNat / 16), hexDigit (c.toNat % 16)]
  else [c]

/-- The text of a token. A token without value is written as nothing. -/
def chars : Token → List Char
  | openArray => ['[']
  | closeArray => [']']
  | openObject => ['\x7b']
  | closeObject => ['\x7d']
  | colon => [':']
  | comma => [',']
  | null => ['n', 'u', 'l', 'l']
  | bool true => ['t', 'r', 'u', 'e']
  | bool false => ['f', 'a', 'l', 's', 'e']
  | number value => (value.map Number.chars).getD []
  | string value => (value.map fun text => '"' :: text.toList.flatMap escape ++ ['"']).getD []

def ofWord? (word : String) : Option Token :=
  if word = "null" then some .null
  else if word = "true" then some (.bool true)
  else if word = "false" then some (.bool false)
  else none

end Token

/-- Where a scan stands inside a quoted text. -/
inductive Escape where
  | plain
  | backslash
  /-- Within the four digits of a code unit. -/
  | unit (left : Nat) (value : Nat)
  deriving Repr, DecidableEq

/-- A scan of a quoted text: what was read, last first, whether it was sound so far, and the first
half of a surrogate pair whose second half must follow at once. -/
structure Quoted where
  read : List Char := []
  sound : Bool := true
  half : Option Nat := none
  escape : Escape := .plain
  deriving Repr, DecidableEq

inductive Scan where
  | between
  | word (read : List Char)
  | number (read : List Char)
  | quoted (quoted : Quoted)
  deriving Repr, DecidableEq

namespace Quoted

/-- Add a character. A first half before it stays alone, which is unsound. -/
def push (quoted : Quoted) (c : Char) : Quoted :=
  { quoted with
    read := c :: quoted.read
    sound := quoted.sound && quoted.half.isNone
    half := none
    escape := .plain }

def pushUnit (quoted : Quoted) (unit : Nat) : Quoted :=
  let cleared := { quoted with half := none, escape := Escape.plain }
  if 0xD800 ≤ unit ∧ unit < 0xDC00 then
    { cleared with sound := quoted.sound && quoted.half.isNone, half := some unit }
  else if 0xDC00 ≤ unit ∧ unit < 0xE000 then
    match quoted.half with
    | some first =>
      { cleared with
        read := Char.ofNat (0x10000 + (first - 0xD800) * 0x400 + (unit - 0xDC00)) :: quoted.read }
    | none => { cleared with sound := false }
  else quoted.push (Char.ofNat unit)

def short? (letter : Char) : Option Char :=
  match letter with
  | '"' => some '"'
  | '\\' => some '\\'
  | '/' => some '/'
  | 'b' => some '\x08'
  | 'f' => some '\x0c'
  | 'n' => some '\n'
  | 'r' => some '\r'
  | 't' => some '\t'
  | _ => none

def hexValue? (c : Char) : Option Nat :=
  if c.isDigit then some (c.toNat - '0'.toNat)
  else if 'a' ≤ c ∧ c ≤ 'f' then some (c.toNat - 'a'.toNat + 10)
  else if 'A' ≤ c ∧ c ≤ 'F' then some (c.toNat - 'A'.toNat + 10)
  else none

def token (quoted : Quoted) : Token :=
  .string <|
    if quoted.sound && quoted.half.isNone then some (String.ofList quoted.read.reverse) else none

def step (quoted : Quoted) (c : Char) : Option Quoted :=
  match quoted.escape with
  | .plain =>
    if c = '\\' then some { quoted with escape := .backslash }
    else if c.toNat < 0x20 then none
    else some (quoted.push c)
  | .backslash =>
    if c = 'u' then some { quoted with escape := .unit 3 0 }
    else (short? c).map quoted.push
  | .unit left value => do
    let digit ← hexValue? c
    let value := 16 * value + digit
    match left with
    | 0 => some (quoted.pushUnit value)
    | left + 1 => some { quoted with escape := .unit left value }

end Quoted

namespace Scan

def isSpace (c : Char) : Bool := c == ' ' || c == '\n' || c == '\r' || c == '\t'

def isNumeric (c : Char) : Bool :=
  c.isDigit || c == '-' || c == '+' || c == '.' || c == 'e' || c == 'E'

def punctuation? (c : Char) : Option Token :=
  match c with
  | '[' => some .openArray
  | ']' => some .closeArray
  | '\x7b' => some .openObject
  | '\x7d' => some .closeObject
  | ':' => some .colon
  | ',' => some .comma
  | _ => none

/-- Begin a token, adding to the tokens read, which stand last first. -/
def start (tokens : List Token) (c : Char) : Option (List Token × Scan) :=
  match punctuation? c with
  | some token => some (token :: tokens, .between)
  | none =>
    if isSpace c then some (tokens, .between)
    else if c = '"' then some (tokens, .quoted {})
    else if c.isDigit || c = '-' then some (tokens, .number [c])
    else if c.isLower then some (tokens, .word [c])
    else none

/-- End the token under way, if it may end here. -/
def finish (tokens : List Token) : Scan → Option (List Token)
  | .between => some tokens
  | .word read => (Token.ofWord? (String.ofList read.reverse)).map (· :: tokens)
  | .number read =>
    (Number.literal? read.reverse).map fun literal => .number (Number.ofLiteral literal) :: tokens
  | .quoted _ => none

def step (tokens : List Token) (scan : Scan) (c : Char) : Option (List Token × Scan) :=
  match scan with
  | .between => start tokens c
  | .word read =>
    if c.isLower then some (tokens, .word (c :: read))
    else (finish tokens scan).bind fun tokens => start tokens c
  | .number read =>
    if isNumeric c then some (tokens, .number (c :: read))
    else (finish tokens scan).bind fun tokens => start tokens c
  | .quoted text =>
    if c = '"' ∧ text.escape = .plain then some (text.token :: tokens, .between)
    else (text.step c).map fun text => (tokens, .quoted text)

def run (start : List Token × Scan) (text : List Char) : Option (List Token × Scan) :=
  text.foldlM (fun reached c => step reached.1 reached.2 c) start

end Scan

def tokens? (text : List Char) : Option (List Token) := do
  let (tokens, scan) ← Scan.run ([], .between) text
  let tokens ← scan.finish tokens
  some tokens.reverse

end InkStory.Json
