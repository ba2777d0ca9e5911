/-! # Random numbers -/

namespace InkStory

/-- A permuted congruential generator: a linear congruence modulo `2 ^ 128` whose state is folded
and rotated for every number. -/
structure Generator where
  state : Nat
  increment : Nat
  deriving DecidableEq, Repr

namespace Generator

def modulus : Nat := Nat.pow 2 128

def multiplier : Nat := 0x2360ED051FC65DA44385DF649FCCF645

def advance (generator : Generator) : Generator :=
  { generator with
    state := (generator.state * multiplier + generator.increment) % modulus }

def rotateRight (width : Nat) (word distance : Nat) : Nat :=
  (word >>> distance ||| word <<< (width - distance)) % Nat.pow 2 width

def next (generator : Generator) : Nat × Generator :=
  let generator := generator.advance
  let folded := (generator.state >>> 64 ^^^ generator.state) % UInt64.size
  (rotateRight 64 folded (generator.state >>> 122), generator)

/-- Spread a seed of 64 bits over `count` words of 32 bits. -/
def expand : Nat → Nat → List Nat
  | 0, _ => []
  | count + 1, seed =>
    let seed := (seed * 6364136223846793005 + 11634580027462260723) % UInt64.size
    let folded := ((seed >>> 18 ^^^ seed) >>> 27) % UInt32.size
    rotateRight 32 folded (seed >>> 59) :: expand count seed

def ofWords (words : List Nat) : Nat := words.foldr (fun word rest => word + rest <<< 32) 0

def ofSeed (seed : Int32) : Generator :=
  let words := expand 8 seed.toInt64.toUInt64.toNat
  let increment := ofWords (words.drop 4) ||| 1
  advance ⟨(ofWords (words.take 4) + increment) % modulus, increment⟩

/-- Draw until the remainder of the scaling falls below the bound that makes all results equally
likely. -/
def drawWithin (generator : Generator) : Nat → Nat × Generator
  | 0 => (0, generator)
  | attempts + 1 =>
    let (word, generator) := generator.next
    let scaled := word % UInt32.size * Int32.maxValue.toInt.toNat
    if scaled % UInt32.size ≤ 0xFFFFFFFD then (scaled >>> 32, generator)
    else generator.drawWithin attempts

/-- Draw a number from zero up to, but not including, the greatest integer. One attempt in two
thousand million fails, so the given number of them always does. -/
def draw (generator : Generator) : Nat × Generator := generator.drawWithin 64

end Generator

def firstDraw (seed : Int32) : Int32 := Int32.ofNat (Generator.ofSeed seed).draw.1

end InkStory
