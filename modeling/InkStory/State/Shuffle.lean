import InkStory.Program.Paths
import InkStory.Random

/-! # Shuffled sequences -/

namespace InkStory

def Generator.draws (generator : Generator) : Nat → List Nat
  | 0 => []
  | count + 1 =>
    let drawn := generator.draw
    drawn.1 :: drawn.2.draws count

namespace Shuffle

/-- Take an element for every draw, and keep the last one taken. -/
def pick? (elements : List Int32) : List Nat → Option Int32
  | [] => none
  | [draw] => elements[draw % elements.length]?
  | draw :: more => pick? (elements.eraseIdx (draw % elements.length)) more

def checksum (text : String) : Int32 :=
  text.toList.foldl (fun sum c => sum + Int32.ofNat c.toNat) 0

def elements (size : Int32) : List Int32 := (List.range size.toInt.toNat).map Int32.ofNat

/-- The element to show when a sequence with `size` elements at a path was shown `count` times
before. Every round through the elements has draws of its own. -/
def element? (path : Path) (seed size count : Int32) : Option Int32 :=
  let position := count % size
  if position < 0 then none
  else
    let generator := Generator.ofSeed (checksum path.text + count / size + seed)
    pick? (elements size) (generator.draws (position.toInt.toNat + 1))

end Shuffle

end InkStory
