import InkStory.Story.Tags
import InkStory.Proofs.ThreadNumbers
import InkStory.Proofs.PlayingOn
import InkStory.Proofs.Overlays
import InkStory.Proofs.Calls
import InkStory.Proofs.DeadEnds
import InkStory.Proofs.FailedJumps
import InkStory.Proofs.DivertSpellings
import InkStory.Proofs.Shuffles
import InkStory.Proofs.StringValues
import InkStory.Proofs.StringSurroundings
import InkStory.Proofs.ItemLists
import InkStory.Proofs.Verdicts
import InkStory.Proofs.OutputLines
import InkStory.Proofs.FoundFunctions
