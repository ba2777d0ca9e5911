/-! # Control commands -/

namespace InkStory

inductive Command where
  | beginEvaluation
  | outputValue
  | endEvaluation
  | duplicate
  | dropValue
  | returnFromFunction
  | returnFromTunnel
  | beginString
  | endString
  | nothing
  | choiceCount
  | turns
  | turnsSince
  | readCount
  | random
  | seedRandom
  | visitIndex
  | shuffleIndex
  | startThread
  | done
  | finish
  | listFromInt
  | listRange
  | listRandom
  | beginTag
  | endTag
  deriving DecidableEq, Repr, Inhabited

namespace Command

def all : List Command :=
  [beginEvaluation, outputValue, endEvaluation, duplicate, dropValue, returnFromFunction,
    returnFromTunnel, beginString, endString, nothing, choiceCount, turns, turnsSince, readCount,
    random, seedRandom, visitIndex, shuffleIndex, startThread, done, finish, listFromInt,
    listRange, listRandom, beginTag, endTag]

def token : Command → String
  | beginEvaluation => "ev"
  | outputValue => "out"
  | endEvaluation => "/ev"
  | duplicate => "du"
  | dropValue => "pop"
  | returnFromFunction => "~ret"
  | returnFromTunnel => "->->"
  | beginString => "str"
  | endString => "/str"
  | nothing => "nop"
  | choiceCount => "choiceCnt"
  | turns => "turn"
  | turnsSince => "turns"
  | readCount => "readc"
  | random => "rnd"
  | seedRandom => "srnd"
  | visitIndex => "visit"
  | shuffleIndex => "seq"
  | startThread => "thread"
  | done => "done"
  | finish => "end"
  | listFromInt => "listInt"
  | listRange => "range"
  | listRandom => "lrnd"
  | beginTag => "#"
  | endTag => "/#"

def word : Command → String
  | beginEvaluation => "EvalStart"
  | outputValue => "EvalOutput"
  | endEvaluation => "EvalEnd"
  | duplicate => "Duplicate"
  | dropValue => "PopEvaluatedValue"
  | returnFromFunction => "PopFunction"
  | returnFromTunnel => "PopTunnel"
  | beginString => "BeginString"
  | endString => "EndString"
  | nothing => "NoOp"
  | choiceCount => "ChoiceCount"
  | turns => "Turns"
  | turnsSince => "TurnsSince"
  | readCount => "ReadCount"
  | random => "Random"
  | seedRandom => "SeedRandom"
  | visitIndex => "VisitIndex"
  | shuffleIndex => "SequenceShuffleIndex"
  | startThread => "StartThread"
  | done => "Done"
  | finish => "End"
  | listFromInt => "ListFromInt"
  | listRange => "ListRange"
  | listRandom => "ListRandom"
  | beginTag => "BeginTag"
  | endTag => "EndTag"

def ofToken? (token : String) : Option Command :=
  all.find? fun command => command.token == token

end Command

end InkStory
