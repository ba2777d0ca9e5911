import InkStory.Json.Writer

/-! # What a save holds -/

namespace InkStory

structure SavedFrame where
  /-- The path of the container that the frame stands in. -/
  container : Option String
  /-- The position in the container; a negative one stands for the container itself. -/
  position : Int := 0
  evaluating : Bool
  kind : Int
  temporaries : List (String × Json) := []

/-- A saved thread, its frames from the bottom up. -/
structure SavedThread where
  frames : List SavedFrame
  index : Nat
  previous : Option String := none

/-- A saved choice; its thread is saved apart. -/
structure SavedChoice where
  text : String
  index : Nat
  source : String
  thread : Nat
  target : String
  tags : List String := []
  isInvisible : Bool := false

structure Save where
  threads : List SavedThread
  threadCounter : Nat
  output : List Json
  choices : List SavedChoice
  /-- The threads of choices that are not among the threads of the call stack. -/
  choiceThreads : List (String × SavedThread) := []
  globals : List (String × Json)
  evaluation : List Json
  diverted : Option String := none
  visits : List (String × Nat) := []
  turns : List (String × Int32) := []
  turn : Int32
  seed : Int32
  previousDraw : Int32 := 0
  version : Nat
  storyVersion : Nat := 0

namespace Save

/-- A member that is written only if it is there. -/
def memberIf (present : Bool) (name : String) (json : Json) : List (String × Json) :=
  if present then [(name, json)] else []

def textMember (name : String) : Option String → List (String × Json)
  | some text => [(name, .string text)]
  | none => []

def lookup? (fields : List (String × Json)) (name : String) : Option Json := fields.lookup name

def required? (fields : List (String × Json)) (name : String) (read : Json → Option α) :
    Option α :=
  (lookup? fields name).bind read

def optional? (fields : List (String × Json)) (name : String) (default : α)
    (read : Json → Option α) : Option α :=
  match lookup? fields name with
  | some json => read json
  | none => some default

/-- The members of a record, which are given by name, or by position in the order of the names. -/
def fields? (names : List String) : Json → Option (List (String × Json))
  | .object members => some members
  | .array items => if names.length < items.length then none else some (names.zip items)
  | _ => none

def readText? : Json → Option (Option String)
  | .null => some none
  | json => json.string?.map some

def readArray? (read : Json → Option α) (json : Json) : Option (List α) :=
  json.array?.bind fun items => items.mapM read

def readObject? (read : Json → Option α) (json : Json) : Option (List (String × α)) :=
  json.object?.bind fun members =>
    members.mapM fun (name, member) => (read member).map fun value => (name, value)

end Save

namespace SavedFrame

def names : List String := ["cPath", "idx", "exp", "type", "temp"]

def write (frame : SavedFrame) : Json :=
  .object <|
    Save.textMember "cPath" frame.container ++
      [("idx", .int frame.position), ("exp", .bool frame.evaluating), ("type", .int frame.kind)] ++
      Save.memberIf (!frame.temporaries.isEmpty) "temp" (.object frame.temporaries)

def read? (json : Json) : Option SavedFrame := do
  let fields ← Save.fields? names json
  return {
    container := ← Save.optional? fields "cPath" none Save.readText?
    position := ← Save.optional? fields "idx" 0 Json.int64?
    evaluating := ← Save.required? fields "exp" Json.bool?
    kind := ← Save.required? fields "type" Json.int64?
    temporaries := ← Save.optional? fields "temp" [] Json.object? }

end SavedFrame

namespace SavedThread

def names : List String := ["callstack", "threadIndex", "previousContentObject"]

def write (thread : SavedThread) : Json :=
  .object <|
    [("callstack", .array (thread.frames.map SavedFrame.write)),
      ("threadIndex", .int thread.index)] ++
      Save.textMember "previousContentObject" thread.previous

def read? (json : Json) : Option SavedThread := do
  let fields ← Save.fields? names json
  return {
    frames := ← Save.required? fields "callstack" (Save.readArray? SavedFrame.read?)
    index := ← Save.required? fields "threadIndex" Json.nat64?
    previous := ← Save.optional? fields "previousContentObject" none Save.readText? }

end SavedThread

namespace SavedChoice

def names : List String :=
  ["text", "index", "originalChoicePath", "originalThreadIndex", "targetPath", "tags",
    "isInvisibleDefault"]

def write (choice : SavedChoice) : Json :=
  .object <|
    [("text", .string choice.text), ("index", .int choice.index),
      ("originalChoicePath", .string choice.source), ("originalThreadIndex", .int choice.thread),
      ("targetPath", .string choice.target)] ++
      Save.memberIf (!choice.tags.isEmpty) "tags" (.array (choice.tags.map Json.string)) ++
      Save.memberIf choice.isInvisible "isInvisibleDefault" (.bool true)

def read? (json : Json) : Option SavedChoice := do
  let fields ← Save.fields? names json
  return {
    text := ← Save.required? fields "text" Json.string?
    index := ← Save.required? fields "index" Json.nat64?
    source := ← Save.required? fields "originalChoicePath" Json.string?
    thread := ← Save.required? fields "originalThreadIndex" Json.nat64?
    target := ← Save.required? fields "targetPath" Json.string?
    tags := ← Save.optional? fields "tags" [] (Save.readArray? Json.string?)
    isInvisible := ← Save.optional? fields "isInvisibleDefault" false Json.bool? }

end SavedChoice

namespace Save

def callStackNames : List String := ["threads", "threadCounter"]

def writeThreads (save : Save) : Json :=
  .object
    [("threads", .array (save.threads.map SavedThread.write)),
      ("threadCounter", .int save.threadCounter)]

def readThreads? (json : Json) : Option (List SavedThread × Nat) := do
  let fields ← fields? callStackNames json
  return (← required? fields "threads" (readArray? SavedThread.read?),
    ← required? fields "threadCounter" Json.nat64?)

def write (save : Save) : Json :=
  .object <|
    [("callstackThreads", save.writeThreads), ("outputStream", .array save.output),
      ("currentChoices", .array (save.choices.map SavedChoice.write))] ++
      memberIf (!save.choiceThreads.isEmpty) "choiceThreads"
        (.object (save.choiceThreads.map fun (name, thread) => (name, thread.write))) ++
      [("variablesState", .object save.globals), ("evalStack", .array save.evaluation)] ++
      textMember "currentDivertTarget" save.diverted ++
      [("visitCounts", .object (save.visits.map fun (path, count) => (path, .int count))),
        ("turnIndices", .object (save.turns.map fun (path, turn) => (path, .int turn.toInt))),
        ("turnIdx", .int save.turn.toInt), ("storySeed", .int save.seed.toInt),
        ("previousRandom", .int save.previousDraw.toInt), ("inkSaveVersion", .int save.version),
        ("inkFormatVersion", .int save.storyVersion)]

def read? (fields : List (String × Json)) : Option Save := do
  let (threads, threadCounter) ← required? fields "callstackThreads" readThreads?
  return {
    threads, threadCounter
    output := ← required? fields "outputStream" Json.array?
    choices := ← required? fields "currentChoices" (readArray? SavedChoice.read?)
    choiceThreads := ← optional? fields "choiceThreads" [] (readObject? SavedThread.read?)
    globals := ← required? fields "variablesState" Json.object?
    evaluation := ← required? fields "evalStack" Json.array?
    diverted := ← optional? fields "currentDivertTarget" none readText?
    visits := ← optional? fields "visitCounts" [] (readObject? Json.nat32?)
    turns := ← optional? fields "turnIndices" [] (readObject? Json.int32?)
    turn := ← required? fields "turnIdx" Json.int32?
    seed := ← required? fields "storySeed" Json.int32?
    previousDraw := ← optional? fields "previousRandom" 0 Json.int32?
    version := ← required? fields "inkSaveVersion" Json.nat32?
    storyVersion := ← optional? fields "inkFormatVersion" 0 Json.nat32? }

end Save

end InkStory
