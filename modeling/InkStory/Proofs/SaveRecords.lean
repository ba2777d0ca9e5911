import InkStory.Proofs.JsonText
import InkStory.Save.Reader

/-! # Saves read back

The record of a save is read back from its text, up to the numbers of the values in it
(`Save.parse_render`). -/

namespace InkStory

open List Json Save

variable {value depth : Nat} {name : String} {json : Json} {frame : SavedFrame}
  {thread : SavedThread} {choice : SavedChoice}

namespace Save

/-- Members as they are read back. -/
def rereadAll (members : List (String × Json)) : List (String × Json) :=
  members.map fun member => (member.1, member.2.reread)

/-- JSON values that are read back wherever two others can stand within them. -/
def AllSound (values : List Json) : Prop := ∀ depth, ∀ value ∈ values, Json.Sound (depth + 2) value

/-- A number of 64 bits with a sign. -/
def Int64 (value : Int) : Prop := -2 ^ 63 ≤ value ∧ value < 2 ^ 63

theorem fits_of_int64 {value : Int} (bounds : Int64 value) : Json.Number.Fits value := by
  unfold Int64 at bounds
  unfold Json.Number.Fits
  omega

theorem fits_of_nat64 (small : value < 2 ^ 64) : Json.Number.Fits value := by
  unfold Json.Number.Fits
  omega

theorem natWithin?_int {size : Nat} (small : value < size) :
    ((int value).intWithin? 0 (size - 1)).map Int.toNat = some value := by
  have within : (0 : Int) ≤ value ∧ (value : Int) ≤ size - 1 := by omega
  rw [int, intWithin?, if_pos within, Option.map_some, Int.toNat_natCast]

theorem nat64?_int (small : value < 2 ^ 64) :
    (int value).nat64? = some value := natWithin?_int small

theorem nat32?_int (small : value < 2 ^ 32) :
    (int value).nat32? = some value := natWithin?_int small

section Lists

variable {Record : Type u} {Found : Type v} {write : Record → Json} {read : Json → Option Found}
  {found : Record → Found}

theorem mapM_some {Item : Type w} {read : Item → Option Found} {write : Record → Item}
    {records : List Record} (reads : ∀ record ∈ records, read (write record) = some (found record)) :
    (records.map write).mapM read = some (records.map found) := by
  induction records with
  | nil => rfl
  | cons record rest ih =>
    have first := reads record mem_cons_self
    have others := ih fun record member => reads record (mem_cons_of_mem _ member)
    rw [map_cons, mapM_cons, first, others]
    rfl

theorem readArray?_write {records : List Record}
    (reads : ∀ record ∈ records, read (write record).reread = some (found record)) :
    readArray? read (array (records.map write)).reread = some (records.map found) := by
  rw [Json.reread, rereadItems_eq, map_map]
  exact mapM_some reads

theorem readObject?_write (write : Record → Json) (found : Record → Found)
    {records : List (String × Record)}
    (reads : ∀ record ∈ records, read (write record.2).reread = some (found record.2)) :
    readObject? read (object (records.map fun record => (record.1, write record.2))).reread =
      some (records.map fun record => (record.1, found record.2)) := by
  rw [Json.reread, rereadMembers_eq, map_map]
  refine mapM_some fun record member => ?_
  simp [reads record member]

end Lists

section Fields

variable {Found : Type v} {other : String} {fields : List (String × Json)}
  {read : Json → Option Found} {default : Found}

theorem readText?_string (text : String) : readText? (.string text) = some (some text) := rfl

theorem required?_self : required? ((name, json) :: fields) name read = read json := by
  simp [required?, lookup?]

theorem required?_other (different : ¬name = other) :
    required? ((other, json) :: fields) name read = required? fields name read := by
  have apart : (name == other) = false := by simpa using different
  simp [required?, lookup?, lookup, apart]

theorem optional?_nil : optional? [] name default read = some default := rfl

theorem optional?_self : optional? ((name, json) :: fields) name default read = read json := by
  simp [optional?, lookup?]

theorem optional?_other (different : ¬name = other) :
    optional? ((other, json) :: fields) name default read = optional? fields name default read := by
  have apart : (name == other) = false := by simpa using different
  simp [optional?, lookup?, lookup, apart]

end Fields

section Members

theorem names_textMember (text : Option String) :
    ((textMember name text).map Prod.fst).Sublist [name] := by
  cases text <;> simp [textMember]

theorem names_memberIf (present : Bool) :
    ((memberIf present name json).map Prod.fst).Sublist [name] := by
  cases present <;> simp [memberIf]

theorem sound_textMember (text : Option String) :
    ∀ member ∈ textMember name text, Json.Sound depth member.2 := by
  cases text with
  | none => simp [textMember]
  | some text => simpa [textMember] using Json.Sound.string text

theorem sound_memberIf (present : Bool) (sound : Json.Sound depth json) :
    ∀ member ∈ memberIf present name json, Json.Sound depth member.2 := by
  cases present
  · simp [memberIf]
  · simpa [memberIf] using sound

end Members

end Save

namespace SavedFrame

/-- A frame that can be stored: its numbers have 64 bits, and its names differ. -/
structure Storable (frame : SavedFrame) : Prop where
  position : Save.Int64 frame.position
  kind : Save.Int64 frame.kind
  distinct : (frame.temporaries.map Prod.fst).Nodup
  sound : AllSound (frame.temporaries.map Prod.snd)

/-- A frame as it is read back. -/
def reread (frame : SavedFrame) : SavedFrame :=
  { frame with temporaries := rereadAll frame.temporaries }

theorem read?_write (storable : frame.Storable) :
    read? frame.write.reread = some frame.reread := by
  have position := int64?_int storable.position.1 storable.position.2
  have kind := int64?_int storable.kind.1 storable.kind.2
  have samePosition := reread_int (fits_of_int64 storable.position)
  have sameKind := reread_int (fits_of_int64 storable.kind)
  obtain ⟨container, _, evaluating, _, temporaries⟩ := frame
  cases container <;> cases temporaries <;>
    simp [read?, write, reread, fields?, optional?_nil, optional?_self,
      optional?_other, required?_self, required?_other, textMember,
      memberIf, readText?_string, rereadAll, bool?, object?,
      reread_bool, reread_string, reread_object, rereadMembers_eq, samePosition, sameKind, position, kind]

theorem sound_write (storable : frame.Storable) :
    Sound (depth + 4) frame.write := by
  have temporaries : Sound (depth + 3) (.object frame.temporaries) :=
    .object storable.distinct fun member written =>
      storable.sound depth _ (mem_map_of_mem written)
  refine .object ?_ ?_
  · refine Nodup.sublist ?_ (show names.Nodup by decide)
    simp only [map_append]
    exact ((names_textMember _).append (.refl _)).append (names_memberIf _)
  · simp only [forall_mem_append, mem_cons, not_mem_nil, or_false, forall_eq_or_imp, forall_eq]
    exact ⟨⟨sound_textMember _, sound_int (fits_of_int64 storable.position), .bool _,
      sound_int (fits_of_int64 storable.kind)⟩, sound_memberIf _ temporaries⟩

end SavedFrame

namespace SavedThread

structure Storable (thread : SavedThread) : Prop where
  frames : ∀ frame ∈ thread.frames, frame.Storable
  index : thread.index < 2 ^ 64

/-- A thread as it is read back. -/
def reread (thread : SavedThread) : SavedThread :=
  { thread with frames := thread.frames.map SavedFrame.reread }

theorem read?_write (storable : thread.Storable) :
    read? thread.write.reread = some thread.reread := by
  have frames : readArray? SavedFrame.read? (array (thread.frames.map SavedFrame.write)).reread =
      some (thread.frames.map SavedFrame.reread) :=
    readArray?_write fun frame member => SavedFrame.read?_write (storable.frames frame member)
  have index := nat64?_int storable.index
  have sameIndex := reread_int (fits_of_nat64 storable.index)
  obtain ⟨_, _, previous⟩ := thread
  rw [reread_array] at frames
  cases previous <;>
    simp [read?, write, reread, fields?, optional?_nil, optional?_self,
      optional?_other, required?_self, required?_other, textMember,
      readText?_string, reread_string, reread_array, reread_object,
      rereadMembers, sameIndex, index, frames]

theorem sound_write (storable : thread.Storable) :
    Sound (depth + 6) thread.write := by
  have frames : Sound (depth + 5) (.array (thread.frames.map SavedFrame.write)) :=
    .array (forall_mem_map.mpr fun frame member =>
      SavedFrame.sound_write (storable.frames frame member))
  refine .object ?_ ?_
  · refine Nodup.sublist ?_ (show names.Nodup by decide)
    simp only [map_append]
    exact Sublist.append (.refl _) (names_textMember _)
  · simp only [forall_mem_append, mem_cons, not_mem_nil, or_false, forall_eq_or_imp, forall_eq]
    exact ⟨⟨frames, sound_int (fits_of_nat64 storable.index)⟩, sound_textMember _⟩

end SavedThread

namespace SavedChoice

structure Storable (choice : SavedChoice) : Prop where
  index : choice.index < 2 ^ 64
  thread : choice.thread < 2 ^ 64

theorem read?_write (storable : choice.Storable) :
    read? choice.write.reread = some choice := by
  have index := nat64?_int storable.index
  have sameIndex := reread_int (fits_of_nat64 storable.index)
  have thread := nat64?_int storable.thread
  have sameThread := reread_int (fits_of_nat64 storable.thread)
  have texts : readArray? string? (array (choice.tags.map string)).reread =
      some (choice.tags.map id) := readArray?_write fun tag _ => rfl
  obtain ⟨text, _, source, _, target, tags, invisible⟩ := choice
  rw [reread_array] at texts
  cases tags <;> cases invisible <;>
    simp [-map_cons, read?, write, fields?, optional?_nil, optional?_self,
      optional?_other, required?_self, required?_other, memberIf, string?,
      bool?, reread_bool, reread_string, reread_array, reread_object,
      rereadMembers, sameIndex, index, sameThread, thread, texts]

theorem sound_write (storable : choice.Storable) :
    Sound (depth + 2) choice.write := by
  have tags : Sound (depth + 1) (.array (choice.tags.map string)) :=
    .array (forall_mem_map.mpr fun tag _ => .string tag)
  refine .object ?_ ?_
  · refine Nodup.sublist ?_ (show names.Nodup by decide)
    simp only [map_append]
    exact (Sublist.append (.refl _) (names_memberIf _)).append (names_memberIf _)
  · simp only [forall_mem_append, mem_cons, not_mem_nil, or_false, forall_eq_or_imp, forall_eq]
    exact ⟨⟨⟨.string _, sound_int (fits_of_nat64 storable.index), .string _,
      sound_int (fits_of_nat64 storable.thread), .string _⟩, sound_memberIf _ tags⟩,
      sound_memberIf _ (.bool _)⟩

end SavedChoice

namespace Save

variable {save : Save}

/-- A save that can be stored. -/
structure Storable (save : Save) : Prop where
  threads : ∀ thread ∈ save.threads, thread.Storable
  threadCounter : save.threadCounter < 2 ^ 64
  output : AllSound save.output
  choices : ∀ choice ∈ save.choices, choice.Storable
  choiceNames : (save.choiceThreads.map Prod.fst).Nodup
  choiceThreads : ∀ named ∈ save.choiceThreads, named.2.Storable
  globalNames : (save.globals.map Prod.fst).Nodup
  globals : AllSound (save.globals.map Prod.snd)
  evaluation : AllSound save.evaluation
  visitNames : (save.visits.map Prod.fst).Nodup
  visits : ∀ counted ∈ save.visits, counted.2 < 2 ^ 32
  turnNames : (save.turns.map Prod.fst).Nodup
  version : save.version < 2 ^ 32
  storyVersion : save.storyVersion < 2 ^ 32

/-- A save as it is read back. -/
def reread (save : Save) : Save :=
  { save with
    threads := save.threads.map SavedThread.reread
    output := save.output.map Json.reread
    choiceThreads := save.choiceThreads.map fun named => (named.1, named.2.reread)
    globals := rereadAll save.globals
    evaluation := save.evaluation.map Json.reread }

theorem fits_of_nat32 (small : value < 2 ^ 32) : Json.Number.Fits value :=
  fits_of_nat64 (by omega)

theorem readThreads?_write (storable : save.Storable) :
    readThreads? save.writeThreads.reread =
      some (save.threads.map SavedThread.reread, save.threadCounter) := by
  have threads : readArray? SavedThread.read? (array (save.threads.map SavedThread.write)).reread =
      some (save.threads.map SavedThread.reread) :=
    readArray?_write fun thread member => SavedThread.read?_write (storable.threads thread member)
  have counter := nat64?_int storable.threadCounter
  have sameCounter := reread_int (fits_of_nat64 storable.threadCounter)
  rw [reread_array] at threads
  simp [readThreads?, writeThreads, fields?, required?_self, required?_other, reread_array,
    reread_object, rereadMembers, sameCounter, counter, threads]

theorem read?_write {members : List (String × Json)} (storable : save.Storable)
    (written : save.write.reread = .object members) : read? members = some save.reread := by
  have threads := readThreads?_write storable
  have choices : readArray? SavedChoice.read? (array (save.choices.map SavedChoice.write)).reread =
      some (save.choices.map id) :=
    readArray?_write fun choice member => SavedChoice.read?_write (storable.choices choice member)
  have choiceThreads : readObject? SavedThread.read? (object (save.choiceThreads.map fun named =>
      (named.1, named.2.write))).reread =
      some (save.choiceThreads.map fun named => (named.1, named.2.reread)) :=
    readObject?_write _ _ fun named member => SavedThread.read?_write (storable.choiceThreads named member)
  have visits : readObject? nat32? (object (save.visits.map fun counted =>
      (counted.1, int counted.2))).reread = some (save.visits.map fun counted =>
      (counted.1, id counted.2)) := by
    refine readObject?_write (fun count : Nat => int count) id fun counted member => ?_
    have small := storable.visits counted member
    rw [reread_int (fits_of_nat32 small), nat32?_int small]
    rfl
  have turns : readObject? int32? (object (save.turns.map fun noted =>
      (noted.1, int noted.2.toInt))).reread = some (save.turns.map fun noted =>
      (noted.1, id noted.2)) := by
    refine readObject?_write (fun turn : Int32 => int turn.toInt) id fun noted _ => ?_
    rw [reread_int (fits_int32 _), int32?_int]
    rfl
  have version := nat32?_int storable.version
  have sameVersion := reread_int (fits_of_nat32 storable.version)
  have storyVersion := nat32?_int storable.storyVersion
  have sameStoryVersion := reread_int (fits_of_nat32 storable.storyVersion)
  have turn := reread_int (fits_int32 save.turn)
  have seed := reread_int (fits_int32 save.seed)
  have draw := reread_int (fits_int32 save.previousDraw)
  rw [write, Json.reread, rereadMembers_eq] at written
  obtain rfl := object.inj written
  have output : Json.reread (.array save.output) = .array (save.output.map Json.reread) := by
    rw [Json.reread, rereadItems_eq]
  have evaluation : Json.reread (.array save.evaluation) =
      .array (save.evaluation.map Json.reread) := by
    rw [Json.reread, rereadItems_eq]
  have globals : Json.reread (.object save.globals) = .object (rereadAll save.globals) := by
    rw [Json.reread, rereadMembers_eq, rereadAll]
  have text (path : String) : (string path).reread = .string path := rfl
  by_cases alone : save.choiceThreads = [] <;> cases diverted : save.diverted <;>
    simp [read?, reread, optional?, required?, lookup?, textMember, memberIf, readText?, lookup,
      string?, array?, object?, int32?_int, threads, choices, choiceThreads, visits,
      turns, version, sameVersion, storyVersion, sameStoryVersion, turn, seed, draw, output, evaluation,
      globals, text, diverted, alone]

/-- The names of all members in order. -/
def memberNames : List String :=
  ["callstackThreads", "outputStream", "currentChoices", "choiceThreads", "variablesState",
    "evalStack", "currentDivertTarget", "visitCounts", "turnIndices", "turnIdx", "storySeed",
    "previousRandom", "inkSaveVersion", "inkFormatVersion"]

theorem sound_writeThreads (storable : save.Storable) :
    Sound (depth + 8) save.writeThreads := by
  have threads : Sound (depth + 7) (.array (save.threads.map SavedThread.write)) :=
    .array (forall_mem_map.mpr fun thread member =>
      SavedThread.sound_write (storable.threads thread member))
  refine .object (by simp) ?_
  simp only [mem_cons, not_mem_nil, or_false, forall_eq_or_imp, forall_eq]
  exact ⟨threads, sound_int (fits_of_nat64 storable.threadCounter)⟩

theorem sound_table {Record : Type} {records : List (String × Record)} (write : Record → Json)
    (distinct : (records.map Prod.fst).Nodup)
    (sound : ∀ record ∈ records, Json.Sound depth (write record.2)) :
    Json.Sound (depth + 1) (.object (records.map fun record => (record.1, write record.2))) := by
  refine .object ?_ (forall_mem_map.mpr sound)
  rw [map_map]
  exact distinct

theorem sound_write (storable : save.Storable) : Sound (depth + 9) save.write := by
  have choices : Sound (depth + 8) (.array (save.choices.map SavedChoice.write)) :=
    .array (forall_mem_map.mpr fun choice member =>
      SavedChoice.sound_write (storable.choices choice member))
  have choiceThreads : Sound (depth + 8)
      (.object (save.choiceThreads.map fun named => (named.1, named.2.write))) :=
    sound_table SavedThread.write storable.choiceNames fun named member =>
      SavedThread.sound_write (storable.choiceThreads named member)
  have globals : Sound (depth + 8) (.object save.globals) :=
    .object storable.globalNames fun member written =>
      storable.globals _ _ (mem_map_of_mem written)
  have visits : Sound (depth + 8)
      (.object (save.visits.map fun counted => (counted.1, int counted.2))) :=
    sound_table (fun count : Nat => int count) storable.visitNames fun counted member =>
      sound_int (fits_of_nat32 (storable.visits counted member))
  have turns : Sound (depth + 8)
      (.object (save.turns.map fun noted => (noted.1, int noted.2.toInt))) :=
    sound_table (fun turn : Int32 => int turn.toInt) storable.turnNames fun noted _ =>
      sound_int (fits_int32 _)
  refine .object ?_ ?_
  · refine Nodup.sublist ?_ (show memberNames.Nodup by decide)
    simp only [map_append]
    exact (((Sublist.append (.refl _) (names_memberIf _)).append (.refl _)).append
      (names_textMember _)).append (.refl _)
  · simp only [forall_mem_append, mem_cons, not_mem_nil, or_false, forall_eq_or_imp, forall_eq]
    exact ⟨⟨⟨⟨⟨sound_writeThreads storable, .array (storable.output _), choices⟩,
      sound_memberIf _ choiceThreads⟩, globals, .array (storable.evaluation _)⟩, sound_textMember _⟩,
      visits, turns, sound_int (fits_int32 _), sound_int (fits_int32 _),
      sound_int (fits_int32 _), sound_int (fits_of_nat32 storable.version),
      sound_int (fits_of_nat32 storable.storyVersion)⟩

theorem member?_version (storable : save.Storable) :
    (save.write.reread.member? "inkSaveVersion").bind nat64? = some save.version := by
  have same := reread_int (fits_of_nat32 storable.version)
  have version : (int save.version).nat64? = some save.version := by
    refine nat64?_int (storable.version.trans ?_)
    decide
  rw [write, Json.reread, rereadMembers_eq, member?]
  by_cases alone : save.choiceThreads = [] <;> cases save.diverted <;>
    simp [textMember, memberIf, lookup, same, alone, version]

/-- A save is read back from its text. -/
theorem parse_render (storable : save.Storable) (current : oldestVersion ≤ save.version) :
    parse save.write.render = .ok save.reread := by
  have sound : Sound maxDepth save.write := sound_write storable
  have text := parse?_render sound
  have version := member?_version storable
  obtain ⟨members, written⟩ : ∃ members, save.write.reread = .object members :=
    ⟨_, by rw [write, Json.reread]⟩
  have read : save.write.reread.object?.bind read? = some save.reread := by
    rw [written]
    exact read?_write storable written
  have recent : ¬save.version < oldestVersion := Nat.not_lt.mpr current
  simp only [parse, text, version, read, recent]
  rfl

end Save

end InkStory
