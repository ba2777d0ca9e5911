import InkStory.Program.Writer
import InkStory.Proofs.Changes
import InkStory.Proofs.Fractions
import InkStory.Proofs.JsonText
import InkStory.Save.Reader

/-! # Values and objects read back

A value is read back from its JSON form, except for what the form cannot hold: numbers that are not
finite, and names of lists with a dot in them (`Value.restore_write`). The objects of the evaluation
stack and of the output are read back as their values are (`Content.restore_write`). -/

namespace InkStory

open Table

namespace Item

theorem parse_dotted {origin : List Char} (undotted : '.' ∉ origin) (name : List Char) :
    parse (String.ofList (origin ++ '.' :: name)) =
      if origin = ['?'] then ⟨none, String.ofList name⟩
      else ⟨some (String.ofList origin), String.ofList name⟩ := by
  have passes : ∀ c ∈ origin, (c != '.') := fun c member =>
    bne_iff_ne.mpr fun dot => undotted (dot ▸ member)
  have before : (origin ++ '.' :: name).takeWhile (· != '.') = origin := by
    rw [List.takeWhile_append_of_pos passes]
    simp
  have behind : (origin ++ '.' :: name).dropWhile (· != '.') = '.' :: name := by
    rw [List.dropWhile_append_of_pos passes]
    simp
  simp only [parse, String.toList_ofList, List.span_eq_takeWhile_dropWhile, before, behind]

/-- A text with a dot is the full name of the item it is read as. -/
theorem fullName_parse {text : String} (dotted : '.' ∈ text.toList) :
    (parse text).fullName = text := by
  obtain ⟨origin, name, split, undotted⟩ := List.eq_append_cons_of_mem dotted
  have same : text = String.ofList (origin ++ '.' :: name) := by
    rw [← split, String.ofList_toList]
  rw [same, parse_dotted undotted, ← String.toList_inj]
  split
  · next unknown => simp [fullName, unknown]
  · simp [fullName]

theorem dotted_fullName (item : Item) : '.' ∈ item.fullName.toList := by simp [fullName]

/-- An item is read back from its full name, if the name of its list is told from the item's. -/
theorem parse_fullName {item : Item}
    (known : ∀ origin, item.origin = some origin → '.' ∉ origin.toList ∧ origin ≠ "?") :
    parse item.fullName = item := by
  have dotted : item.fullName =
      String.ofList ((item.origin.getD "?").toList ++ '.' :: item.name.toList) := by
    rw [← String.toList_inj]
    simp [fullName]
  obtain ⟨origin, name⟩ := item
  cases origin with
  | none =>
    have undotted : '.' ∉ "?".toList := by decide
    rw [dotted, Option.getD_none, parse_dotted undotted]
    simp
  | some origin =>
    obtain ⟨undotted, other⟩ := known origin rfl
    have different : origin.toList ≠ ['?'] := fun same => other (by
      rw [← String.toList_inj, same]
      rfl)
    rw [dotted, Option.getD_some, parse_dotted undotted, if_neg different]
    simp

end Item

namespace ItemSet

/-- A set as it is stored: by the full names of its items, and by its lists only if it is empty. -/
def stored (set : ItemSet) : ItemSet where
  items := Table.ofList (set.toList.map (renamed (fun item => Item.parse item.fullName) id))
  remembered := if set.isEmpty then set.remembered else []

/-- A set whose lists can be told from their items is stored as it is, up to lists that it would
remember if it were empty. -/
theorem stored_items {set : ItemSet}
    (known : ∀ item ∈ set.items.keys, ∀ origin, item.origin = some origin →
      '.' ∉ origin.toList ∧ origin ≠ "?") :
    set.stored.items = set.items := by
  have same : set.toList.map (renamed (fun item => Item.parse item.fullName) id) =
      set.items.entries := by
    refine (List.map_congr_left fun pair member => ?_).trans (List.map_id _)
    have read := Item.parse_fullName (known pair.1 (List.mem_map_of_mem member))
    simp [renamed, read]
  rw [stored, same]
  exact ofList_entries _

end ItemSet

namespace Value

/-- A value whose numbers can be stored: the height of a frame has 31 bits. -/
def Fits : Value → Prop
  | .variablePointer _ (.frame height) => height + 1 < 2 ^ 31
  | _ => True

instance : DecidablePred Fits
  | .variablePointer _ (.frame height) => inferInstanceAs (Decidable (height + 1 < 2 ^ 31))
  | .variablePointer _ .unknown | .variablePointer _ .global => .isTrue trivial
  | .void | .bool _ | .int _ | .float _ | .list _ | .string _ | .divertTarget _ => .isTrue trivial

/-- A value as it is stored. -/
def stored : Value → Value
  | .float number => .float number.stored
  | .list set => .list set.stored
  | .divertTarget target => .divertTarget (Path.parse target.text)
  | value => value

end Value

/-- An object as it is stored. -/
def Content.stored : Content → Content
  | .value held => .ofValue held.stored
  | content => content

namespace Content

open Json

theorem readInt_int (subject : String) (number : Int32) :
    readInt subject (int number.toInt) = .ok number := by
  rw [readInt, int32?_int]

theorem read_int (number : Int32) : read (int number.toInt) = .ok (.value (.int number)) := by
  have low := Int32.le_toInt number
  have high := Int32.toInt_lt number
  have whole : (int number.toInt).int64?.isSome := by
    rw [int64?_int (by omega) (by omega)]
    rfl
  have integer := readInt_int "integer value" number
  unfold int at whole integer
  simp only [int, read, whole, integer]
  rfl

theorem readText_marked (text : String) : readText ("^" ++ text) = .ok (ofText text) := by
  have marked : ("^" ++ text).toList = '^' :: text.toList := by simp
  simp [readText]

theorem readText_token (command : Command) : readText command.token = .ok (.command command) := by
  cases command <;> rfl

theorem readText_void : readText "void" = .ok .void := rfl

theorem readText_glue : readText "<>" = .ok .glue := rfl

theorem readText_newline : readText "\n" = .ok (ofText "\n") := rfl

theorem mapM_ok {α β γ ε : Type} {read : β → Except ε γ} {write : α → β} {found : α → γ}
    {records : List α} (reads : ∀ record ∈ records, read (write record) = .ok (found record)) :
    (records.map write).mapM read = .ok (records.map found) := by
  induction records with
  | nil => rfl
  | cons record rest ih =>
    have first := reads record List.mem_cons_self
    have others := ih fun record member => reads record (List.mem_cons_of_mem _ member)
    rw [List.map_cons, List.mapM_cons, first, others]
    rfl

end Content

namespace Value

variable {set : ItemSet} {context : Context} {name : String} {value : Value}

/-- The items of a set under their full names. -/
def named (set : ItemSet) : Table String Int32 :=
  ofList (set.toList.map (renamed Item.fullName id))

/-- The JSON forms of the items of a set. -/
def writtenItems (set : ItemSet) : List (String × Json) :=
  (named set).entries.map (renamed id fun number => Json.int number.toInt)

theorem entries_written (set : ItemSet) :
    (Table.ofList (set.toList.map fun (item, number) => (item.fullName, Json.int number.toInt))).entries =
      writtenItems set := by
  rw [writtenItems, named, ← Table.entries_ofList_renamed (id : String → String)
    (fun number : Int32 => Json.int number.toInt) fun _ _ _ _ same => same, List.map_map]
  rfl

theorem stored_eq_named (set : ItemSet) :
    ofList ((named set).entries.map (Table.renamed Item.parse id)) = set.stored.items := by
  have apart : ∀ name ∈ (set.toList.map (Table.renamed Item.fullName id)).map Prod.fst,
      '.' ∈ name.toList := by
    intro name member
    obtain ⟨pair, listed, rfl⟩ := List.mem_map.mp member
    obtain ⟨entry, -, rfl⟩ := List.mem_map.mp listed
    exact Item.dotted_fullName entry.1
  have entries := entries_ofList_renamed Item.parse (id : Int32 → Int32)
    fun name member former other same => by
      rw [← Item.fullName_parse (apart name member), ← Item.fullName_parse (apart former other), same]
  rw [named, ← entries, ofList_entries, List.map_map]
  rfl

theorem readItem_written :
    (writtenItems set).mapM Content.readItem =
      .ok ((named set).entries.map (renamed Item.parse id)) := by
  refine Content.mapM_ok fun entry _ => ?_
  simp only [Content.readItem, renamed, Content.readInt_int]
  rfl

theorem readItems_write {members : List (String × Json)}
    (origins : Content.readOrigins members = set.stored.remembered) :
    Content.readItems members (.object (writtenItems set)) = .ok (.value (.list set.stored)) := by
  have items : ItemSet.insertAll ⟨{}, set.stored.remembered⟩
      ((named set).entries.map (renamed Item.parse id)) = set.stored :=
    congrArg (ItemSet.mk · set.stored.remembered) (stored_eq_named set)
  simp only [Content.readItems, Json.object?, readItem_written, origins]
  change Except.ok (Content.value (.list (ItemSet.insertAll _ _))) = _
  rw [items]

theorem reread_writtenItems (set : ItemSet) :
    (writtenItems set).map (fun member => (member.1, member.2.reread)) = writtenItems set := by
  refine (List.map_congr_left fun member written => ?_).trans (List.map_id _)
  obtain ⟨entry, -, rfl⟩ := List.mem_map.mp written
  simp [renamed, Json.reread_int (Json.fits_int32 _)]

/-- The member that holds the lists which a set remembers. -/
def originMembers (set : ItemSet) : List (String × Json) :=
  if set.isEmpty && !set.origins.isEmpty then
    [("origins", .array (set.origins.map Json.string))]
  else []

theorem write_list (set : ItemSet) :
    write (.list set) = .object (("list", .object (writtenItems set)) :: originMembers set) := by
  simp only [write, entries_written]
  rfl

theorem readOrigins_write (set : ItemSet) :
    Content.readOrigins (("list", .object (writtenItems set)) :: originMembers set) =
      set.stored.remembered := by
  have texts (names : List String) : (names.map Json.string).filterMap Json.string? = names := by
    rw [List.filterMap_map]
    exact List.filterMap_some
  have empty : set.isEmpty → set.origins = set.remembered := fun empty => by
    rw [ItemSet.origins, if_pos empty]
  unfold originMembers
  cases isEmpty : set.isEmpty with
  | false => simp [Content.readOrigins, ItemSet.stored, isEmpty, List.lookup]
  | true =>
    rw [empty isEmpty]
    cases remembered : set.remembered with
    | nil => simp [Content.readOrigins, ItemSet.stored, remembered, List.lookup]
    | cons first rest =>
      have found := texts (first :: rest)
      rw [List.map_cons] at found
      simp [Content.readOrigins, ItemSet.stored, isEmpty, remembered, List.lookup, Json.array?,
        found]

theorem reread_strings (names : List String) :
    Json.rereadItems (names.map Json.string) = names.map Json.string := by
  rw [Json.rereadItems_eq, List.map_map]
  rfl

theorem reread_write_list (set : ItemSet) : (write (.list set)).reread = write (.list set) := by
  rw [write_list, Json.reread, Json.rereadMembers_eq, List.map_cons]
  have origins : (originMembers set).map (fun member => (member.1, member.2.reread)) =
      originMembers set := by
    unfold originMembers
    split
    · simp only [List.map_cons, List.map_nil, Json.reread, reread_strings]
    · rfl
  rw [origins, Json.reread, Json.rereadMembers_eq, reread_writtenItems]

theorem read_write_list (set : ItemSet) :
    Content.read (write (.list set)) = .ok (.value (.list set.stored)) := by
  have items := readItems_write (readOrigins_write set)
  rw [write_list, Content.read]
  unfold originMembers at items ⊢
  split
  · next remembers =>
    rw [if_pos remembers] at items
    simpa [Content.readMembers, Content.memberReaders, Content.divertKinds] using items
  · next forgets =>
    rw [if_neg forgets] at items
    simpa [Content.readMembers, Content.memberReaders, Content.divertKinds] using items

theorem fits_number (fits : (variablePointer name context).Fits) :
    ∃ number : Int32, number.toInt = context.number ∧ Context.ofNumber number.toInt = context := by
  have bounds : -2 ^ 31 ≤ context.number ∧ context.number < 2 ^ 31 := by
    cases context with
    | unknown => decide
    | global => decide
    | frame height =>
      simp only [Fits] at fits
      simp only [Context.number]
      omega
  have same : (Int32.ofInt context.number).toInt = context.number :=
    Int32.toInt_ofInt_of_le bounds.1 bounds.2
  refine ⟨Int32.ofInt context.number, same, ?_⟩
  rw [same]
  cases context <;> rfl

theorem read_write_pointer (fits : (variablePointer name context).Fits) :
    Content.read (write (.variablePointer name context)).reread =
      .ok (.value (.variablePointer name context)) := by
  obtain ⟨number, same, found⟩ := fits_number fits
  have integer := Content.readInt_int "variable pointer context" number
  rw [write, ← same]
  simp only [Json.reread, Json.rereadMembers]
  rw [Json.reread_int (Json.fits_int32 number)]
  have reader : Content.readMembers
      [("^var", .string name), ("ci", .int number.toInt)] =
      Content.readPointer [("^var", .string name), ("ci", .int number.toInt)] (.string name) := by
    simp [Content.readMembers, Content.memberReaders]
  refine reader.trans ?_
  simp only [Content.readPointer, List.lookup, String.reduceBEq, integer]
  exact congrArg (fun context => Except.ok (Content.value (.variablePointer name context))) found

/-- A value is read back as it is stored. -/
theorem read_write (fits : value.Fits) :
    Content.read value.write.reread = .ok (.ofValue value.stored) := by
  cases value with
  | void => exact Content.readText_void
  | bool truth => rfl
  | int number =>
    rw [write, Json.reread_int (Json.fits_int32 number), Content.read_int]
    rfl
  | float number =>
    obtain ⟨-, negative, magnitude, read, narrow⟩ := Json.Number.reread_ofSingle number
    rw [write, Json.reread, read, stored, ← narrow]
    rfl
  | list set =>
    rw [reread_write_list, read_write_list]
    rfl
  | string text =>
    rw [write]
    split
    · next newline =>
      rw [newline]
      exact Content.readText_newline
    · exact Content.readText_marked text
  | divertTarget target => rfl
  | variablePointer name context =>
    rw [read_write_pointer fits]
    rfl

theorem sound_write {depth : Nat} (fits : value.Fits) : Json.Sound (depth + 2) value.write := by
  cases value with
  | void => exact .string _
  | bool truth => exact .bool truth
  | int number => exact Json.sound_int (Json.fits_int32 number)
  | float number => exact .number (Json.Number.reread_ofSingle number).1
  | string text =>
    rw [write]
    split
    all_goals exact .string _
  | divertTarget target =>
    refine .object (by simp) fun member written => ?_
    obtain rfl := List.mem_singleton.mp written
    exact .string _
  | variablePointer name context =>
    obtain ⟨number, same, -⟩ := fits_number fits
    rw [write, ← same]
    refine .object (by simp) ?_
    simp only [List.mem_cons, List.not_mem_nil, or_false, forall_eq_or_imp, forall_eq]
    exact ⟨.string _, Json.sound_int (Json.fits_int32 number)⟩
  | list set =>
    have items : Json.Sound (depth + 1) (.object (writtenItems set)) := by
      refine .object ?_ fun member written => ?_
      · rw [← entries_written]
        exact distinct _
      · obtain ⟨entry, -, rfl⟩ := List.mem_map.mp written
        exact Json.sound_int (Json.fits_int32 _)
    rw [write_list]
    unfold originMembers
    split
    · refine .object (by simp) ?_
      simp only [List.mem_cons, List.not_mem_nil, or_false, forall_eq_or_imp, forall_eq]
      refine ⟨items, .array fun item member => ?_⟩
      obtain ⟨name, -, rfl⟩ := List.mem_map.mp member
      exact .string name
    · refine .object (by simp) ?_
      simpa using items

/-- A value is restored from its JSON form. -/
theorem restore_write (fits : value.Fits) : restore value.write.reread = .ok value.stored := by
  have read := read_write fits
  simp only [restore, Content.restore, read]
  cases value <;> rfl

end Value

namespace Content

variable {program : Program} {origin : Place} {content : Content}

/-- An object whose numbers can be stored. -/
def Fits : Content → Prop
  | .value held => held.Fits
  | _ => True

instance : DecidablePred Fits
  | .value held => inferInstanceAs (Decidable held.Fits)
  | .command _ | .divert _ | .choicePoint _ | .variable _ | .readCount _ | .assignment _
  | .operator _ | .glue | .tag _ | .void => .isTrue trivial

theorem sound_write {depth : Nat} (plain : content.isPlain) (fits : content.Fits) :
    Json.Sound (depth + 2) (content.write program origin) := by
  cases content with
  | value held => exact Value.sound_write fits
  | command given => exact .string _
  | glue => exact .string _
  | tag text =>
    refine .object (by simp) fun member written => ?_
    obtain rfl := List.mem_singleton.mp written
    exact .string _
  | void => exact .string _
  | divert _ | choicePoint _ | «variable» _ | readCount _ | assignment _ | operator _ =>
    contradiction

/-- An object of the evaluation stack or of the output is restored from its JSON form. -/
theorem restore_write (plain : content.isPlain) (fits : content.Fits) :
    restore (content.write program origin).reread = .ok content.stored := by
  have read : read (content.write program origin).reread = .ok content.stored := by
    cases content with
    | value held => exact Value.read_write fits
    | command given => exact readText_token given
    | glue => exact readText_glue
    | tag text => rfl
    | void => exact readText_void
    | divert _ | choicePoint _ | «variable» _ | readCount _ | assignment _ | operator _ =>
      contradiction
  rw [restore, read]

end Content

end InkStory
