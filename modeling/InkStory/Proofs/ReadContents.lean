import InkStory.Proofs.ReadTrees
import InkStory.Proofs.Restoring

/-! # Objects of a story read back

An object that was read is written in a form that is nested no deeper than the one it was read from
(`Content.gives_height`), and that is read as the same object again, but for the spelling of its
paths, for numbers that are not finite and for lists that a set with items remembers
(`Content.read_write`). -/

namespace InkStory

variable {depth : Nat} {program : Program} {origin : Place} {members : List (String × Json)}
  {json : Json} {content : Content} {key text : String} {divert : Divert}

variable {value : Value}

/-- A path as it is read back where it is used. -/
def Program.respelled (program : Program) (origin : Place) (path : Path) : Path :=
  Path.parse (program.compactText origin path)

namespace Divert

/-- A divert as it can be read: the host is called without a frame, and no divert pushes the frame
of a call by the host. -/
structure AsRead (divert : Divert) : Prop where
  pushes : divert.pushes ≠ some .hostCall
  external : ∀ function arguments, divert.target = .external function arguments →
    divert.pushes = none ∧ arguments < 2 ^ 31

/-- A divert as it is read back at a place. -/
def rewritten (program : Program) (origin : Place) (divert : Divert) : Divert :=
  match divert.target with
  | .path path => { divert with target := .path (program.respelled origin path) }
  | .variable _ | .external _ _ => divert

end Divert

namespace Value

/-- A value as it can be read. -/
def AsRead : Value → Prop
  | .void => False
  | .list set => ∀ item ∈ set.items.keys, ∃ text, item = Item.parse text
  | .divertTarget target => target.Canonical
  | .variablePointer name context => (variablePointer name context).Fits
  | .bool _ | .int _ | .float _ | .string _ => True

end Value

namespace Content

/-- An object as it can be read. -/
def AsRead : Content → Prop
  | .value held => held.AsRead
  | .divert jump => jump.AsRead
  | .choicePoint point => point.target.Canonical
  | _ => True

/-- How deep the JSON form of an object is nested. -/
def height : Content → Nat
  | .value (.list _) => 2
  | .value (.divertTarget _) | .value (.variablePointer _ _) => 1
  | .divert _ | .choicePoint _ | .variable _ | .readCount _ | .assignment _ | .tag _ => 1
  | _ => 0

/-- An object as it is read back at a place. -/
def rewritten (program : Program) (origin : Place) : Content → Content
  | .value held => .value held.stored
  | .divert jump => .divert (jump.rewritten program origin)
  | .choicePoint point =>
    .choicePoint { point with target := program.respelled origin point.target }
  | .readCount path => .readCount (program.respelled origin path)
  | content => content

/-! ### Objects that were read -/

theorem asRead_readText (text : String) :
    Gives (fun content => content.AsRead ∧ content.height = 0) (readText text) := by
  unfold readText
  split
  · exact gives_ok ⟨trivial, rfl⟩
  · split
    · exact gives_ok ⟨trivial, rfl⟩
    · split
      · exact gives_ok ⟨trivial, rfl⟩
      · split
        · exact gives_ok ⟨trivial, rfl⟩
        · split
          · exact gives_ok ⟨trivial, rfl⟩
          · split
            · exact gives_ok ⟨trivial, rfl⟩
            · exact gives_error _

/-- An object that is written as a member: only a set has a JSON object as its member. -/
def AsMember (json : Json) (content : Content) : Prop :=
  content.AsRead ∧ (2 ≤ content.height → json.object?.isSome)

theorem asMember_of_height (asRead : content.AsRead) (low : content.height = 1) :
    content.AsMember json := by
  refine ⟨asRead, fun high => ?_⟩
  omega

theorem fits_ofNumber (name : String) (number : Int32) :
    (Value.variablePointer name (Context.ofNumber number.toInt)).Fits := by
  have high := Int32.toInt_lt number
  generalize number.toInt = value at high ⊢
  cases value with
  | negSucc _ => trivial
  | ofNat count =>
    cases count with
    | zero => trivial
    | succ height =>
      rw [Int.ofNat_eq_natCast] at high
      have small : height + 1 < 2 ^ 31 := by omega
      exact small

theorem asMember_readPointer : Gives (AsMember json) (readPointer members json) := by
  have pointer {context : Context} (fits : ∀ name, (Value.variablePointer name context).Fits) :
      Gives (AsMember json) (readString "variable pointer" json >>= fun name =>
        .ok (.value (.variablePointer name context))) :=
    gives_bind fun name => gives_ok (asMember_of_height (fits name) rfl)
  unfold readPointer
  split
  · exact gives_bind fun number => pointer fun name => fits_ofNumber name number
  · exact pointer fun name => trivial

/-- A kind of divert that can be read. -/
theorem asMember_readDivert {pushes : Option FrameKind} {isExternal : Bool}
    (host : pushes ≠ some .hostCall) (alone : isExternal → pushes = none) :
    Gives (AsMember json) (readDivert members pushes isExternal json) := by
  have divert {target : DivertTarget} (asRead : Divert.AsRead
      ⟨target, pushes, (members.lookup "c").isSome⟩) : Gives (AsMember json)
        (.ok (.divert ⟨target, pushes, (members.lookup "c").isSome⟩) :
          Except FormatFault Content) :=
    gives_ok (asMember_of_height asRead rfl)
  refine gives_bind fun name => ?_
  split
  · next external =>
    have counted : Gives (fun target => ∃ count, target = .external name count ∧ count < 2 ^ 31)
        (readExternal members name) := by
      unfold readExternal
      split
      · exact gives_ok ⟨0, rfl, by decide⟩
      · refine gives_bind fun number => gives_ok ⟨_, rfl, ?_⟩
        have high := Int32.toInt_lt number
        omega
    refine counted.bind fun target known => divert ⟨host, fun function arguments same => ?_⟩
    obtain ⟨count, rfl, small⟩ := known
    cases same
    exact ⟨alone external, small⟩
  · split <;> exact divert ⟨host, fun _ _ same => DivertTarget.noConfusion same⟩

theorem asMember_readItems : Gives (AsMember json) (readItems members json) := by
  unfold readItems
  split
  · next items object =>
    have parsed : Gives (List.Forall₂ (fun _ pair => ∃ text, pair.1 = Item.parse text) items)
        (items.mapM readItem) :=
      Gives.mapM fun member _ => gives_bind fun number => gives_ok ⟨member.1, rfl⟩
    refine parsed.bind fun pairs known => gives_ok ⟨fun item kept => ?_, fun _ => ?_⟩
    · obtain ⟨entry, among, rfl⟩ := List.mem_map.mp kept
      have listed : entry ∈ pairs := Table.mem_of_mem_ofList among
      obtain ⟨member, -, text, same⟩ := exists_of_forall₂ known listed
      exact ⟨text, same⟩
    · rw [object]
      rfl
  · exact gives_error _

theorem asMember_memberReaders {reader : List (String × Json) → Json → Except FormatFault Content}
    (listed : (key, reader) ∈ memberReaders) (members : List (String × Json)) (json : Json) :
    Gives (AsMember json) (reader members json) := by
  simp only [memberReaders, divertKinds, List.map_cons, List.map_nil, List.cons_append,
    List.nil_append, List.mem_cons, List.not_mem_nil, or_false] at listed
  have plain {content : String → Content} {subject : String}
      (asRead : ∀ text, (content text).AsRead) (low : ∀ text, (content text).height = 1) :
      Gives (AsMember json) (readString subject json >>= fun text => .ok (content text)) :=
    gives_bind fun text => gives_ok (asMember_of_height (asRead text) (low text))
  rcases listed with ⟨-, rfl⟩ | ⟨-, rfl⟩ | ⟨-, rfl⟩ | ⟨-, rfl⟩ | ⟨-, rfl⟩ | ⟨-, rfl⟩ | ⟨-, rfl⟩ |
    ⟨-, rfl⟩ | ⟨-, rfl⟩ | ⟨-, rfl⟩ | ⟨-, rfl⟩ | ⟨-, rfl⟩ | ⟨-, rfl⟩
  · exact plain (fun text => Path.canonical_parse text) fun _ => rfl
  · exact asMember_readPointer
  · exact asMember_readDivert (by decide) fun _ => rfl
  · exact asMember_readDivert (by decide) (by decide)
  · exact asMember_readDivert (by decide) (by decide)
  · exact asMember_readDivert (by decide) fun _ => rfl
  · refine gives_bind fun flags => gives_bind fun text => gives_ok ?_
    exact asMember_of_height (Path.canonical_parse text) rfl
  · exact plain (fun _ => trivial) fun _ => rfl
  · exact plain (fun _ => trivial) fun _ => rfl
  · exact plain (fun _ => trivial) fun _ => rfl
  · exact plain (fun _ => trivial) fun _ => rfl
  · exact plain (fun _ => trivial) fun _ => rfl
  · exact asMember_readItems

theorem height_le_two (content : Content) : content.height ≤ 2 := by
  unfold height
  split <;> decide

/-- What is read can be written in a form that is nested no deeper than what it was read from. -/
theorem asRead_read (json : Json) :
    Gives (fun content => content.AsRead ∧ ∀ depth, json.Nested depth → content.height ≤ depth)
      (read json) := by
  have leaf {found : Except FormatFault Content}
      (gives : Gives (fun content => content.AsRead ∧ content.height = 0) found) :
      Gives (fun content => content.AsRead ∧ ∀ depth, json.Nested depth → content.height ≤ depth)
        found := by
    intro content read
    obtain ⟨asRead, low⟩ := gives content read
    refine ⟨asRead, fun depth _ => ?_⟩
    rw [low]
    exact Nat.zero_le depth
  unfold read
  split
  · exact leaf (gives_ok ⟨trivial, rfl⟩)
  · split
    · exact leaf (gives_bind fun _ => gives_ok ⟨trivial, rfl⟩)
    · exact leaf (gives_ok ⟨trivial, rfl⟩)
  · exact leaf (asRead_readText _)
  · next members =>
    unfold readMembers
    dsimp only
    split
    · next content first =>
      obtain ⟨⟨key, reader⟩, listed, found⟩ := List.mem_filterMap.mp (List.mem_of_head? first)
      obtain ⟨json, there, rfl⟩ := Option.map_eq_some_iff.mp found
      intro content read
      obtain ⟨asRead, high⟩ := asMember_memberReaders listed members json content read
      refine ⟨asRead, fun depth nested => ?_⟩
      cases nested with
      | @object depth _ _ inside =>
        have member := inside _ (Table.mem_of_lookup there)
        by_cases deep : 2 ≤ content.height
        · obtain ⟨items, object⟩ := Option.isSome_iff_exists.mp (high deep)
          have low := content.height_le_two
          cases json with
          | object items =>
            cases member
            omega
          | _ => contradiction
        · omega
    · exact gives_error _
  · exact gives_error _
  · exact gives_error _

end Content

namespace Program

/-- The objects of a program that was read are as they can be read. -/
theorem asRead_of_holds (read : read text = .ok program) {place : Place}
    (holds : program.Holds place content) : content.AsRead := by
  obtain ⟨pointer, object⟩ := holds
  obtain ⟨index, -, -, there⟩ := node_of_objectAt object
  have everywhere : program.root.Everywhere (Container.AsRead Content.AsRead) :=
    asRead_read (fun json content read => (Content.asRead_read json content read).1) read
  have inner := everywhere.find (find_container (has_of_node there))
  exact inner.here.contents content (List.mem_of_getElem? there)

/-- The targets of the choices of a program that was read can be written. -/
theorem targeted_of_read (read : read text = .ok program) : program.Targeted :=
  fun _ _ holds => asRead_of_holds read holds

end Program

/-! ### Objects read back -/

theorem Value.AsRead.fits (asRead : value.AsRead) : value.Fits := by
  cases value with
  | variablePointer name context => exact asRead
  | _ => trivial

theorem Value.read_write_asRead (asRead : value.AsRead) :
    Content.read value.write.reread = .ok (.value value.stored) := by
  rw [Value.read_write asRead.fits]
  cases value with
  | void => exact asRead.elim
  | _ => rfl

theorem ChoicePoint.flags_lt (point : ChoicePoint) : point.flags < 2 ^ 31 := by
  have first := Bool.toNat_le point.hasCondition
  have second := Bool.toNat_le point.hasStartContent
  have third := Bool.toNat_le point.hasChoiceOnlyContent
  have fourth := Bool.toNat_le point.isInvisibleDefault
  have fifth := Bool.toNat_le point.isOnceOnly
  unfold ChoicePoint.flags
  omega

/-- The properties of a choice point are read off the number that they are written as. -/
theorem ChoicePoint.ofFlags_flags (target : Path) (point : ChoicePoint) :
    ofFlags target point.flags = { point with target := target } := by
  have bits : ∀ first second third fourth fifth : Bool,
      let number := first.toNat + 2 * second.toNat + 4 * third.toNat + 8 * fourth.toNat +
        16 * fifth.toNat
      number.testBit 0 = first ∧ number.testBit 1 = second ∧ number.testBit 2 = third ∧
        number.testBit 3 = fourth ∧ number.testBit 4 = fifth := by
    decide
  obtain ⟨_, condition, start, choiceOnly, invisible, once⟩ := point
  obtain ⟨first, second, third, fourth, fifth⟩ := bits condition start choiceOnly invisible once
  simp only [ofFlags, flags, first, second, third, fourth, fifth]

namespace Divert

theorem read_write (asRead : divert.AsRead) :
    Content.read (divert.write program origin).reread =
      .ok (.divert (divert.rewritten program origin)) := by
  obtain ⟨target, pushes, isConditional⟩ := divert
  obtain ⟨host, external⟩ := asRead
  cases target with
  | path | «variable» =>
    rcases pushes with - | _ | _ | _
    · cases isConditional <;> rfl
    · cases isConditional <;> rfl
    · cases isConditional <;> rfl
    · exact absurd rfl host
  | external function arguments =>
    obtain ⟨rfl, small⟩ := external function arguments rfl
    cases arguments with
    | zero => cases isConditional <;> rfl
    | succ count =>
      obtain ⟨number, same⟩ : ∃ number : Int32, number.toInt = (count + 1 : Int) :=
        ⟨Int32.ofInt (count + 1), Int32.toInt_ofInt_of_le (by omega) (by omega)⟩
      have written : (Json.int (count + 1)).reread = .int number.toInt := by
        rw [← same, Json.reread_int (Json.fits_int32 number)]
      have counted := Content.readInt_int "external argument count" number
      have natural : number.toInt.toNat = count + 1 := by omega
      have reader (isConditional : Bool) (members : List (String × Json))
          (given : members.lookup "exArgs" = some (.int number.toInt))
          (condition : (members.lookup "c").isSome = isConditional) :
          Content.readDivert members none true (.string function) =
            .ok (.divert ⟨.external function (count + 1), none, isConditional⟩) := by
        simp only [Content.readDivert, Content.readString, Content.readExternal, given,
          condition, counted, natural, if_true, bind, Except.bind, pure, Except.pure]
      have form : (write program origin
          ⟨.external function (count + 1), none, isConditional⟩).reread =
          .object (("x()", .string function) ::
            ((if isConditional then [("c", .bool true)] else []) ++
              [("exArgs", .int number.toInt)])) := by
        rw [← written]
        cases isConditional <;> rfl
      rw [form]
      cases isConditional <;> exact reader _ _ rfl rfl

end Divert

namespace Content

theorem readText_operator (applied : Operator) :
    readText (if applied = .intersect then "L^" else applied.symbol) = .ok (.operator applied) := by
  cases applied <;> rfl

theorem readFlags_int {flags : Nat} (small : flags < 2 ^ 31) (subject : String) :
    readFlags subject (some (.int flags)) = .ok flags := by
  have same : (Int32.ofInt flags).toInt = flags := Int32.toInt_ofInt_of_le (by omega) (by omega)
  have bits : (Int32.ofInt flags).toBitVec.toNat = flags := by
    have signed : (Int32.ofInt flags).toBitVec.toInt = flags := same
    rw [BitVec.toInt_eq_toNat_cond] at signed
    split at signed <;> omega
  have read := readInt_int subject (Int32.ofInt flags)
  rw [same] at read
  simp only [readFlags, read, bits, bind, Except.bind, pure, Except.pure]

theorem read_write_choicePoint (point : ChoicePoint) :
    read (write program origin (.choicePoint point)).reread =
      .ok (.choicePoint { point with target := program.respelled origin point.target }) := by
  have small := point.flags_lt
  have form : (write program origin (.choicePoint point)).reread =
      .object [("*", .string (program.compactText origin point.target)),
        ("flg", .int point.flags)] := by
    have read : (Json.int point.flags).reread = .int point.flags :=
      Json.reread_int ⟨by omega, by omega⟩
    rw [← read]
    rfl
  have flags := readFlags_int small "choice flags"
  rw [form]
  change (readFlags "choice flags" (some (.int point.flags)) >>= fun flags =>
    Except.ok (choicePoint (.ofFlags (program.respelled origin point.target) flags))) = _
  rw [flags]
  change Except.ok (choicePoint (.ofFlags _ point.flags)) = _
  rw [ChoicePoint.ofFlags_flags]

theorem read_write (asRead : content.AsRead) :
    read (content.write program origin).reread = .ok (content.rewritten program origin) := by
  cases content with
  | value held => exact Value.read_write_asRead asRead
  | command given => exact readText_token given
  | divert jump => exact Divert.read_write asRead
  | choicePoint point => exact read_write_choicePoint point
  | «variable» name => rfl
  | readCount path => rfl
  | assignment target =>
    obtain ⟨name, isDeclaration, isGlobal⟩ := target
    cases isDeclaration <;> cases isGlobal <;> rfl
  | operator applied => exact readText_operator applied
  | glue => rfl
  | tag text => rfl
  | void => rfl

end Content

/-! ### Forms of objects -/

/-- A JSON value without others in it, which is read back from its text. -/
def Json.IsLeaf (json : Json) : Prop := ∀ depth, Json.Sound depth json

theorem Json.isLeaf_string (text : String) : (Json.string text).IsLeaf := fun _ => .string text

theorem Json.isLeaf_bool (truth : Bool) : (Json.bool truth).IsLeaf := fun _ => .bool truth

theorem Json.isLeaf_int {number : Int} (fits : Number.Fits number) : (Json.int number).IsLeaf :=
  fun _ => Json.sound_int fits

theorem Json.sound_object (inner : 1 ≤ depth) (distinct : (members.map Prod.fst).Nodup)
    (leaves : ∀ member ∈ members, member.2.IsLeaf) :
    Json.Sound depth (.object members) := by
  obtain ⟨depth, rfl⟩ := Nat.exists_eq_add_of_le' inner
  exact .object distinct fun member listed => leaves member listed depth

theorem Json.sound_object_singleton (inner : 1 ≤ depth) (leaf : json.IsLeaf) :
    Json.Sound depth (.object [(key, json)]) :=
  Json.sound_object inner (List.nodup_singleton _) (List.forall_mem_singleton.mpr leaf)

/-- A value is written no deeper than its height. -/
theorem Value.sound_write_asRead (asRead : value.AsRead)
    (low : (Content.value value).height ≤ depth) : Json.Sound depth value.write := by
  cases value with
  | list set =>
    obtain ⟨depth, rfl⟩ := Nat.exists_eq_add_of_le' low
    exact Value.sound_write asRead.fits
  | divertTarget target => exact Json.sound_object_singleton low (Json.isLeaf_string _)
  | variablePointer name context =>
    obtain ⟨number, same, -⟩ := Value.fits_number asRead
    rw [Value.write, ← same]
    refine Json.sound_object low (by simp) (List.forall_mem_cons.mpr ⟨Json.isLeaf_string _, ?_⟩)
    exact List.forall_mem_singleton.mpr (Json.isLeaf_int (Json.fits_int32 number))
  | void => exact .string _
  | bool truth => exact .bool truth
  | int number => exact Json.sound_int (Json.fits_int32 number)
  | float number => exact .number (Json.Number.reread_ofSingle number).1
  | string text =>
    rw [Value.write]
    split <;> exact .string _

theorem Divert.sound_write (asRead : divert.AsRead) (inner : 1 ≤ depth) :
    Json.Sound depth (divert.write program origin) := by
  obtain ⟨target, pushes, isConditional⟩ := divert
  cases target with
  | path | «variable» =>
    refine Json.sound_object inner ?_ ?_
    · rcases pushes with - | _ | _ | _ <;> cases isConditional <;> simp [Divert.key]
    · cases isConditional <;> simp [Json.isLeaf_string, Json.isLeaf_bool]
  | external function arguments =>
    obtain ⟨-, small⟩ := asRead.external function arguments rfl
    cases arguments with
    | zero =>
      refine Json.sound_object inner ?_ ?_
      · cases isConditional <;> simp [Divert.key]
      · cases isConditional <;> simp [Json.isLeaf_string, Json.isLeaf_bool]
    | succ count =>
      have counted : (Json.int (count + 1)).IsLeaf := Json.isLeaf_int ⟨by omega, by omega⟩
      refine Json.sound_object inner ?_ ?_
      · cases isConditional <;> simp [Divert.key]
      · cases isConditional <;> simp [Json.isLeaf_string, Json.isLeaf_bool, counted]

namespace Content

/-- An object is written no deeper than its height. -/
theorem sound_write_asRead (asRead : content.AsRead) (low : content.height ≤ depth) :
    Json.Sound depth (content.write program origin) := by
  cases content with
  | value held => exact Value.sound_write_asRead asRead low
  | divert jump => exact Divert.sound_write asRead low
  | choicePoint point =>
    have small := point.flags_lt
    have flags : (Json.int point.flags).IsLeaf := Json.isLeaf_int ⟨by omega, by omega⟩
    refine Json.sound_object low (by simp) (List.forall_mem_cons.mpr ⟨Json.isLeaf_string _, ?_⟩)
    exact List.forall_mem_singleton.mpr flags
  | assignment target =>
    obtain ⟨name, isDeclaration, isGlobal⟩ := target
    refine Json.sound_object low ?_ ?_
    · cases isDeclaration <;> cases isGlobal <;> simp
    · cases isDeclaration <;> simp [Json.isLeaf_string, Json.isLeaf_bool]
  | «variable» _ | readCount _ | tag _ =>
    exact Json.sound_object_singleton low (Json.isLeaf_string _)
  | command _ | operator _ | glue | void => exact .string _

end Content

/-! ### What an object is read back as -/

/-- What an object at a place is read back as: the same object, in which a path is respelled, a
number that is not finite is the greatest of its sign, and a set is one of the same items. -/
def Content.ReadsAs (program : Program) (origin : Place) : Content → Content → Prop
  | .value (.float number), again => again = .value (.float number.stored)
  | .value (.list set), again => ∃ other, again = .value (.list other) ∧ set.same other = true
  | .divert ⟨.path path, pushes, isConditional⟩, again =>
    again = .divert ⟨.path (program.respelled origin path), pushes, isConditional⟩
  | .choicePoint point, again =>
    again = .choicePoint { point with target := program.respelled origin point.target }
  | .readCount path, again => again = .readCount (program.respelled origin path)
  | content, again => again = content

theorem ItemSet.same_of_items {set other : ItemSet} (items : other.items = set.items) :
    set.same other := by
  rw [ItemSet.same, ItemSet.size, ItemSet.size, items, beq_self_eq_true, Bool.true_and,
    List.all_eq_true]
  intro entry member
  have found : set.items.get? entry.1 = some entry.2 :=
    Table.lookup_of_mem set.items.distinct member
  simp [found]

theorem Item.known_parse {origin : String} (known : (Item.parse text).origin = some origin) :
    '.' ∉ origin.toList ∧ origin ≠ "?" := by
  by_cases dotted : '.' ∈ text.toList
  · obtain ⟨before, name, split, undotted⟩ := List.eq_append_cons_of_mem dotted
    have same : text = String.ofList (before ++ '.' :: name) := by
      rw [← split, String.ofList_toList]
    rw [same, Item.parse_dotted undotted] at known
    split at known
    · contradiction
    · next different =>
      cases known
      refine ⟨by simpa using undotted, fun unknown => different ?_⟩
      rw [← String.toList_ofList (l := before), unknown]
      rfl
  · have whole : text.toList.dropWhile (· != '.') = [] := by
      rw [List.dropWhile_eq_nil_iff]
      intro c member
      exact bne_iff_ne.mpr fun dot => dotted (dot ▸ member)
    simp [Item.parse, whole] at known

theorem Content.AsRead.readsAs (asRead : content.AsRead) :
    content.ReadsAs program origin (content.rewritten program origin) := by
  cases content with
  | value held =>
    cases held with
    | list set =>
      refine ⟨set.stored, rfl, ItemSet.same_of_items ?_⟩
      refine ItemSet.stored_items fun item member => ?_
      obtain ⟨text, rfl⟩ := asRead item member
      exact fun origin => Item.known_parse
    | divertTarget target =>
      exact congrArg (fun target => Content.value (.divertTarget target))
        (Path.parse_text asRead)
    | _ => rfl
  | divert jump =>
    obtain ⟨target, pushes, isConditional⟩ := jump
    cases target <;> rfl
  | _ => rfl

end InkStory
