import InkStory.Proofs.ReadContents

/-! # Programs read back from their texts

A program that was read, in which containers can be told apart by their names, is written in a form
that is nested no deeper than the one it was read from, and is read back as the same tree with the
same lists, in which every object is the one that stood there, as `Content.rewritten` says. -/

namespace InkStory

open List

variable {container : Container} {terminator : Terminator} {program : Program} {address : Address}
  {source : String}

namespace Counting

theorem flags_lt (counting : Counting) : counting.flags < 2 ^ 31 := by
  obtain ⟨visits, turns, startOnly⟩ := counting
  cases visits <;> cases turns <;> cases startOnly <;> decide

/-- What is counted is read off the number that it is written as; how, where anything is. -/
theorem ofFlags_flags (counting : Counting) :
    ofFlags counting.flags =
      { counting with startOnly := counting.startOnly && (counting.visits || counting.turns) } := by
  obtain ⟨visits, turns, startOnly⟩ := counting
  cases visits <;> cases turns <;> cases startOnly <;> decide

end Counting

namespace Container

variable {listed : Bool}

/-! ### How deep a container is nested -/

mutual

/-- How deep the JSON form of a container is nested. -/
def height (listed : Bool) : Container → Nat
  | .mk name counting nodes named =>
    let closing :=
      if named.isEmpty && counting.flags == 0 && (listed || name.isNone) then 0
      else namedHeight named + 1
    max (nodesHeight nodes) closing + 1

/-- How deep the JSON forms of items are nested. -/
def nodesHeight : List (Node Container) → Nat
  | [] => 0
  | .content content :: rest => max content.height (nodesHeight rest)
  | .container inner :: rest => max (height false inner) (nodesHeight rest)

/-- How deep the JSON forms of containers that are reached by name only are nested. -/
def namedHeight : List (String × Container) → Nat
  | [] => 0
  | (_, inner) :: rest => max (height true inner) (namedHeight rest)

end

theorem namedHeight_append (first second : List (String × Container)) :
    namedHeight (first ++ second) = max (namedHeight first) (namedHeight second) := by
  induction first with
  | nil => simp [namedHeight]
  | cons entry rest ih =>
    rw [cons_append, namedHeight, namedHeight, ih, max_assoc]

/-- A container that is listed is not nested deeper, whatever its name is. -/
theorem height_withName_le (container : Container) (name : String) :
    height true (container.withName name) ≤ height false container := by
  obtain ⟨own, counting, nodes, named⟩ := container
  have same : height true (withName name (.mk own counting nodes named)) =
      height true (.mk own counting nodes named) := by
    cases own <;> simp [withName, height]
  rw [same, height, height]
  split
  · omega
  · split
    · next listed unlisted =>
      simp only [Bool.true_or, Bool.and_true, Bool.and_eq_true] at listed unlisted
      exact absurd unlisted.1 listed
    · omega

/-- How deep the JSON form of an item is nested. -/
def nodeHeight : Node Container → Nat
  | .content content => content.height
  | .container inner => height false inner

/-- How deep the JSON form of a terminator is nested. -/
def Terminator.height (terminator : Terminator) : Nat :=
  if terminator.named.isEmpty && terminator.counting.flags == 0 && terminator.name.isNone then 0
  else namedHeight terminator.named + 1

theorem Terminator.height_le (terminator : Terminator) :
    terminator.height ≤ namedHeight terminator.named + 1 := by
  unfold Terminator.height
  split <;> omega

theorem height_close (nodes : List (Node Container)) (terminator : Terminator) :
    height false (close nodes terminator) = max (nodesHeight nodes) terminator.height + 1 := by
  simp [close, height, Terminator.height]

mutual

/-- What is read is nested no deeper than what it was read from. -/
theorem gives_nodeHeight : ∀ (json : Json) {depth : Nat}, json.Nested depth →
    Gives (fun node => nodeHeight node ≤ depth) (readNode json)
  | .array items, _, .array nested => by
    rw [readNode]
    refine (gives_nodesHeight items nested).bind fun read low => gives_ok ?_
    rw [nodeHeight, height_close]
    omega
  | .null, _, nested | .bool _, _, nested | .number _, _, nested | .string _, _, nested
  | .object _, _, nested =>
    (Content.asRead_read _).bind fun _ asRead => gives_ok (asRead.2 _ nested)

theorem gives_nodesHeight : ∀ (items : List Json) {depth : Nat},
    (∀ item ∈ items, item.Nested depth) →
      Gives (fun read => nodesHeight read.1 ≤ depth ∧ read.2.height ≤ depth) (readNodes items)
  | [], _, _ => gives_error _
  | [.null], _, _ => gives_ok ⟨Nat.zero_le _, Nat.zero_le _⟩
  | [.object members], _, nested => by
    rw [readNodes]
    cases nested _ mem_cons_self with
    | object distinct inside =>
      refine (gives_namedHeight {} members (Nat.zero_le _) inside).bind fun terminator low => ?_
      refine gives_ok ⟨Nat.zero_le _, ?_⟩
      exact terminator.height_le.trans (Nat.succ_le_succ low)
  | [.bool _], _, _ | [.number _], _, _ | [.string _], _, _ | [.array _], _, _ => gives_error _
  | json :: next :: rest, _, nested => by
    rw [readNodes_cons]
    obtain ⟨first, others⟩ := forall_mem_cons.mp nested
    refine (gives_nodeHeight json first).bind fun node low => ?_
    refine (gives_nodesHeight (next :: rest) others).bind fun read later => ?_
    refine gives_ok ⟨?_, later.2⟩
    cases node with
    | content content => exact max_le low later.1
    | container inner => exact max_le low later.1

theorem gives_namedHeight (start : Terminator) : ∀ (members : List (String × Json)) {depth : Nat},
    namedHeight start.named ≤ depth → (∀ member ∈ members, member.2.Nested depth) →
      Gives (fun terminator => namedHeight terminator.named ≤ depth) (readTerminator start members)
  | [], _, low, _ => gives_ok low
  | (key, json) :: rest, _, low, nested => by
    rw [readTerminator]
    obtain ⟨first, others⟩ := forall_mem_cons.mp nested
    split
    · exact gives_bind fun flags => gives_namedHeight _ rest low others
    · split
      · exact gives_bind fun name => gives_namedHeight _ rest low others
      · refine (gives_nodeHeight json first).bind fun node here => ?_
        split
        · next inner =>
          refine gives_namedHeight _ rest ?_ others
          have listed := height_withName_le inner key
          simp only [nodeHeight] at here
          simp only [namedHeight_append, namedHeight]
          omega
        · exact gives_error _

end

/-! ### Containers read back -/

/-- A container as it is read, in which those below it can be told apart by their names. -/
structure Tidy (container : Container) : Prop extends AsRead Content.AsRead container where
  childNames : container.childNames.Nodup
  listed : ∀ key inner, (key, inner) ∈ container.named → inner.name = some key

theorem everywhere_tidy (wellNamed : container.WellNamed)
    (asRead : container.Everywhere (AsRead Content.AsRead)) : container.Everywhere Tidy := by
  induction wellNamed with
  | mk distinct _ listed _ _ _ items named =>
    obtain ⟨here, inside, below⟩ := asRead
    exact .mk ⟨here, distinct, listed⟩
      (fun inner member => items inner member (inside inner member))
      fun key inner member => named key inner member (below key inner member)

mutual

/-- A container as it is read back at an address. -/
def rewritten (program : Program) (address : Address) : Container → Container
  | .mk name counting nodes named =>
    .mk name (.ofFlags counting.flags) (rewrittenNodes program address 0 nodes)
      (rewrittenNamed program address named)

/-- The items of a container as they are read back, from a position on. -/
def rewrittenNodes (program : Program) (address : Address) (position : Nat) :
    List (Node Container) → List (Node Container)
  | [] => []
  | .content content :: rest =>
    .content (content.rewritten program (.content address position)) ::
      rewrittenNodes program address (position + 1) rest
  | .container inner :: rest =>
    .container (rewritten program (.item position :: address) inner) ::
      rewrittenNodes program address (position + 1) rest

/-- The containers that are reached by name only as they are read back. -/
def rewrittenNamed (program : Program) (address : Address) :
    List (String × Container) → List (String × Container)
  | [] => []
  | (key, inner) :: rest =>
    (key, rewritten program (.named key :: address) inner) :: rewrittenNamed program address rest

end

theorem writeNamed_eq_map (named : List (String × Container)) :
    writeNamed program address named = named.map fun entry =>
      (entry.1, write program (.named entry.1 :: address) true entry.2) := by
  induction named with
  | nil => rfl
  | cons entry rest ih => rw [writeNamed, ih, map_cons]

theorem itemNames_isItem (nodes : List (Node Container)) (position : Nat) :
    ∀ entry ∈ itemNames position nodes, ∃ place, entry.2 = .item place := by
  induction nodes generalizing position with
  | nil => exact forall_mem_nil _
  | cons node rest ih =>
    cases node with
    | content content => exact ih (position + 1)
    | container inner =>
      rw [itemNames]
      split
      · exact forall_mem_cons.mpr ⟨⟨position, rfl⟩, ih (position + 1)⟩
      · exact ih (position + 1)

theorem entries_names (distinct : container.childNames.Nodup) :
    container.names.entries =
      itemNames 0 container.nodes ++
        container.named.map fun entry => (entry.1, .named entry.1) := by
  refine Table.entries_ofList ?_
  rw [map_append, map_map]
  exact distinct

/-- Containers with names of their own are written in the order in which they are listed. -/
theorem orderNamed_writeNamed (distinct : container.childNames.Nodup) :
    container.orderNamed (writeNamed program address container.named) =
      writeNamed program address container.named := by
  have keys : (writeNamed program address container.named).map Prod.fst =
      container.named.map Prod.fst := by
    rw [writeNamed_eq_map, map_map]
    rfl
  have apart : ((writeNamed program address container.named).map Prod.fst).Nodup := by
    rw [keys]
    exact (nodup_append.mp distinct).2.1
  rw [orderNamed, Table.values, entries_names distinct, map_append, filterMap_append]
  refine (congrArg₂ (· ++ ·) (filterMap_eq_nil_iff.mpr fun step member => ?_) ?_).trans
    (nil_append _)
  · obtain ⟨entry, listed, rfl⟩ := mem_map.mp member
    obtain ⟨place, same⟩ := itemNames_isItem container.nodes 0 entry listed
    rw [same]
  · rw [map_map, filterMap_map]
    have all : (writeNamed program address container.named).filterMap some =
        writeNamed program address container.named := filterMap_some
    refine Eq.trans ?_ all
    rw [writeNamed_eq_map, filterMap_map, ← writeNamed_eq_map]
    refine filterMap_congr fun entry member => ?_
    have written : (entry.1, write program (.named entry.1 :: address) true entry.2) ∈
        writeNamed program address container.named := by
      rw [writeNamed_eq_map]
      exact mem_map.mpr ⟨entry, member, rfl⟩
    simp [Table.lookup_of_mem apart written]

/-- The member that tells what is counted, where anything is. -/
def flagMembers (counting : Counting) : List (String × Json) :=
  if counting.flags = 0 then [] else [("#f", .int counting.flags)]

/-- The member that tells the name of a container that is not listed under it. -/
def nameMembers (name : Option String) (listed : Bool) : List (String × Json) :=
  match name, listed with
  | some name, false => [("#n", .string name)]
  | _, _ => []

/-- The members of the terminator of a container. -/
def members (program : Program) (address : Address) (listed : Bool) (container : Container) :
    List (String × Json) :=
  writeNamed program address container.named ++
    (flagMembers container.counting ++ nameMembers container.name listed)

/-- The terminator with given members. -/
def closing (members : List (String × Json)) : Json :=
  if members.isEmpty then .null else .object members

theorem write_eq (distinct : container.childNames.Nodup) :
    container.write program address listed =
      .array (writeNodes program address 0 container.nodes ++
        [closing (container.members program address listed)]) := by
  obtain ⟨name, counting, nodes, named⟩ := container
  have ordered : orderNamed (.mk name counting nodes named) (writeNamed program address named) =
      writeNamed program address named := orderNamed_writeNamed distinct
  cases name <;> cases listed <;> simp only [write, ordered, append_assoc] <;> rfl

theorem members_eq_nil :
    container.members program address listed = [] ↔
      (container.named.isEmpty && container.counting.flags == 0 &&
        (listed || container.name.isNone)) := by
  obtain ⟨name, counting, nodes, named⟩ := container
  have flags : flagMembers counting = [] ↔ counting.flags = 0 := by
    unfold flagMembers
    split <;> simp_all
  have title : nameMembers name listed = [] ↔ (listed || name.isNone) := by
    cases name <;> cases listed <;> simp [nameMembers]
  simp [members, writeNamed_eq_map, Container.counting, Container.name, flags,
    title, and_assoc]

theorem isLeaf_marks {counting : Counting} {name : Option String} :
    ∀ member ∈ flagMembers counting ++ nameMembers name listed, member.2.IsLeaf := by
  have small := counting.flags_lt
  have flags : (Json.int counting.flags).IsLeaf := Json.isLeaf_int ⟨by omega, by omega⟩
  refine forall_mem_append.mpr ⟨?_, ?_⟩
  · unfold flagMembers
    split
    · exact forall_mem_nil _
    · exact forall_mem_singleton.mpr flags
  · unfold nameMembers
    split
    · exact forall_mem_singleton.mpr (Json.isLeaf_string _)
    · exact forall_mem_nil _

/-- The members of a terminator have different names. -/
theorem distinct_members (tidy : container.Tidy) :
    ((container.members program address listed).map Prod.fst).Nodup := by
  have flags : ∀ key ∈ (flagMembers container.counting).map Prod.fst, key = "#f" := by
    unfold flagMembers
    split <;> simp
  have title : ∀ key ∈ (nameMembers container.name listed).map Prod.fst, key = "#n" := by
    unfold nameMembers
    split <;> simp
  have marks : ((flagMembers container.counting ++
      nameMembers container.name listed).map Prod.fst).Nodup := by
    rw [map_append, nodup_append]
    refine ⟨?_, ?_, fun key first other second => ?_⟩
    · unfold flagMembers
      split <;> simp
    · unfold nameMembers
      split <;> simp
    · rw [flags key first, title other second]
      decide
  have keys : (writeNamed program address container.named).map Prod.fst =
      container.named.map Prod.fst := by
    rw [writeNamed_eq_map, map_map]
    rfl
  rw [members, map_append, nodup_append, keys]
  refine ⟨tidy.distinct, marks, ?_⟩
  rintro key listed other mark rfl
  rw [map_append] at mark
  rcases mem_append.mp mark with flag | own
  · exact (tidy.unmarked key listed).1 (flags key flag)
  · exact (tidy.unmarked key listed).2 (title key own)

/-! ### Forms of containers -/

mutual

/-- A container is written no deeper than its height. -/
theorem sound_write : ∀ (container : Container) {address : Address} {listed : Bool} {depth : Nat},
    container.Everywhere Tidy → container.height listed ≤ depth →
      Json.Sound depth (container.write program address listed)
  | .mk name counting nodes named, address, listed, depth, tidy, low => by
    obtain ⟨here, items, below⟩ := tidy
    rw [height] at low
    obtain ⟨depth, rfl⟩ := Nat.exists_eq_add_of_le' (Nat.one_le_of_lt low)
    obtain ⟨inside, beside⟩ := max_le_iff.mp (Nat.le_of_succ_le_succ low)
    rw [write_eq here.childNames]
    refine .array fun json member => ?_
    rcases List.mem_append.mp member with item | last
    · exact sound_writeNodes nodes here.contents items inside json item
    · rw [List.mem_singleton.mp last, closing]
      split
      · exact .null
      · next present =>
        rw [List.isEmpty_iff, members_eq_nil] at present
        change ¬(named.isEmpty && counting.flags == 0 &&
          (listed || name.isNone)) at present
        rw [if_neg present] at beside
        obtain ⟨depth, rfl⟩ := Nat.exists_eq_add_of_le' (Nat.one_le_of_lt beside)
        refine .object (distinct_members here) fun member listed => ?_
        rcases List.mem_append.mp listed with reached | mark
        · exact sound_writeNamed named below (Nat.le_of_succ_le_succ beside) member reached
        · exact isLeaf_marks member mark depth

theorem sound_writeNodes :
    ∀ (nodes : List (Node Container)) {address : Address} {position depth : Nat},
    (∀ content, .content content ∈ nodes → content.AsRead) →
    (∀ inner, .container inner ∈ nodes → inner.Everywhere Tidy) → nodesHeight nodes ≤ depth →
      ∀ json ∈ writeNodes program address position nodes, Json.Sound depth json
  | [], _, _, _, _, _, _ => forall_mem_nil _
  | .content content :: rest, _, _, _, asRead, tidy, low => by
    obtain ⟨first, others⟩ := max_le_iff.mp low
    refine forall_mem_cons.mpr ⟨?_, ?_⟩
    · exact Content.sound_write_asRead (asRead content mem_cons_self) first
    · exact sound_writeNodes rest
        (fun inner member => asRead inner (mem_cons_of_mem _ member))
        (fun inner member => tidy inner (mem_cons_of_mem _ member)) others
  | .container inner :: rest, _, _, _, asRead, tidy, low => by
    obtain ⟨first, others⟩ := max_le_iff.mp low
    refine forall_mem_cons.mpr ⟨?_, ?_⟩
    · exact sound_write inner (tidy inner mem_cons_self) first
    · exact sound_writeNodes rest
        (fun inner member => asRead inner (mem_cons_of_mem _ member))
        (fun inner member => tidy inner (mem_cons_of_mem _ member)) others

theorem sound_writeNamed : ∀ (named : List (String × Container)) {address : Address} {depth : Nat},
    (∀ key inner, (key, inner) ∈ named → inner.Everywhere Tidy) → namedHeight named ≤ depth →
      ∀ member ∈ writeNamed program address named, Json.Sound depth member.2
  | [], _, _, _, _ => forall_mem_nil _
  | (key, inner) :: rest, _, _, tidy, low => by
    obtain ⟨first, others⟩ := max_le_iff.mp low
    refine forall_mem_cons.mpr ⟨?_, ?_⟩
    · exact sound_write inner (tidy key inner mem_cons_self) first
    · exact sound_writeNamed rest
        (fun key inner member => tidy key inner (mem_cons_of_mem _ member)) others

end

/-- A container without the name that it is listed under. -/
def untitled (listed : Bool) : Container → Container
  | .mk name counting nodes named => .mk (if listed then none else name) counting nodes named

theorem untitled_false (container : Container) : container.untitled false = container := by
  obtain ⟨name, counting, nodes, named⟩ := container
  rfl

theorem withName_untitled {key : String} (own : container.name = some key) :
    (container.untitled true).withName key = container := by
  obtain ⟨name, counting, nodes, named⟩ := container
  cases own
  rfl

theorem name_rewritten (container : Container) :
    (container.rewritten program address).name = container.name := by
  obtain ⟨name, counting, nodes, named⟩ := container
  rfl

/-- What is counted and the name of a container are read back. -/
theorem readTerminator_marks (counting : Counting) (name : Option String) (listed : Bool)
    (named : List (String × Container)) :
    readTerminator { named := named } ((flagMembers counting ++ nameMembers name listed).map
        fun member => (member.1, member.2.reread)) =
      .ok ⟨if listed then none else name, .ofFlags counting.flags, named⟩ := by
  have small := counting.flags_lt
  have flags := Content.readFlags_int small "count flags"
  have reread : (Json.int counting.flags).reread = .int counting.flags :=
    Json.reread_int ⟨by omega, by omega⟩
  have title (counting : Counting) : readTerminator { counting := counting, named := named }
      ((nameMembers name listed).map fun member => (member.1, member.2.reread)) =
      .ok ⟨if listed then none else name, counting, named⟩ := by
    cases name <;> cases listed <;> rfl
  unfold flagMembers
  split
  · next none =>
    rw [none]
    exact title _
  · rw [map_append, map_singleton, singleton_append, reread, readTerminator]
    simp only [flags]
    exact title _

theorem readNodes_closing {members : List (String × Json)}
    (reads : readTerminator {} (members.map fun member => (member.1, member.2.reread)) =
      .ok terminator) : readNodes [(closing members).reread] = .ok ([], terminator) := by
  cases members with
  | nil =>
    cases reads
    rfl
  | cons first rest =>
    rw [closing, isEmpty_cons, if_neg Bool.false_ne_true, Json.reread_object,
      Json.rereadMembers_eq, readNodes, reads]
    rfl

theorem readNodes_append {json : Json} {node : Node Container} {rest : List Json} {last : Json}
    {nodes : List (Node Container)} (first : readNode json = .ok node)
    (others : readNodes (rest ++ [last]) = .ok (nodes, terminator)) :
    readNodes (json :: (rest ++ [last])) = .ok (node :: nodes, terminator) := by
  cases rest with
  | nil =>
    rw [nil_append] at others
    rw [nil_append, readNodes_cons, first, others]
    rfl
  | cons next rest =>
    rw [cons_append] at others
    rw [cons_append, readNodes_cons, first, others]
    rfl

theorem readNode_content {content : Content} {origin : Place} (asRead : content.AsRead) :
    readNode (content.write program origin).reread =
      .ok (.content (content.rewritten program origin)) := by
  have read : Content.read (content.write program origin).reread =
      .ok (content.rewritten program origin) := Content.read_write asRead
  cases form : (content.write program origin).reread with
  | array items =>
    rw [form] at read
    contradiction
  | _ =>
    rw [form] at read
    rw [readNode, read]
    · rfl
    · simp

mutual

/-- A container is read back from its JSON form. -/
theorem readNode_write : ∀ (container : Container) (address : Address) (listed : Bool),
    container.Everywhere Tidy →
      readNode (container.write program address listed).reread =
        .ok (.container ((container.rewritten program address).untitled listed))
  | .mk name counting nodes named, address, listed, tidy => by
    obtain ⟨here, items, below⟩ := tidy
    have reads : readTerminator {}
        ((members program address listed (.mk name counting nodes named)).map
          fun member => (member.1, member.2.reread)) =
        .ok ⟨if listed then none else name, .ofFlags counting.flags,
          rewrittenNamed program address named⟩ := by
      rw [members, map_append]
      refine (readTerminator_writeNamed named address {} _ fun key inner member => ?_).trans ?_
      · exact ⟨below key inner member, here.listed key inner member,
          here.unmarked key (mem_map_of_mem member)⟩
      · exact readTerminator_marks counting name listed _
    have inside :=
      readNodes_writeNodes nodes address 0 here.contents items (readNodes_closing reads)
    rw [write_eq here.childNames, Json.reread_array, Json.rereadItems_eq, map_append,
      map_singleton, readNode, Container.nodes, inside, rewritten]
    rfl

/-- Items are read back in front of whatever closes their container. -/
theorem readNodes_writeNodes :
    ∀ (nodes : List (Node Container)) (address : Address) (position : Nat) {last : Json}
      {terminator : Terminator},
    (∀ content, .content content ∈ nodes → content.AsRead) →
    (∀ inner, .container inner ∈ nodes → inner.Everywhere Tidy) →
    readNodes [last] = .ok ([], terminator) →
      readNodes ((writeNodes program address position nodes).map Json.reread ++ [last]) =
        .ok (rewrittenNodes program address position nodes, terminator)
  | [], _, _, _, _, _, _, closes => closes
  | .content content :: rest, _, _, _, _, asRead, tidy, closes => by
    refine readNodes_append (readNode_content (asRead content mem_cons_self)) ?_
    exact readNodes_writeNodes rest _ _
      (fun inner member => asRead inner (mem_cons_of_mem _ member))
      (fun inner member => tidy inner (mem_cons_of_mem _ member)) closes
  | .container inner :: rest, address, position, _, _, asRead, tidy, closes => by
    have first := readNode_write inner (.item position :: address) false
      (tidy inner mem_cons_self)
    rw [untitled_false] at first
    refine readNodes_append first ?_
    exact readNodes_writeNodes rest _ _
      (fun inner member => asRead inner (mem_cons_of_mem _ member))
      (fun inner member => tidy inner (mem_cons_of_mem _ member)) closes

/-- Containers that are reached by name only are read back under their names. -/
theorem readTerminator_writeNamed : ∀ (named : List (String × Container)) (address : Address)
    (start : Terminator) (rest : List (String × Json)),
    (∀ key inner, (key, inner) ∈ named → inner.Everywhere Tidy ∧ inner.name = some key ∧
      key ≠ "#f" ∧ key ≠ "#n") →
      readTerminator start ((writeNamed program address named).map
          (fun member => (member.1, member.2.reread)) ++ rest) =
        readTerminator { start with named := start.named ++ rewrittenNamed program address named }
          rest
  | [], _, start, rest, _ => by simp [writeNamed, rewrittenNamed]
  | (key, inner) :: others, address, start, rest, tidy => by
    obtain ⟨here, own, unmarked⟩ := tidy key inner mem_cons_self
    have first := readNode_write inner (.named key :: address) true here
    have titled : ((inner.rewritten program (.named key :: address)).untitled true).withName key =
        inner.rewritten program (.named key :: address) :=
      withName_untitled ((name_rewritten inner).trans own)
    rw [writeNamed, map_cons, cons_append, readTerminator, if_neg unmarked.1,
      if_neg unmarked.2, first]
    simp only [bind, Except.bind, titled]
    rw [readTerminator_writeNamed others address _ rest fun key inner member =>
      tidy key inner (mem_cons_of_mem _ member)]
    rw [rewrittenNamed, append_assoc, singleton_append]

end

end Container

/-! ### Programs read back -/

theorem ListDefinitions.sound_write {lists : ListDefinitions} {depth : Nat}
    (distinct : (lists.definitions.map ListDefinition.name).Nodup) :
    Json.Sound (depth + 2) lists.write := by
  refine .object ?_ (forall_mem_map.mpr fun definition _ => .object ?_ ?_)
  · rw [map_map]
    exact distinct
  · rw [map_map]
    exact definition.numbers.distinct
  · exact forall_mem_map.mpr fun entry _ => Json.sound_int (Json.fits_int32 entry.2)

/-- The JSON form of a declared list. -/
def ListDefinition.write (definition : ListDefinition) : Json :=
  .object (definition.numbers.entries.map fun entry => (entry.1, Json.int entry.2.toInt))

theorem Envelope.readDefinition?_write (definition : ListDefinition) :
    readDefinition? definition.name definition.write.reread = some definition := by
  have form : definition.write.reread = definition.write := by
    rw [ListDefinition.write, Json.reread_object, Json.rereadMembers_eq, map_map]
    refine congrArg Json.object (map_congr_left fun entry _ => ?_)
    rw [Function.comp_apply, Json.reread_int (Json.fits_int32 entry.2)]
  have numbers :
      ((definition.numbers.entries.map fun entry => (entry.1, Json.int entry.2.toInt)).mapM
        fun member => member.2.int32?.bind fun number => some (member.1, number)) =
      some (definition.numbers.entries.map id) := by
    refine Save.mapM_some fun entry _ => ?_
    rw [Json.int32?_int]
    rfl
  rw [form, ListDefinition.write]
  simp only [readDefinition?, Json.object?, Option.bind_eq_bind, Option.bind_some, numbers,
    map_id, Table.ofList_entries]

theorem Envelope.readLists?_write (lists : ListDefinitions) :
    readLists? lists.write.reread = some lists := by
  have form : lists.write.reread = .object (lists.definitions.map fun definition =>
      (definition.name, definition.write.reread)) := by
    rw [ListDefinitions.write, Json.reread_object, Json.rereadMembers_eq, map_map]
    rfl
  have definitions : ((lists.definitions.map fun definition =>
      (definition.name, definition.write.reread)).mapM fun member =>
        readDefinition? member.1 member.2) = some (lists.definitions.map id) :=
    Save.mapM_some fun definition _ => readDefinition?_write definition
  rw [form]
  simp only [readLists?, Json.object?, Option.bind_eq_bind, Option.bind_some, definitions,
    map_id]

namespace Program

/-- A program as it is read back. -/
def rewritten (program : Program) : Program where
  root := program.root.rewritten program []
  lists := program.lists

/-- The three parts of the file of a program. -/
def file (program : Program) : Json :=
  .object [("inkVersion", .int currentVersion), ("root", program.root.write program [] false),
    ("listDefs", program.lists.write)]

theorem sound_file (tidy : program.root.Everywhere Container.Tidy)
    (low : program.root.height false ≤ Json.maxDepth - 1)
    (distinct : (program.lists.definitions.map ListDefinition.name).Nodup) :
    Json.Sound Json.maxDepth program.file := by
  have version : Json.Sound (Json.maxDepth - 1) (.int currentVersion) :=
    Json.sound_int ⟨by decide, by decide⟩
  have root : Json.Sound (Json.maxDepth - 1) (program.root.write program [] false) :=
    Container.sound_write program.root tidy low
  have lists : Json.Sound (Json.maxDepth - 1) program.lists.write :=
    ListDefinitions.sound_write distinct
  refine .object (by simp) ?_
  simpa using ⟨version, root, lists⟩

theorem exists_items (container : Container) (address : Address) (listed : Bool) :
    ∃ items, (container.write program address listed).reread = .array items := by
  obtain ⟨name, counting, nodes, named⟩ := container
  exact ⟨_, rfl⟩

theorem parse?_write (tidy : program.root.Everywhere Container.Tidy)
    (low : program.root.height false ≤ Json.maxDepth - 1)
    (distinct : (program.lists.definitions.map ListDefinition.name).Nodup) :
    Envelope.parse? program.write =
      some ⟨some currentVersion, some (program.root.write program [] false).reread,
        program.lists⟩ := by
  have tree : Json.Tree.parse? program.write = some program.file.reread.toTree :=
    (sound_file tidy low distinct).parse?_tree
  have version : (Json.int currentVersion).reread.toTree.toJson? (Json.maxDepth - 1) =
      some (.int currentVersion) := by
    rfl
  have sound : Json.Sound (Json.maxDepth - 1) (program.root.write program [] false) :=
    Container.sound_write program.root tidy low
  have lists : program.lists.write.reread.toTree.toJson? (Json.maxDepth - 1) =
      some program.lists.write.reread :=
    (ListDefinitions.sound_write distinct : Json.Sound (Json.maxDepth - 1) _).toJson?_reread
  have listed := Envelope.readLists?_write program.lists
  have root := sound.toJson?_reread
  obtain ⟨items, array⟩ := exists_items program.root [] false
  rw [array] at root ⊢
  have number : Envelope.readVersion? (.int currentVersion) = some (some currentVersion) := rfl
  have form : program.file.reread.toTree =
      .object [(some "inkVersion", (Json.int currentVersion).reread.toTree),
        (some "root", (Json.array items).toTree),
        (some "listDefs", program.lists.write.reread.toTree)] := by
    rw [← array]
    rfl
  simp only [Envelope.parse?, tree, form, Option.bind_eq_bind, Option.bind_some, foldlM_cons,
    Envelope.addMember?, root, lists, listed, number]
  rfl

theorem tidy_of_read (read : Program.read source = .ok program) (wellNamed : program.WellNamed) :
    program.root.Everywhere Container.Tidy :=
  Container.everywhere_tidy wellNamed.named (asRead_read (fun json content read =>
    (Content.asRead_read json content read).1) read)

/-- A program that was read is read back from its text. -/
theorem read_write (read : Program.read source = .ok program) (wellNamed : program.WellNamed) :
    Program.read program.write = .ok program.rewritten := by
  obtain ⟨envelope, items, parsed, array, inside, lists⟩ := exists_of_read read
  have asRead := Envelope.asRead_parse? parsed
  have tidy := tidy_of_read read wellNamed
  have low : program.root.height false ≤ Json.maxDepth - 1 := by
    cases asRead.root _ array with
    | array nested =>
      have gives : Gives (fun container => container.height false ≤ Json.maxDepth - 1)
          (Container.readItems items) :=
        (Container.gives_nodesHeight items nested).bind fun read low =>
          gives_ok ((Container.height_close read.1 read.2).trans_le
            (Nat.succ_le_succ (max_le low.1 low.2)))
      exact gives program.root inside
  have distinct : (program.lists.definitions.map ListDefinition.name).Nodup := by
    rw [← lists]
    exact asRead.lists
  have again := parse?_write tidy low distinct
  have root : Container.readNode (program.root.write program [] false).reread = _ :=
    Container.readNode_write program.root [] false tidy
  obtain ⟨written, form⟩ := exists_items program.root [] false
  rw [form] at again root
  have whole : Container.readItems written = .ok (program.root.rewritten program []) := by
    rw [Container.readNode] at root
    rw [Container.readItems]
    cases nodes : Container.readNodes written with
    | error fault =>
      rw [nodes] at root
      contradiction
    | ok found =>
      rw [nodes] at root
      rw [Container.untitled_false] at root
      exact congrArg Except.ok (Node.container.inj (Except.ok.inj root))
  simp only [Program.read, again, whole]
  rfl

end Program

/-! ### What a program is read back as -/

/-- What an item of a container is read back as. -/
def Node.ReadsAs (program : Program) (address : Address) (position : Nat) :
    Node Container → Node Container → Prop
  | .content object, .content again => object.ReadsAs program (.content address position) again
  | .container _, .container _ => True
  | _, _ => False

/-- What a container is read back as: one of the same name, with the same names in it in the same
order, of which the same is counted, and with as many items. -/
structure Container.ReadsAs (program : Program) (address : Address) (container again : Container) :
    Prop where
  name : again.name = container.name
  names : again.names.keys = container.names.keys
  visits : again.counting.visits = container.counting.visits
  turns : again.counting.turns = container.counting.turns
  startOnly : container.counting.visits = true ∨ container.counting.turns = true →
    again.counting.startOnly = container.counting.startOnly
  items : ∀ position, Option.Rel (Node.ReadsAs program address position)
    container.nodes[position]? again.nodes[position]?

namespace Container

/-- An item as it is read back at a position. -/
def rewrittenNode (program : Program) (address : Address) (position : Nat) :
    Node Container → Node Container
  | .content content => .content (content.rewritten program (.content address position))
  | .container inner => .container (inner.rewritten program (.item position :: address))

theorem getElem?_rewrittenNodes (nodes : List (Node Container)) (start position : Nat) :
    (rewrittenNodes program address start nodes)[position]? =
      nodes[position]?.map (rewrittenNode program address (start + position)) := by
  induction nodes generalizing start position with
  | nil => rfl
  | cons node rest ih =>
    have cons : rewrittenNodes program address start (node :: rest) =
        rewrittenNode program address start node ::
          rewrittenNodes program address (start + 1) rest := by
      cases node <;> rfl
    rw [cons]
    cases position with
    | zero => rfl
    | succ position =>
      rw [getElem?_cons_succ, getElem?_cons_succ, ih, Nat.add_right_comm,
        Nat.add_assoc]

theorem lookup_rewrittenNamed (named : List (String × Container)) (key : String) :
    (rewrittenNamed program address named).lookup key =
      (named.lookup key).map (rewritten program (.named key :: address)) := by
  induction named with
  | nil => rfl
  | cons entry rest ih =>
    obtain ⟨own, inner⟩ := entry
    rw [rewrittenNamed, lookup_cons, lookup_cons, ih]
    cases same : key == own with
    | true =>
      rw [beq_iff_eq.mp same]
      rfl
    | false => rfl

theorem nodes_rewritten (container : Container) :
    (container.rewritten program address).nodes =
      rewrittenNodes program address 0 container.nodes := by
  obtain ⟨name, counting, nodes, named⟩ := container
  rfl

theorem named_rewritten (container : Container) :
    (container.rewritten program address).named =
      rewrittenNamed program address container.named := by
  obtain ⟨name, counting, nodes, named⟩ := container
  rfl

theorem counting_rewritten (container : Container) :
    (container.rewritten program address).counting = .ofFlags container.counting.flags := by
  obtain ⟨name, counting, nodes, named⟩ := container
  rfl

theorem child_rewritten (container : Container) (step : Step) :
    (container.rewritten program address).child? step =
      (container.child? step).map (rewritten program (step :: address)) := by
  cases step with
  | named key => rw [child?, named_rewritten, lookup_rewrittenNamed, child?]
  | item position =>
    rw [child?, child?, nodes_rewritten, getElem?_rewrittenNodes, Nat.zero_add]
    rcases container.nodes[position]? with _ | _ | _ <;> rfl

/-- What stands at an address is read back there. -/
theorem find_rewritten (container : Container) (down : Address) :
    (container.rewritten program address).find? down =
      (container.find? down).map (rewritten program (down ++ address)) := by
  induction down with
  | nil => rfl
  | cons step outer ih =>
    rw [find?, find?, ih]
    cases container.find? outer with
    | none => rfl
    | some parent => exact child_rewritten parent step

theorem itemNames_rewrittenNodes (nodes : List (Node Container)) (start position : Nat) :
    itemNames position (rewrittenNodes program address start nodes) = itemNames position nodes := by
  induction nodes generalizing start position with
  | nil => rfl
  | cons node rest ih =>
    cases node with
    | content content => rw [rewrittenNodes, itemNames, itemNames, ih]
    | container inner => rw [rewrittenNodes, itemNames, itemNames, name_rewritten, ih]

theorem names_rewritten (container : Container) :
    (container.rewritten program address).names = container.names := by
  have keys : (rewrittenNamed program address container.named).map
        (fun entry => (entry.1, Step.named entry.1)) =
      container.named.map fun entry => (entry.1, Step.named entry.1) := by
    induction container.named with
    | nil => rfl
    | cons entry rest ih => rw [rewrittenNamed, map_cons, map_cons, ih]
  have items : itemNames 0 (container.rewritten program address).nodes =
      itemNames 0 container.nodes := by
    rw [nodes_rewritten, itemNames_rewrittenNodes]
  have listed : (container.rewritten program address).named = _ := named_rewritten container
  unfold names
  rw [items, listed]
  exact congrArg (fun row => Table.ofList (itemNames 0 container.nodes ++ row)) keys

/-- A container is read back as it was. -/
theorem readsAs_rewritten (tidy : container.Tidy) :
    container.ReadsAs program address (container.rewritten program address) := by
  have counting : (container.rewritten program address).counting = _ :=
    (counting_rewritten container).trans (Counting.ofFlags_flags container.counting)
  refine ⟨name_rewritten container, by rw [names_rewritten], ?_, ?_, ?_, fun position => ?_⟩
  · rw [counting]
  · rw [counting]
  · rw [counting]
    rintro (visits | turns)
    · simp [visits]
    · simp [turns]
  · rw [nodes_rewritten, getElem?_rewrittenNodes, Nat.zero_add]
    cases found : container.nodes[position]? with
    | none => exact .none
    | some node =>
      refine .some ?_
      cases node with
      | content content => exact (tidy.contents content (mem_of_getElem? found)).readsAs
      | container inner => trivial

end Container

namespace Program

/-- A program that was read, in which every place can be told by its path, is read back from its
text, with the same lists and with the same containers in the same places. -/
theorem reads_back (read : Program.read source = .ok program) (wellNamed : program.WellNamed) :
    ∃ again, Program.read program.write = .ok again ∧ again.lists = program.lists ∧
      ∀ address, Option.Rel (Container.ReadsAs program address) (program.root.find? address)
        (again.root.find? address) := by
  refine ⟨program.rewritten, read_write read wellNamed, rfl, fun address => ?_⟩
  have found : program.rewritten.root.find? address =
      (program.root.find? address).map (Container.rewritten program address) := by
    have leads : (program.root.rewritten program []).find? address = _ :=
      Container.find_rewritten program.root address
    rwa [List.append_nil] at leads
  rw [found]
  cases there : program.root.find? address with
  | none => exact .none
  | some container =>
    have tidy := (tidy_of_read read wellNamed).find there
    exact .some (Container.readsAs_rewritten tidy.here)

/-- A story that prints a number too vast for single precision, and ends in a knot that is
counted. -/
def vastSource : String :=
  "\x7b\"inkVersion\":21,\"root\":[\"ev\",1e39,\"out\",\"/ev\",\"\\n\",\x7b\"->\":\"over\"\x7d," ++
    "\x7b\"over\":[\"done\",\x7b\"#f\":1\x7d]\x7d],\"listDefs\":\x7b\"moods\":\x7b\"calm\":1\x7d\x7d\x7d"

/-- The number above all others. -/
def vast : Single := Single.ofParts (.infinite false)

theorem reads_back_vast :
    ∃ program again, Program.read vastSource = .ok program ∧ program.addresses.length = 2 ∧
      Program.read program.write = .ok again ∧ again.lists = program.lists ∧
      ∀ address, Option.Rel (Container.ReadsAs program address) (program.root.find? address)
        (again.root.find? address) := by
  obtain ⟨program, read, named, size⟩ :
      ∃ program, Program.read vastSource = .ok program ∧ program.isWellNamed ∧
        program.addresses.length = 2 := by
    decide +kernel
  obtain ⟨again, rest⟩ := reads_back read (wellNamed_of_isWellNamed named)
  exact ⟨program, again, read, size, rest⟩

/-- A number that is not finite is not read back. -/
theorem vast_not_read_back :
    ∃ program again, Program.read vastSource = .ok program ∧ program.WellNamed ∧
      Program.read program.write = .ok again ∧
      program.content? [] 1 = some (.value (.float vast)) ∧
      again.content? [] 1 ≠ some (.value (.float vast)) := by
  obtain ⟨program, read, named, here, there⟩ :
      ∃ program, Program.read vastSource = .ok program ∧ program.isWellNamed ∧
        program.content? [] 1 = some (.value (.float vast)) ∧
        program.rewritten.content? [] 1 ≠ some (.value (.float vast)) := by
    decide +kernel
  have wellNamed := wellNamed_of_isWellNamed named
  exact ⟨program, program.rewritten, read, wellNamed, read_write read wellNamed, here, there⟩

end Program

end InkStory
