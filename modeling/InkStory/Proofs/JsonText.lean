import InkStory.Json.Tree
import InkStory.Proofs.JsonTokens
import InkStory.Proofs.Tables

/-! # JSON values read back

The compact text of a value is read as the same value but for its fractions, each of which is read
as what its own literal denotes (`Json.parse?_render`). -/

namespace InkStory.Json

open List

variable {row : List Token} {token : Token} {items : List Json} {members : List (String × Json)}
  {depth : Nat} {json : Json} {value : Int}

/-! ### Rows of tokens of a value -/

theorem isChain_cons_punctuation (closed : token.isOpenEnded = false)
    (separate : row.IsChain Token.Separate) : (token :: row).IsChain Token.Separate :=
  isChain_cons.mpr ⟨fun _ _ => .inl closed, separate⟩

theorem isChain_append_punctuation {rest : List Token} (separate : row.IsChain Token.Separate)
    (punctuation : token.isPunctuation) (after : (token :: rest).IsChain Token.Separate) :
    (row ++ token :: rest).IsChain Token.Separate := by
  refine isChain_append.mpr ⟨separate, after, fun last _ next first => ?_⟩
  cases first
  exact .inr punctuation

mutual

/-- No token of a value runs into the next. -/
theorem isChain_tokens : (json : Json) → json.tokens.IsChain Token.Separate
  | .null => by simp [tokens]
  | .bool value => by simp [tokens]
  | .number value => by simp [tokens]
  | .string value => by simp [tokens]
  | .array items => by
    have opened : (Token.openArray :: itemTokens items).IsChain Token.Separate :=
      isChain_cons_punctuation rfl (isChain_itemTokens items)
    exact isChain_append_punctuation opened rfl (by simp)
  | .object members => by
    have opened : (Token.openObject :: memberTokens members).IsChain Token.Separate :=
      isChain_cons_punctuation rfl (isChain_memberTokens members)
    exact isChain_append_punctuation opened rfl (by simp)

theorem isChain_itemTokens : (items : List Json) → (itemTokens items).IsChain Token.Separate
  | [] => by simp [itemTokens]
  | [json] => isChain_tokens json
  | json :: second :: rest =>
    isChain_append_punctuation (isChain_tokens json) rfl
      (isChain_cons_punctuation rfl (isChain_itemTokens (second :: rest)))

theorem isChain_memberTokens :
    (members : List (String × Json)) → (memberTokens members).IsChain Token.Separate
  | [] => by simp [memberTokens]
  | [(name, json)] =>
    isChain_cons_punctuation rfl (isChain_cons_punctuation rfl (isChain_tokens json))
  | (name, json) :: second :: rest =>
    isChain_cons_punctuation rfl <| isChain_cons_punctuation rfl <|
      isChain_append_punctuation (isChain_tokens json) rfl
        (isChain_cons_punctuation rfl (isChain_memberTokens (second :: rest)))

end

/-! ### Nesting -/

mutual

/-- The tree of a value. -/
def toTree : Json → Tree
  | .null => .null
  | .bool value => .bool value
  | .number value => .number (some value)
  | .string value => .string (some value)
  | .array items => .array (itemTrees items)
  | .object members => .object (memberTrees members)

/-- The trees of the items of an array. -/
def itemTrees : List Json → List Tree
  | [] => []
  | json :: rest => json.toTree :: itemTrees rest

/-- The trees of the members of an object. -/
def memberTrees : List (String × Json) → List (Option String × Tree)
  | [] => []
  | (name, json) :: rest => (some name, json.toTree) :: memberTrees rest

end

namespace Reading

/-- Read tokens one after another. -/
def run (reading : Reading) (row : List Token) : Option Reading := row.foldlM step reading

theorem run_cons (reading : Reading) (token : Token) (row : List Token) :
    reading.run (token :: row) = (reading.step token).bind fun reached => reached.run row := rfl

theorem run_append (reading : Reading) (first second : List Token) :
    reading.run (first ++ second) = (reading.run first).bind fun reached => reached.run second :=
  foldlM_append

/-- Where an item or the end of an array may follow, an item is read as a value. -/
theorem run_valueOrClose (pending : List Open) (json : Json) (row : List Token) :
    run ⟨pending, .valueOrClose⟩ (json.tokens ++ row) =
      run ⟨pending, .value⟩ (json.tokens ++ row) := by
  obtain ⟨token, rest, first, opening⟩ :
      ∃ token rest, json.tokens = token :: rest ∧ token ≠ .closeArray := by
    cases json <;> exact ⟨_, _, rfl, nofun⟩
  have same : step ⟨pending, .valueOrClose⟩ token = step ⟨pending, .value⟩ token := by
    simp only [step]
    split
    · contradiction
    · rfl
  rw [first, cons_append, run_cons, run_cons, same]

theorem itemTokens_cons (json : Json) (rest : List Json) :
    ∃ row, itemTokens (json :: rest) = json.tokens ++ row := by
  cases rest with
  | nil => exact ⟨[], (append_nil _).symm⟩
  | cons second rest => exact ⟨_, rfl⟩

theorem memberTokens_cons (name : String) (json : Json) (rest : List (String × Json)) :
    ∃ row, memberTokens ((name, json) :: rest) = .string (some name) :: row := by
  cases rest with
  | nil => exact ⟨_, rfl⟩
  | cons second rest => exact ⟨_, rfl⟩

mutual

/-- The tokens of a value are read as its tree. -/
theorem run_tokens (pending : List Open) :
    (json : Json) → run ⟨pending, .value⟩ json.tokens = some ⟨pending, .done json.toTree⟩
  | .null => rfl
  | .bool value => rfl
  | .number value => rfl
  | .string value => rfl
  | .array [] => rfl
  | .array (json :: rest) => by
    have items := run_itemTokens pending [] (json :: rest) nofun
    obtain ⟨row, split⟩ := itemTokens_cons json rest
    rw [split, append_assoc, ← run_valueOrClose, ← append_assoc, ← split] at items
    exact items
  | .object [] => rfl
  | .object ((name, json) :: rest) => by
    have members := run_memberTokens pending [] ((name, json) :: rest) nofun
    obtain ⟨row, split⟩ := memberTokens_cons name json rest
    have opened : run ⟨pending, .value⟩ (.openObject :: memberTokens ((name, json) :: rest) ++
        [.closeObject]) =
        run ⟨pending, .name []⟩ (memberTokens ((name, json) :: rest) ++ [.closeObject]) := by
      rw [split]
      rfl
    exact opened.trans members

/-- Items up to the end of the array are added to those read before. -/
theorem run_itemTokens (pending : List Open) (before : List Tree) :
    (items : List Json) → items ≠ [] →
      run ⟨.array before :: pending, .value⟩ (itemTokens items ++ [.closeArray]) =
        some ⟨pending, .done (.array (before.reverse ++ itemTrees items))⟩
  | [], empty => absurd rfl empty
  | [json], _ => by
    have item := run_tokens (.array before :: pending) json
    change run _ (json.tokens ++ [.closeArray]) = _
    rw [run_append, item, Option.bind_some]
    simp [run, step, afterValue, itemTrees]
  | json :: second :: rest, _ => by
    have item := run_tokens (.array before :: pending) json
    have others := run_itemTokens pending (json.toTree :: before) (second :: rest) nofun
    have behind : run ⟨.array before :: pending, .done json.toTree⟩
        (.comma :: (itemTokens (second :: rest) ++ [.closeArray])) =
        run ⟨.array (json.toTree :: before) :: pending, .value⟩
          (itemTokens (second :: rest) ++ [.closeArray]) := rfl
    change run _ ((json.tokens ++ .comma :: itemTokens (second :: rest)) ++ [.closeArray]) = _
    rw [append_assoc, run_append, item, Option.bind_some, cons_append, behind, others]
    simp [itemTrees]

/-- Members up to the end of the object are added to those read before. -/
theorem run_memberTokens (pending : List Open) (before : List (Option String × Tree)) :
    (members : List (String × Json)) → members ≠ [] →
      run ⟨pending, .name before⟩ (memberTokens members ++ [.closeObject]) =
        some ⟨pending, .done (.object (before.reverse ++ memberTrees members))⟩
  | [], empty => absurd rfl empty
  | [(name, json)], _ => by
    have member := run_tokens (.object before (some name) :: pending) json
    have named : run ⟨pending, .name before⟩
        (.string (some name) :: .colon :: (json.tokens ++ [.closeObject])) =
        run ⟨.object before (some name) :: pending, .value⟩ (json.tokens ++ [.closeObject]) := rfl
    change run _ (.string (some name) :: .colon :: (json.tokens ++ [.closeObject])) = _
    rw [named, run_append, member, Option.bind_some]
    simp [run, step, afterValue, memberTrees]
  | (name, json) :: second :: rest, _ => by
    have member := run_tokens (.object before (some name) :: pending) json
    have others := run_memberTokens pending ((some name, json.toTree) :: before) (second :: rest)
      nofun
    have named (row : List Token) : run ⟨pending, .name before⟩
        (.string (some name) :: .colon :: row) =
        run ⟨.object before (some name) :: pending, .value⟩ row := rfl
    have behind : run ⟨.object before (some name) :: pending, .done json.toTree⟩
        (.comma :: (memberTokens (second :: rest) ++ [.closeObject])) =
        run ⟨pending, .name ((some name, json.toTree) :: before)⟩
          (memberTokens (second :: rest) ++ [.closeObject]) := rfl
    change run _ (.string (some name) :: .colon ::
      ((json.tokens ++ .comma :: memberTokens (second :: rest)) ++ [.closeObject])) = _
    rw [named, append_assoc, run_append, member, Option.bind_some, cons_append, behind,
      others]
    simp [memberTrees]

end

end Reading

/-! ### Texts of values -/

/-- A value nested at most so deep that is read back from its text: no name stands twice in an
object, and every number has a literal. -/
inductive Sound : Nat → Json → Prop where
  | null {depth : Nat} : Sound depth .null
  | bool {depth : Nat} (value : Bool) : Sound depth (.bool value)
  | number {depth : Nat} {value : Number} (readable : value.Readable) : Sound depth (.number value)
  | string {depth : Nat} (value : String) : Sound depth (.string value)
  | array {depth : Nat} {items : List Json} (sound : ∀ item ∈ items, Sound depth item) :
      Sound (depth + 1) (.array items)
  | object {depth : Nat} {members : List (String × Json)}
      (distinct : (members.map Prod.fst).Nodup) (sound : ∀ member ∈ members, Sound depth member.2) :
      Sound (depth + 1) (.object members)

mutual

/-- What a value is read back as. -/
def reread : Json → Json
  | .number value => .number value.reread
  | .array items => .array (rereadItems items)
  | .object members => .object (rereadMembers members)
  | json => json

/-- What the items of an array are read back as. -/
def rereadItems : List Json → List Json
  | [] => []
  | json :: rest => json.reread :: rereadItems rest

/-- What the members of an object are read back as. -/
def rereadMembers : List (String × Json) → List (String × Json)
  | [] => []
  | (name, json) :: rest => (name, json.reread) :: rereadMembers rest

end

theorem reread_bool (value : Bool) : (bool value).reread = bool value := by rw [reread] <;> nofun

theorem reread_string (text : String) : (string text).reread = string text := by
  rw [reread] <;> nofun

theorem reread_array (items : List Json) : (array items).reread = array (rereadItems items) := by
  rw [reread]

theorem reread_object (members : List (String × Json)) :
    (object members).reread = object (rereadMembers members) := by
  rw [reread]

theorem rereadItems_eq (items : List Json) : rereadItems items = items.map reread := by
  induction items with
  | nil => rfl
  | cons json rest ih => rw [rereadItems, ih, map_cons]

theorem rereadMembers_eq (members : List (String × Json)) :
    rereadMembers members = members.map fun member => (member.1, member.2.reread) := by
  induction members with
  | nil => rfl
  | cons member rest ih => rw [rereadMembers, ih, map_cons]

mutual

theorem tokens_reread : (json : Json) → json.reread.tokens = json.tokens.map Token.reread
  | .null => rfl
  | .bool value => rfl
  | .number value => rfl
  | .string value => rfl
  | .array items => by
    simp [reread, tokens, itemTokens_reread items, Token.reread]
  | .object members => by
    simp [reread, tokens, memberTokens_reread members, Token.reread]

theorem itemTokens_reread :
    (items : List Json) → itemTokens (rereadItems items) = (itemTokens items).map Token.reread
  | [] => rfl
  | [json] => tokens_reread json
  | json :: second :: rest => by
    have others := itemTokens_reread (second :: rest)
    simp only [rereadItems, itemTokens] at others ⊢
    simp [tokens_reread json, others, Token.reread]

theorem memberTokens_reread :
    (members : List (String × Json)) →
      memberTokens (rereadMembers members) = (memberTokens members).map Token.reread
  | [] => rfl
  | [(name, json)] => by
    simp [rereadMembers, memberTokens, tokens_reread json, Token.reread]
  | (name, json) :: (second, other) :: rest => by
    have others := memberTokens_reread ((second, other) :: rest)
    simp only [rereadMembers, memberTokens] at others ⊢
    simp [tokens_reread json, others, Token.reread]

end

theorem readable_itemTokens (readable : ∀ item ∈ items, ∀ token ∈ item.tokens, token.Readable) :
    ∀ token ∈ itemTokens items, token.Readable := by
  induction items with
  | nil => simp [itemTokens]
  | cons json rest ih =>
    have own := readable json mem_cons_self
    have others := ih fun item member => readable item (mem_cons_of_mem _ member)
    cases rest with
    | nil => exact own
    | cons second rest =>
      simp only [itemTokens, mem_append, mem_cons]
      rintro token (member | rfl | member)
      · exact own token member
      · trivial
      · exact others token member

theorem readable_memberTokens
    (readable : ∀ member ∈ members, ∀ token ∈ member.2.tokens, token.Readable) :
    ∀ token ∈ memberTokens members, token.Readable := by
  induction members with
  | nil => simp [memberTokens]
  | cons member rest ih =>
    obtain ⟨name, json⟩ := member
    have own := readable (name, json) mem_cons_self
    have others := ih fun item member => readable item (mem_cons_of_mem _ member)
    cases rest with
    | nil =>
      simp only [memberTokens, mem_cons]
      rintro token (rfl | rfl | member)
      · rfl
      · trivial
      · exact own token member
    | cons second rest =>
      simp only [memberTokens, cons_append, mem_append, mem_cons]
      rintro token (rfl | rfl | member | rfl | member)
      · rfl
      · trivial
      · exact own token member
      · trivial
      · exact others token member

theorem Sound.readable (sound : Sound depth json) : ∀ token ∈ json.tokens, token.Readable := by
  induction sound with
  | null | bool | string => simp [tokens, Token.Readable]
  | number readable => simpa [tokens, Token.Readable] using readable
  | array _ ih =>
    have items := readable_itemTokens ih
    simp only [tokens, cons_append, mem_cons, mem_append, not_mem_nil, or_false]
    rintro token (rfl | member | rfl)
    · trivial
    · exact items token member
    · trivial
  | object _ _ ih =>
    have members := readable_memberTokens ih
    simp only [tokens, cons_append, mem_cons, mem_append, not_mem_nil, or_false]
    rintro token (rfl | member | rfl)
    · trivial
    · exact members token member
    · trivial

theorem itemsToJson?_itemTrees (whole : ∀ item ∈ items, item.toTree.toJson? depth = some item) :
    Tree.itemsToJson? depth (itemTrees items) = some items := by
  induction items with
  | nil => rfl
  | cons json rest ih =>
    have others := ih fun item member => whole item (mem_cons_of_mem _ member)
    simp [itemTrees, Tree.itemsToJson?, whole json mem_cons_self, others]

theorem membersToJson?_memberTrees
    (whole : ∀ member ∈ members, member.2.toTree.toJson? depth = some member.2) :
    Tree.membersToJson? depth (memberTrees members) = some members := by
  induction members with
  | nil => rfl
  | cons member rest ih =>
    have others := ih fun item member => whole item (mem_cons_of_mem _ member)
    simp [memberTrees, Tree.membersToJson?, whole member mem_cons_self, others]

/-- The tree of what is read back has a value. -/
theorem Sound.toJson?_reread (sound : Sound depth json) :
    json.reread.toTree.toJson? depth = some json.reread := by
  induction sound with
  | null | bool | number | string => simp [reread, toTree, Tree.toJson?]
  | array _ ih =>
    have items := itemsToJson?_itemTrees (forall_mem_map.mpr ih)
    simp only [reread, toTree, Tree.toJson?, rereadItems_eq, items, Option.map_some]
  | @object depth members distinct _ ih =>
    have whole : ∀ member ∈ members.map fun member => (member.1, member.2.reread),
        member.2.toTree.toJson? depth = some member.2 := forall_mem_map.mpr ih
    have names : ((members.map fun member => (member.1, member.2.reread)).map Prod.fst).Nodup := by
      rw [map_map]
      exact distinct
    simp only [reread, toTree, Tree.toJson?, rereadMembers_eq, membersToJson?_memberTrees whole,
      Option.map_some, Table.entries_ofList names]

/-- The text of a value stands for the tree of what it is read back as. -/
theorem Sound.parse?_tree (sound : Sound depth json) :
    Tree.parse? json.render = some json.reread.toTree := by
  have row := tokens?_flatMap sound.readable (isChain_tokens json)
  have tree := Reading.run_tokens [] json.reread
  rw [tokens_reread] at tree
  have nested : (json.tokens.map Token.reread).foldlM Reading.step ({} : Reading) =
      some ⟨[], .done json.reread.toTree⟩ := tree
  simp [Tree.parse?, render, row, nested, Reading.finish]

/-- A value is read back from its text, its fractions as what their literals denote. -/
theorem parse?_render (sound : Sound maxDepth json) : parse? json.render = some json.reread := by
  simp [parse?, sound.parse?_tree, sound.toJson?_reread]

/-! ### Integers -/

theorem fits_int32 (number : Int32) : Number.Fits number.toInt := by
  have low := Int32.le_toInt number
  have high := Int32.toInt_lt number
  unfold Number.Fits
  omega

theorem int32?_int (number : Int32) : (int number.toInt).int32? = some number := by
  have within : Int32.minValue.toInt ≤ number.toInt ∧ number.toInt ≤ Int32.maxValue.toInt :=
    ⟨Int32.minValue_le_toInt number, Int32.toInt_le number⟩
  rw [int32?, int, intWithin?, if_pos within, Option.map_some, Int32.ofInt_toInt]

theorem int64?_int (low : -2 ^ 63 ≤ value) (high : value < 2 ^ 63) :
    (int value).int64? = some value := by
  have least : Int64.minValue.toInt = -2 ^ 63 := by decide
  have greatest : Int64.maxValue.toInt = 2 ^ 63 - 1 := by decide
  rw [int64?, int, intWithin?, if_pos ⟨low, by omega⟩]

theorem sound_int (fits : Number.Fits value) : Sound depth (int value) :=
  .number (Number.readable_integer fits)

theorem reread_int (fits : Number.Fits value) : (int value).reread = int value := by
  rw [int, reread, Number.reread_integer fits]

end InkStory.Json
