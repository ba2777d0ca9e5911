import InkStory.Proofs.Changes
import Mathlib

/-! # Shuffled sequences and random numbers

Every visit of a shuffled sequence works out the round from its beginning: as many elements are taken
as the round has shown, and the last one is shown. The visits of one round have the same draws, so
that they take the elements in one order (`Shuffle.order`), in which every element comes once. A
random number is a draw that is brought into its range (`Run.random_within`). -/

namespace InkStory

open List

variable {count size : Int32} {draw : Nat} {rest : List Content}

namespace Generator

variable {generator : Generator} {count more : Nat}

theorem length_draws (generator : Generator) (count : Nat) :
    (generator.draws count).length = count := by
  induction count generalizing generator with
  | zero => rfl
  | succ count ih => rw [draws, length_cons, ih]

/-- The draws of a generator do not depend on how many are asked for. -/
theorem take_draws (generator : Generator) (few : count ≤ more) :
    (generator.draws more).take count = generator.draws count := by
  induction count generalizing generator more with
  | zero => rfl
  | succ count ih =>
    cases more with
    | zero => contradiction
    | succ more =>
      rw [draws, draws, take_succ_cons, ih _ (Nat.le_of_succ_le_succ few)]

theorem toNat_maxValue : Int32.maxValue.toInt.toNat = 2147483647 := by decide

theorem scaled_lt (word : Nat) :
    (word % UInt32.size * Int32.maxValue.toInt.toNat) >>> 32 < Int32.maxValue.toInt.toNat := by
  have low : word % UInt32.size < 4294967296 := Nat.mod_lt _ (by decide)
  rw [toNat_maxValue]
  omega

theorem drawWithin_lt (generator : Generator) (attempts : Nat) :
    (generator.drawWithin attempts).1 < Int32.maxValue.toInt.toNat := by
  induction attempts generalizing generator with
  | zero =>
    exact Nat.zero_lt_succ _
  | succ attempts ih =>
    rw [drawWithin]
    dsimp only
    split
    · exact scaled_lt _
    · exact ih _

theorem lt_of_mem_draws (member : draw ∈ generator.draws count) :
    draw < Int32.maxValue.toInt.toNat := by
  induction count generalizing generator with
  | zero => cases member
  | succ count ih =>
    rcases mem_cons.mp member with rfl | later
    · exact drawWithin_lt _ _
    · exact ih later

end Generator

namespace Shuffle

variable {elements : List Int32} {draws : List Nat} {position : Nat} {loop : Int32}

/-- What is left of elements when one was taken for every draw. -/
def left (elements : List Int32) (draws : List Nat) : List Int32 :=
  draws.foldl (fun left draw => left.eraseIdx (draw % left.length)) elements

/-- The elements in the order in which draws take them. -/
def order (elements : List Int32) : List Nat → List Int32
  | [] => []
  | draw :: more =>
    elements[draw % elements.length]?.toList ++
      order (elements.eraseIdx (draw % elements.length)) more

/-- Draws go once through elements: they take all of them in some order, and every draw finds one. -/
structure GoesThrough (elements : List Int32) (draws : List Nat) (order : List Int32) : Prop where
  perm : order.Perm elements
  shows : ∀ {position : Nat} {shown : Int32}, order[position]? = some shown →
    pick? elements (draws.take (position + 1)) = some shown
  inRange : ∀ {before after : List Nat} {draw : Nat}, draws = before ++ draw :: after →
    draw % (left elements before).length < (left elements before).length

theorem order_cons (found : draw % elements.length < elements.length) (more : List Nat) :
    order elements (draw :: more) =
      elements[draw % elements.length] ::
        order (elements.eraseIdx (draw % elements.length)) more := by
  rw [order, getElem?_eq_getElem found]
  rfl

theorem pick?_cons (more : List Nat) (next : Nat) :
    pick? elements (draw :: next :: more) =
      pick? (elements.eraseIdx (draw % elements.length)) (next :: more) := rfl

theorem perm_order (all : draws.length = elements.length) : (order elements draws).Perm elements := by
  induction draws generalizing elements with
  | nil =>
    rw [eq_nil_of_length_eq_zero all.symm]
    exact .refl _
  | cons draw more ih =>
    have found : draw % elements.length < elements.length :=
      Nat.mod_lt _ (all ▸ Nat.succ_pos _)
    have fewer : more.length = (elements.eraseIdx (draw % elements.length)).length := by
      rw [length_eraseIdx_of_lt found, ← all]
      rfl
    rw [order_cons found]
    exact ((ih fewer).cons _).trans (getElem_cons_eraseIdx_perm found)

/-- A visit shows the element that the order has at its position. -/
theorem pick?_take (enough : draws.length ≤ elements.length) (within : position < draws.length) :
    pick? elements (draws.take (position + 1)) = (order elements draws)[position]? := by
  induction draws generalizing elements position with
  | nil => cases within
  | cons draw more ih =>
    have found : draw % elements.length < elements.length :=
      Nat.mod_lt _ (Nat.lt_of_lt_of_le (Nat.succ_pos _) enough)
    rw [order_cons found]
    cases position with
    | zero =>
      rw [take_succ_cons, take_zero, pick?, getElem?_eq_getElem found]
      rfl
    | succ position =>
      have later : position < more.length := Nat.lt_of_succ_lt_succ within
      have fewer : more.length ≤ (elements.eraseIdx (draw % elements.length)).length := by
        rw [length_eraseIdx_of_lt found]
        exact Nat.le_sub_one_of_lt enough
      have rest := ih fewer later
      obtain ⟨next, others, rfl⟩ := exists_cons_of_length_pos (Nat.zero_lt_of_lt later)
      rw [getElem?_cons_succ, ← rest, take_succ_cons, take_succ_cons, pick?_cons]

theorem length_left (enough : draws.length ≤ elements.length) :
    (left elements draws).length = elements.length - draws.length := by
  induction draws generalizing elements with
  | nil => rfl
  | cons draw more ih =>
    have found : draw % elements.length < elements.length :=
      Nat.mod_lt _ (Nat.lt_of_lt_of_le (Nat.succ_pos _) enough)
    have shorter := length_eraseIdx_of_lt found
    rw [length_cons] at enough
    have fewer : more.length ≤ (elements.eraseIdx (draw % elements.length)).length := by omega
    rw [left, foldl_cons, ← left, ih fewer, length_cons]
    omega

/-- As many draws as there are elements go through them, whatever they are. -/
theorem goesThrough_order (all : draws.length = elements.length) :
    GoesThrough elements draws (order elements draws) where
  perm := perm_order all
  shows := by
    intro position shown there
    have within : position < draws.length := by
      rw [all, ← (perm_order all).length_eq]
      exact (List.getElem?_eq_some_iff.mp there).1
    rw [pick?_take all.le within, there]
  inRange := by
    rintro before after draw rfl
    rw [List.length_append, List.length_cons] at all
    refine Nat.mod_lt _ ?_
    rw [length_left (by omega)]
    omega

/-! ### The elements of a sequence -/

theorem length_elements (size : Int32) : (Shuffle.elements size).length = size.toInt.toNat := by
  rw [Shuffle.elements, length_map, length_range]

theorem toInt_elements (size : Int32) :
    (Shuffle.elements size).map Int32.toInt = (range size.toInt.toNat).map Int.ofNat := by
  have bound := size.toInt_lt
  rw [Shuffle.elements, map_map]
  refine map_congr_left fun number member => ?_
  rw [mem_range] at member
  exact Int32.toInt_ofNat_of_lt (by omega)

theorem toInt_maxValue : Int32.maxValue.toInt = 2147483647 := by decide

theorem toInt_minValue : Int32.minValue.toInt = -2147483648 := by decide

theorem shown_nonneg (positive : 0 < size) (nonnegative : 0 ≤ loop) : 0 ≤ loop.toInt * size.toInt :=
  Int.mul_nonneg (Int32.le_iff_toInt_le.mp nonnegative) (Int32.lt_iff_toInt_lt.mp positive).le

/-- The round of a visit and its position there, for the number of visits before it. -/
theorem round_and_position (positive : 0 < size) (nonnegative : 0 ≤ loop)
    (within : position < size.toInt.toNat)
    (counted : count.toInt = loop.toInt * size.toInt + position) :
    count / size = loop ∧ (count % size).toInt = position := by
  have product := shown_nonneg positive nonnegative
  have notLeast : count ≠ Int32.minValue := by
    rintro rfl
    rw [toInt_minValue] at counted
    omega
  have small : (position : Int) < size.toInt := by omega
  constructor
  · rw [← Int32.toInt_inj, Int32.toInt_div_of_ne_left _ _ notLeast, counted,
      Int.tdiv_eq_ediv_of_nonneg (by omega), Int.add_comm, Int.add_mul_ediv_right _ _ (by omega),
      Int.ediv_eq_zero_of_lt (by omega) small, Int.zero_add]
  · rw [Int32.toInt_mod, counted, Int.tmod_eq_emod_of_nonneg (by omega), Int.add_comm,
      Int.add_mul_emod_self_right, Int.emod_eq_of_lt (by omega) small]

/-- The numbers of visits before those of a round are integers. -/
theorem exists_count (positive : 0 < size) (nonnegative : 0 ≤ loop)
    (fits : loop.toInt * size.toInt + size.toInt - 1 ≤ Int32.maxValue.toInt)
    (within : position < size.toInt.toNat) :
    ∃ count : Int32, count.toInt = loop.toInt * size.toInt + position := by
  have product := shown_nonneg positive nonnegative
  rw [toInt_maxValue] at fits
  refine ⟨Int32.ofInt (loop.toInt * size.toInt + position), Int32.toInt_ofInt_of_le ?_ ?_⟩ <;> omega

/-- The draws of a round: as many as there are elements, from the generator of its seed. -/
def roundDraws (path : Path) (seed size loop : Int32) : List Nat :=
  (Generator.ofSeed (checksum path.text + loop + seed)).draws size.toInt.toNat

theorem element?_eq {path : Path} {seed : Int32} (positive : 0 < size) (nonnegative : 0 ≤ loop)
    (within : position < size.toInt.toNat)
    (counted : count.toInt = loop.toInt * size.toInt + position) :
    element? path seed size count =
      pick? (Shuffle.elements size) ((roundDraws path seed size loop).take (position + 1)) := by
  obtain ⟨round, place⟩ := round_and_position positive nonnegative within counted
  have least : ¬ count % size < 0 := by
    rw [Int32.lt_iff_toInt_lt, place]
    change ¬ (position : Int) < 0
    omega
  rw [element?, if_neg least, round, place, roundDraws, Generator.take_draws _ within,
    Int.toNat_natCast]

end Shuffle

namespace Run

variable {program : Program} {state : State}

theorem popValue_apply {value : Value} (top : state.evaluation = .value value :: rest) :
    popValue state = .ok value { state with evaluation := rest } := by
  simp only [popValue, pop, bind_apply, get_apply, top]
  rfl

/-- The command takes size and count off the evaluation stack and pushes the element. -/
theorem shuffleIndex_apply {pointer : Pointer} {shown : Int32} (positive : 0 < size)
    (here : state.pointer = some pointer)
    (stack : state.evaluation = .value (.int size) :: .value (.int count) :: rest)
    (element : Shuffle.element? (program.containerPath pointer.container) state.seed size count =
      some shown) :
    perform program .shuffleIndex state =
      .ok () { state with evaluation := .value (.int shown) :: rest } := by
  have some_ : ¬ size ≤ 0 := Int32.not_le.mpr positive
  simp only [perform, shuffleIndex, bind_apply, popValue_apply stack, Value.int?, get_apply]
  rw [show State.pointer { state with evaluation := .value (.int count) :: rest } = some pointer
    from here]
  have next : popValue { state with evaluation := .value (.int count) :: rest } =
      .ok (.int count) { state with evaluation := rest } := popValue_apply rfl
  simp only [bind_apply, next, if_neg some_, get_apply, element]
  rfl

end Run

namespace Shuffle

/-- **A shuffle shows every element once a round.** The visits of a round, asked for by the command
with the size of the sequence and the number of visits before, show its elements in some order, each
once. Any draws go through the elements like that. -/
theorem shows_each_once (program : Program) (path : Path) (seed : Int32) {size loop : Int32}
    (positive : 0 < size) (nonnegative : 0 ≤ loop)
    (fits : loop.toInt * size.toInt + size.toInt - 1 ≤ Int32.maxValue.toInt) :
    (Shuffle.elements size).map Int32.toInt = (List.range size.toInt.toNat).map Int.ofNat ∧
    (∀ draws : List Nat, draws.length = size.toInt.toNat →
      ∃ order, GoesThrough (Shuffle.elements size) draws order) ∧
    (∀ draw ∈ roundDraws path seed size loop, draw < Int32.maxValue.toInt.toNat) ∧
    ∃ order, GoesThrough (Shuffle.elements size) (roundDraws path seed size loop) order ∧
      ∀ (position : Nat) (within : position < order.length),
        ∃ count : Int32, count.toInt = loop.toInt * size.toInt + position ∧
          ∀ (state : State) (pointer : Pointer) (rest : List Content),
            state.seed = seed → state.pointer = some pointer →
            program.containerPath pointer.container = path →
            state.evaluation = .value (.int size) :: .value (.int count) :: rest →
            Run.perform program .shuffleIndex state =
              .ok () { state with evaluation := .value (.int order[position]) :: rest } := by
  have all (draws : List Nat) (length : draws.length = size.toInt.toNat) :
      GoesThrough (Shuffle.elements size) draws (order (Shuffle.elements size) draws) :=
    goesThrough_order (length.trans (length_elements size).symm)
  have round := all (roundDraws path seed size loop) (Generator.length_draws _ _)
  refine ⟨toInt_elements size, fun draws length => ⟨_, all draws length⟩,
    fun draw member => Generator.lt_of_mem_draws member, _, round, fun position within => ?_⟩
  have small : position < size.toInt.toNat := by
    rwa [round.perm.length_eq, length_elements] at within
  obtain ⟨count, counted⟩ := exists_count positive nonnegative fits small
  refine ⟨count, counted, ?_⟩
  rintro state pointer rest rfl here rfl stack
  refine Run.shuffleIndex_apply positive here stack ?_
  rw [element?_eq positive nonnegative small counted]
  exact round.shows (List.getElem?_eq_getElem within)

/-- A state in which the command asks for one of four elements. -/
def askingFor (count : Int32) : State :=
  { seed := 7, evaluation := [.value (.int 4), .value (.int count)] }

/-- The visits of the fourth round through four elements. -/
theorem four_shown_once :
    (0 : Int32) < 4 ∧ (0 : Int32) ≤ 3 ∧
      (3 : Int32).toInt * (4 : Int32).toInt + (4 : Int32).toInt - 1 ≤ Int32.maxValue.toInt ∧
      ∃ order : List Int32, order.Perm [0, 1, 2, 3] ∧
        ∀ (position : Nat) (within : position < order.length),
          ∃ count : Int32, count.toInt = 12 + position ∧
            Run.perform default .shuffleIndex (askingFor count) =
              .ok () { askingFor count with evaluation := [.value (.int order[position])] } := by
  refine ⟨by decide, by decide, by decide, ?_⟩
  obtain ⟨-, -, -, order, round, shows⟩ := shows_each_once default
    (Program.containerPath default []) 7 (show (0 : Int32) < 4 by decide)
    (show (0 : Int32) ≤ 3 by decide) (by decide)
  refine ⟨order, round.perm, fun position within => ?_⟩
  obtain ⟨count, counted, shown⟩ := shows position within
  exact ⟨count, counted, shown (askingFor count) (Pointer.startOf []) [] rfl rfl rfl rfl⟩

end Shuffle

/-! ### Random numbers -/

theorem firstDraw_nonneg (seed : Int32) : 0 ≤ (firstDraw seed).toInt := by
  have less : (Generator.ofSeed seed).draw.1 < _ := Generator.drawWithin_lt _ _
  rw [firstDraw, Int32.toInt_ofNat_of_lt (less.trans (by decide))]
  exact Int.natCast_nonneg _

namespace Run

/-- There are numbers between two others, both included, and no more than can be counted. -/
def Spans (low high : Int32) : Prop :=
  1 ≤ high.toInt - low.toInt + 1 ∧ high.toInt - low.toInt + 1 ≤ 2 ^ 31 - 1

theorem rangeSize_cases (low high : Int32) :
    (∃ fault, rangeSize low high = .error fault) ∧ ¬Spans low high ∨
      rangeSize low high = .ok (high - low + 1) ∧ Spans low high := by
  unfold rangeSize Spans
  simp only [show Int32.maxValue.toInt = 2 ^ 31 - 1 from rfl,
    show Int32.minValue.toInt = -2 ^ 31 from rfl]
  split
  · exact .inl ⟨⟨_, rfl⟩, by omega⟩
  · split
    · exact .inl ⟨⟨_, rfl⟩, by omega⟩
    · refine .inr ⟨congrArg Except.ok ?_, by omega⟩
      rw [Int32.ofInt_add, Int32.ofInt_sub, Int32.ofInt_toInt, Int32.ofInt_toInt]
      rfl

/-- A draw is brought into a range without overflow. -/
theorem chosen_exact {low high drawn : Int32} (spans : Spans low high)
    (drawable : 0 ≤ drawn.toInt) :
    (high - low).toInt = high.toInt - low.toInt ∧
      (high - low + 1).toInt = high.toInt - low.toInt + 1 ∧
      (drawn % (high - low + 1) + low).toInt =
        drawn.toInt % (high.toInt - low.toInt + 1) + low.toInt ∧
      low ≤ drawn % (high - low + 1) + low ∧ drawn % (high - low + 1) + low ≤ high := by
  obtain ⟨nonempty, countable⟩ := spans
  have difference : (high - low).toInt = high.toInt - low.toInt := by
    rw [Int32.toInt_sub]
    exact Int.bmod_eq_of_le (by omega) (by omega)
  have size : (high - low + 1).toInt = high.toInt - low.toInt + 1 := by
    rw [Int32.toInt_add, difference, show (1 : Int32).toInt = 1 from rfl]
    exact Int.bmod_eq_of_le (by omega) (by omega)
  have least := low.le_toInt
  have most := high.toInt_lt
  have nonnegative := Int.emod_nonneg drawn.toInt (by omega : high.toInt - low.toInt + 1 ≠ 0)
  have less := Int.emod_lt_of_pos drawn.toInt (by omega : 0 < high.toInt - low.toInt + 1)
  have chosen : (drawn % (high - low + 1) + low).toInt =
      drawn.toInt % (high.toInt - low.toInt + 1) + low.toInt := by
    rw [Int32.toInt_add, Int32.toInt_mod, size, Int.tmod_eq_emod_of_nonneg drawable]
    exact Int.bmod_eq_of_le (by omega) (by omega)
  rw [Int32.le_iff_toInt_le, Int32.le_iff_toInt_le, chosen]
  exact ⟨difference, size, rfl, by omega, by omega⟩

/-- Random numbers stay in their range. The command fails unless there are numbers between the two on
the evaluation stack, and no more than can be counted. Otherwise no step to the number overflows, the
number lies between the two, and the draw is remembered. -/
theorem random_within (program : Program) (state : State) (low high : Int32) (rest : List Content) :
    let asked : State :=
      { state with evaluation := .value (.int high) :: .value (.int low) :: rest }
    let drawn := firstDraw (state.seed + state.previousDraw)
    let chosen := drawn % (high - low + 1) + low
    ((∃ error after, perform program .random asked = .error error after) ↔ ¬Spans low high) ∧
      (Spans low high →
        perform program .random asked =
          .ok () { state with evaluation := .value (.int chosen) :: rest, previousDraw := drawn } ∧
        (high - low).toInt = high.toInt - low.toInt ∧
        (high - low + 1).toInt = high.toInt - low.toInt + 1 ∧
        chosen.toInt = drawn.toInt % (high.toInt - low.toInt + 1) + low.toInt ∧
        low ≤ chosen ∧ chosen ≤ high) := by
  intro asked drawn chosen
  have run : perform program .random asked = (do
      let size ← ofFault (rangeSize low high)
      let drawn ← draw
      pushInt (drawn % size + low)
      remember drawn : Run Unit) { state with evaluation := rest } := rfl
  rw [run]
  rcases rangeSize_cases low high with ⟨⟨fault, failed⟩, empty⟩ | ⟨size, spans⟩
  · rw [failed]
    exact ⟨⟨fun _ => empty, fun _ => ⟨_, _, rfl⟩⟩, fun spans => absurd spans empty⟩
  · rw [size]
    refine ⟨⟨?_, fun empty => absurd spans empty⟩, fun _ => ⟨rfl, ?_⟩⟩
    · rintro ⟨error, after, failed⟩
      cases failed
    · exact chosen_exact spans (firstDraw_nonneg _)

/-- The widest range that ends at the greatest integer. -/
theorem random_positive : Spans 1 Int32.maxValue ∧
    (1 : Int32) ≤ firstDraw 0 % (Int32.maxValue - 1 + 1) + 1 ∧
      firstDraw 0 % (Int32.maxValue - 1 + 1) + 1 ≤ Int32.maxValue := by
  have spans : Spans 1 Int32.maxValue := by
    unfold Spans
    decide
  exact ⟨spans, ((random_within default default 1 Int32.maxValue []).2 spans).2.2.2.2⟩

end Run

end InkStory
