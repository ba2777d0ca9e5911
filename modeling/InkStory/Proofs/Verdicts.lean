import InkStory.Proofs.ItemOrder
import InkStory.Proofs.Words

/-! # Comparisons and logic

Comparisons of values agree with each other on any two values, whatever their kinds
(`Operator.comparisons_agree`), and logic agrees with what holds as a condition
(`Operator.logic_agrees`). -/

namespace InkStory

namespace Single

open Float.Model

/-- Numbers are equal if both are zeros, or if they have the same form. -/
theorem compare_eq_iff {first second : UnpackedFloat} : first.compare second = some .eq ↔
    (∃ sign other, first = .zero sign ∧ second = .zero other) ∨
      first = second ∧ first ≠ .notANumber := by
  rcases first with ⟨⟨⟩⟩ | _ | ⟨⟨⟩⟩ | ⟨⟨⟩, _, _, _⟩ <;>
    rcases second with ⟨⟨⟩⟩ | _ | ⟨⟨⟩⟩ | ⟨⟨⟩, _, _, _⟩ <;>
    simp [UnpackedFloat.compare, and_comm] <;> decide

theorem beq_iff {left right : Single} : left == right ↔
    left.toModel.unpack.compare right.toModel.unpack = some .eq :=
  (beq_iff_eq : (left.toModel.unpack.compare right.toModel.unpack == some .eq) = true ↔ _)

theorem beq_comm (left right : Single) : (left == right) = (right == left) := by
  rw [Bool.eq_iff_iff, beq_iff, beq_iff, compare_eq_iff, compare_eq_iff]
  constructor
  all_goals
    rintro (⟨sign, other, here, there⟩ | ⟨same, number⟩)
    · exact .inl ⟨other, sign, there, here⟩
    · exact .inr ⟨same.symm, same ▸ number⟩

/-- Only the words of the two zeros equal zero. -/
theorem word_of_beq_zero {bits : UInt32}
    (number : bits.toNat / 2 ^ 23 % 2 ^ 8 = 255 → bits.toNat % 2 ^ 23 = 0)
    (zero : Float32.ofBits bits == 0) : bits.toNat % 2 ^ 31 = 0 := by
  have valid : Format.binary32.Valid bits.toBitVec := by
    refine ⟨fun special filled => absurd (BitVec.eq_of_toNat_eq ?_) filled⟩
    have field : bits.toNat / 2 ^ 23 % 2 ^ 8 = 255 := by
      simpa [UnpackedFloat.unpackExponent, Nat.shiftRight_eq_div_pow] using
        congrArg BitVec.toNat special
    simpa [UnpackedFloat.unpackMantissa] using number field
  have word := pack_unpack valid
  have model :
      (Float32.ofBits bits).toModel.unpack = UnpackedFloat.unpack .binary32 bits.toBitVec :=
    congrArg (UnpackedFloat.unpack .binary32) word
  rw [beq_iff, compare_eq_iff, model] at zero
  obtain ⟨sign, blank⟩ : ∃ sign, UnpackedFloat.unpack .binary32 bits.toBitVec = .zero sign := by
    rcases zero with ⟨sign, _, blank, _⟩ | ⟨same, -⟩
    · exact ⟨sign, blank⟩
    · exact ⟨.positive, same⟩
  rw [blank] at word
  cases sign <;> simp [← UInt32.toNat_toBitVec, ← word] <;> rfl

open Number

/-- The word of a number that is not zero has more than its sign. -/
theorem pack_nearest (negative : Bool) {numerator : ℕ} (positive : 0 < numerator) :
    ∃ rest, Format.single.pack (Format.single.nearest negative numerator 1) =
      (if negative then 2 ^ 31 else 0) + rest ∧ 0 < rest ∧ rest ≤ 255 * 2 ^ 23 := by
  have canonical := Format.single.canonical_nearestScaled (by decide) positive one_pos
  have filled : (Format.single.nearestScaled numerator 1).significand ≠ 0 := by
    intro empty
    have least := canonical.full.resolve_left (by rw [empty]; decide)
    have high := (Format.single.admits_nearestScaled (by decide) positive one_pos).high
    rw [empty, least] at high
    have one : (1 : ℚ) ≤ numerator := by exact_mod_cast positive
    norm_num [Format.single] at high
    linarith
  have fits : (Format.single.nearestScaled numerator 1).significand < 2 ^ 24 := canonical.fits
  unfold Format.nearest Format.round
  dsimp only
  split
  · next found =>
    split at found
    · contradiction
    · next within =>
      cases found
      have most : (Format.single.nearestScaled numerator 1).exponent ≤ 104 := not_lt.mp within
      refine ⟨((Format.single.nearestScaled numerator 1).exponent + 149).toNat * 2 ^ 23 +
        (Format.single.nearestScaled numerator 1).significand, add_assoc _ _ _, ?_, ?_⟩ <;> omega
  · exact ⟨255 * 2 ^ 23, rfl, by decide, le_rfl⟩

/-- Only zero becomes a zero. -/
theorem ofInt_beq_zero (value : Int) : (ofInt value == 0) = (value == 0) := by
  by_cases isZero : value = 0
  · rw [isZero]
    decide +kernel
  rw [beq_eq_false_iff_ne.mpr isZero, Bool.eq_false_iff]
  intro zero
  obtain ⟨rest, word, filled, most⟩ := pack_nearest (decide (value < 0)) (Int.natAbs_pos.mpr isZero)
  have small :
      Format.single.pack (Format.single.nearest (decide (value < 0)) value.natAbs 1) < 2 ^ 32 := by
    rw [word]
    split <;> omega
  have bits : (UInt32.ofNat (Format.single.pack
      (Format.single.nearest (decide (value < 0)) value.natAbs 1))).toNat = _ :=
    (UInt32.toNat_ofNat_of_lt small).trans word
  have blank := word_of_beq_zero (by rw [bits]; split <;> omega) zero
  rw [bits] at blank
  split at blank <;> omega

end Single

theorem ItemSet.same_comm (left right : ItemSet) : left.same right = right.same left := by
  rw [Bool.eq_iff_iff, same_iff, same_iff]
  exact forall_congr' fun item => eq_comm

namespace Operator

variable {first second : Operator} {relate : Bool → Bool} (lists : ListDefinitions)
  (left right : Value)

/-- Two results that fail together, or else are truth values of which one follows from the other. -/
def Agree (relate : Bool → Bool) (first second : Except Fault Value) : Prop :=
  ∃ answer : Option Bool, first.toOption = answer.map Value.bool ∧
    second.toOption = (answer.map relate).map Value.bool

/-- Whether an operator does neither arithmetic nor logic with sets. -/
def compares : Operator → Bool
  | add | subtract | and | or => false
  | _ => true

/-- Two values brought to one kind, for comparison. A set is compared with a set only. -/
def common? (left right : Value) : Option (Value × Value) :=
  if left.kind = .list ∨ right.kind = .list then
    if left.kind = right.kind then some (left, right) else none
  else do
    let kind := (ValueKind.int.widest left.kind).widest right.kind
    let left ← (left.cast kind).toOption
    let right ← (right.cast kind).toOption
    return (left, right)

theorem common?_swap : common? right left = (common? left right).map Prod.swap := by
  have kinds (left right : ValueKind) : (ValueKind.int.widest right).widest left =
      (ValueKind.int.widest left).widest right := by
    cases left <;> cases right <;> rfl
  unfold common?
  simp only [kinds left.kind, or_comm, eq_comm]
  split
  · split <;> rfl
  · cases left.cast _ <;> cases right.cast _ <;> rfl

theorem toOption_apply (compares : first.compares) :
    (first.apply lists [left, right]).toOption =
      (common? left right).bind fun (left, right) => (first.onSameKind left right).toOption := by
  change (first.applyBinary lists left right).toOption = _
  unfold applyBinary common?
  by_cases mixed : left.kind = .list ∨ right.kind = .list
  · rw [if_pos mixed, if_pos mixed]
    unfold onListOperands
    split <;> first | cases compares | rfl | skip
    next apart _ _ =>
      rw [if_neg]
      · rfl
      · intro same
        cases left <;> cases right <;> simp_all [Value.kind]
  · rw [if_neg mixed, if_neg mixed]
    dsimp only
    cases left.cast _ <;> cases right.cast _ <;> rfl

theorem agree_apply (one : first.compares) (other : second.compares)
    (agree : ∀ left right,
      Agree relate (first.onSameKind left right) (second.onSameKind left right)) :
    Agree relate (first.apply lists [left, right]) (second.apply lists [left, right]) := by
  unfold Agree
  rw [toOption_apply _ _ _ one, toOption_apply _ _ _ other]
  cases common? left right with
  | none => exact ⟨none, rfl, rfl⟩
  | some pair => exact agree pair.1 pair.2

theorem agree_apply_swap (one : first.compares) (other : second.compares)
    (agree : ∀ left right, Agree id (first.onSameKind left right) (second.onSameKind right left)) :
    Agree id (first.apply lists [left, right]) (second.apply lists [right, left]) := by
  unfold Agree
  rw [toOption_apply _ _ _ one, toOption_apply _ _ _ other, common?_swap left right]
  cases common? left right with
  | none => exact ⟨none, rfl, rfl⟩
  | some pair => exact agree pair.1 pair.2

theorem agree_of_eq {answer other : Bool} (same : other = relate answer) :
    Agree relate (.ok (.bool answer)) (.ok (.bool other)) :=
  ⟨some answer, rfl, congrArg (fun answer => some (Value.bool answer)) same⟩

theorem agree_of_error (fault other : Fault) : Agree relate (.error fault) (.error other) :=
  ⟨none, rfl, rfl⟩

/-- Comparisons agree on any two values: those that deny each other, and those that are one
another's converse. -/
theorem comparisons_agree :
    Agree Bool.not (equal.apply lists [left, right]) (notEqual.apply lists [left, right]) ∧
      Agree id (equal.apply lists [left, right]) (equal.apply lists [right, left]) ∧
      Agree id (less.apply lists [left, right]) (greater.apply lists [right, left]) ∧
      Agree id (lessOrEqual.apply lists [left, right]) (greaterOrEqual.apply lists [right, left]) ∧
      Agree Bool.not (has.apply lists [left, right]) (hasNot.apply lists [left, right]) := by
  refine ⟨agree_apply _ _ _ rfl rfl fun left right => ?_,
    agree_apply_swap _ _ _ rfl rfl fun left right => ?_,
    agree_apply_swap _ _ _ rfl rfl fun left right => ?_,
    agree_apply_swap _ _ _ rfl rfl fun left right => ?_,
    agree_apply _ _ _ rfl rfl fun left right => ?_⟩
  all_goals
    cases left <;> cases right <;> first | exact agree_of_error _ _ | exact agree_of_eq rfl | skip
  case refine_2.int.int => exact agree_of_eq BEq.comm
  case refine_2.float.float => exact agree_of_eq (Single.beq_comm _ _)
  case refine_2.list.list => exact agree_of_eq (ItemSet.same_comm _ _)
  case refine_2.string.string => exact agree_of_eq BEq.comm
  case refine_2.divertTarget.divertTarget => exact agree_of_eq BEq.comm
  case refine_3.list.list => exact agree_of_eq (ItemSet.lt_eq_gt _ _).symm
  case refine_4.list.list => exact agree_of_eq (ItemSet.le_eq_ge _ _).symm

end Operator

/-- A value that logic admits. -/
def Value.isLogical : Value → Bool
  | bool _ | int _ | float _ | list _ => true
  | _ => false

/-- A number that a value becomes holds as a condition if the value does. -/
theorem Value.isTruthy_cast {value : Value} {kind : ValueKind} (logical : value.isLogical)
    (numeric : kind = .int ∨ kind = .float) (wide : value.kind.rank ≤ kind.rank) :
    ∃ number, value.cast kind = .ok number ∧ number.kind = kind ∧
      number.isTruthy = value.isTruthy := by
  rcases numeric with rfl | rfl
  · cases value with
    | bool value => cases value <;> exact ⟨_, rfl, rfl, rfl⟩
    | int value => exact ⟨_, rfl, rfl, rfl⟩
    | _ => contradiction
  · cases value with
    | bool value => cases value <;> exact ⟨_, rfl, rfl, by decide +kernel⟩
    | int value =>
      refine ⟨_, rfl, rfl, congrArg (fun zero => Except.ok !zero) ?_⟩
      rw [Single.ofInt_beq_zero, Bool.eq_iff_iff, beq_iff_eq, beq_iff_eq]
      exact Int32.toInt_inj (y := 0)
    | float value => exact ⟨_, rfl, rfl, rfl⟩
    | _ => contradiction

namespace Operator

variable {left right : Value} {holds alsoHolds : Bool}

theorem onSameKind_logic (numeric : left.kind = .int ∨ left.kind = .float)
    (same : right.kind = left.kind) (leftTruth : left.isTruthy = .ok holds)
    (rightTruth : right.isTruthy = .ok alsoHolds) :
    and.onSameKind left right = .ok (.bool (holds && alsoHolds)) ∧
      or.onSameKind left right = .ok (.bool (holds || alsoHolds)) := by
  cases left <;> cases right <;> simp [Value.kind] at numeric same
  all_goals
    cases leftTruth
    cases rightTruth
    exact ⟨rfl, rfl⟩

theorem applyBinary_logic (lists : ListDefinitions) (leftLogical : left.isLogical)
    (rightLogical : right.isLogical) (leftTruth : left.isTruthy = .ok holds)
    (rightTruth : right.isTruthy = .ok alsoHolds) :
    and.applyBinary lists left right = .ok (.bool (holds && alsoHolds)) ∧
      or.applyBinary lists left right = .ok (.bool (holds || alsoHolds)) := by
  unfold applyBinary
  by_cases mixed : left.kind = .list ∨ right.kind = .list
  · rw [if_pos mixed]
    unfold onListOperands
    cases left <;> cases right <;>
      simp_all [onLists, Value.isTruthy, bind, Except.bind, pure, Except.pure]
  · rw [if_neg mixed, if_neg mixed]
    have numeric : (ValueKind.int.widest left.kind).widest right.kind = .int ∨
        (ValueKind.int.widest left.kind).widest right.kind = .float := by
      cases left <;> cases right <;> simp_all [Value.isLogical, Value.kind] <;> decide
    have wide (left right : ValueKind) :
        left.rank ≤ ((ValueKind.int.widest left).widest right).rank ∧
          right.rank ≤ ((ValueKind.int.widest left).widest right).rank := by
      cases left <;> cases right <;> decide
    obtain ⟨number, cast, kind, truth⟩ := Value.isTruthy_cast leftLogical numeric (wide _ _).1
    obtain ⟨other, otherCast, otherKind, otherTruth⟩ :=
      Value.isTruthy_cast rightLogical numeric (wide _ _).2
    dsimp only
    rw [cast, otherCast]
    exact onSameKind_logic (kind ▸ numeric) (otherKind.trans kind.symm) (truth.trans leftTruth)
      (otherTruth.trans rightTruth)

/-- Logic agrees with what holds as a condition. -/
theorem logic_agrees (lists : ListDefinitions) (leftLogical : left.isLogical)
    (rightLogical : right.isLogical) :
    ∃ holds alsoHolds, left.isTruthy = .ok holds ∧ right.isTruthy = .ok alsoHolds ∧
      and.apply lists [left, right] = .ok (.bool (holds && alsoHolds)) ∧
      or.apply lists [left, right] = .ok (.bool (holds || alsoHolds)) ∧
      ∃ opposite, not.apply lists [left] = .ok opposite ∧ opposite.isTruthy = .ok !holds := by
  have truth {value : Value} (logical : value.isLogical) : ∃ holds, value.isTruthy = .ok holds := by
    cases value <;> first | contradiction | exact ⟨_, rfl⟩
  obtain ⟨holds, leftTruth⟩ := truth leftLogical
  obtain ⟨alsoHolds, rightTruth⟩ := truth rightLogical
  obtain ⟨both, either⟩ := applyBinary_logic lists leftLogical rightLogical leftTruth rightTruth
  refine ⟨holds, alsoHolds, leftTruth, rightTruth, both, either, ?_⟩
  cases left with
  | bool value => cases leftTruth; cases holds <;> exact ⟨_, rfl, rfl⟩
  | int | float => cases leftTruth; exact ⟨_, rfl, congrArg Except.ok (Bool.not_not _).symm⟩
  | list value =>
    cases leftTruth
    refine ⟨_, rfl, ?_⟩
    cases value.isEmpty <;> rfl
  | _ => contradiction

/-- An integer that single precision rounds, and an empty set. -/
theorem logic_agrees_mixed : ∃ holds alsoHolds, (Value.int 16777217).isTruthy = .ok holds ∧
    (Value.list {}).isTruthy = .ok alsoHolds ∧
    and.apply {} [.int 16777217, .list {}] = .ok (.bool (holds && alsoHolds)) ∧
    or.apply {} [.int 16777217, .list {}] = .ok (.bool (holds || alsoHolds)) ∧
    ∃ opposite, not.apply {} [.int 16777217] = .ok opposite ∧ opposite.isTruthy = .ok !holds :=
  logic_agrees {} rfl rfl

end Operator

end InkStory
