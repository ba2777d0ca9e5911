import InkStory.Proofs.JsonTokens

/-! # Decimals laid out and read back

The layout of a decimal is the text of a literal (`Literal.text_ofDecimal`), from whose digits and
exponent the decimal is read as it was or, if it has no fraction, with a zero more
(`Literal.decimal_ofDecimal`). -/

namespace InkStory.Json.Number

open InkStory.Number Text List

/-! ### Digits of a literal -/

theorem le_ofDigitChars (start : ℕ) (digits : List Char) :
    start ≤ Nat.ofDigitChars 10 digits start := by
  induction digits generalizing start with
  | nil => exact le_rfl
  | cons c digits ih =>
    rw [Nat.ofDigitChars_cons]
    exact le_trans (by omega) (ih _)

theorem numeral_append_zeros (digits : List Char) (count : ℕ) :
    numeral (digits ++ replicate count '0') = numeral digits * 10 ^ count := by
  change Nat.ofDigitChars 10 _ 0 = Nat.ofDigitChars 10 _ 0 * _
  rw [Nat.ofDigitChars_append, Nat.ofDigitChars_replicate_zero, mul_comm]

theorem numeral_zeros_append (digits : List Char) (count : ℕ) :
    numeral (replicate count '0' ++ digits) = numeral digits := by
  change Nat.ofDigitChars 10 _ 0 = Nat.ofDigitChars 10 _ 0
  rw [Nat.ofDigitChars_append, Nat.ofDigitChars_replicate_zero, mul_zero]

theorem takeDigits_of_lt {start : ℕ} {digits : List Char}
    (short : Nat.ofDigitChars 10 digits start < UInt64.size) :
    takeDigits start digits = (Nat.ofDigitChars 10 digits start, []) := by
  induction digits generalizing start with
  | nil => rfl
  | cons c digits ih =>
    rw [takeDigits, if_pos ((le_ofDigitChars _ digits).trans_lt short)]
    exact ih short

/-- The decimal that the digits of a literal and its exponent make up. -/
def Literal.decimal (literal : Literal) : Decimal :=
  ⟨numeral (literal.whole ++ literal.fraction.getD []),
    literal.exponent.getD 0 - (literal.fraction.getD []).length⟩

/-- What is read for the digits and the exponent of a decimal. -/
def scaled (decimal : Decimal) : Option Scaled :=
  scale (Format.double.nearestScaled decimal.digits 1) decimal.exponent

/-- A literal that is not an integer has the value of its decimal, scaled step by step. -/
theorem ofLiteral_of_lt {literal : Literal} (short : literal.decimal.digits < UInt64.size)
    (fractional : literal.fraction ≠ none ∨ literal.exponent ≠ none) :
    ofLiteral literal = (scaled literal.decimal).map (.fraction literal.negative) := by
  obtain ⟨negative, whole, fraction, exponent⟩ := literal
  have all : ofLiteral ⟨negative, whole, fraction, exponent⟩ =
      ofDigits negative whole (fraction.getD []) (exponent.getD 0) := by
    unfold ofLiteral
    split
    · next none none' =>
      dsimp only at none none'
      simp [none, none'] at fractional
    · rfl
  have split : Nat.ofDigitChars 10 (fraction.getD []) (Nat.ofDigitChars 10 whole 0) =
      numeral (whole ++ fraction.getD []) := (Nat.ofDigitChars_append 0).symm
  have short : Nat.ofDigitChars 10 (fraction.getD []) (Nat.ofDigitChars 10 whole 0) <
      UInt64.size := split ▸ short
  rw [all, ofDigits, takeDigits_of_lt ((le_ofDigitChars _ _).trans_lt short)]
  simp only [takeDigits_of_lt short, split, length_nil, Nat.cast_zero, add_zero]
  exact (Option.map_eq_bind ..).symm

/-! ### Literals of decimals -/

/-- A decimal is read with the digits and the exponent it has or, if it has no fraction, with a zero
more. -/
def ReadAs (decimal read : Decimal) : Prop :=
  read = decimal ∨ 0 ≤ decimal.exponent ∧ decimal.pointPosition ≤ 16 ∧
    read = ⟨decimal.digits * 10 ^ (decimal.exponent.toNat + 1), -1⟩

/-- The literal that a decimal is laid out as. -/
def Literal.ofDecimal (negative : Bool) (decimal : Decimal) : Literal :=
  let digits := ofNat decimal.digits
  let point := decimal.pointPosition
  if -5 < point ∧ point ≤ 16 then
    if 0 ≤ decimal.exponent then
      ⟨negative, digits ++ List.replicate decimal.exponent.toNat '0', some ['0'], none⟩
    else if 0 < point then
      ⟨negative, digits.take point.toNat, some (digits.drop point.toNat), none⟩
    else ⟨negative, ['0'], some (List.replicate (-point).toNat '0' ++ digits), none⟩
  else
    ⟨negative, digits.take 1, if digits.length = 1 then none else some (digits.drop 1),
      some (point - 1)⟩

namespace Literal

variable (negative : Bool) {decimal : Decimal}

theorem scientific_eq (decimal : Decimal) :
    decimal.scientific true = (ofNat decimal.digits).take 1 ++
      (decimalsText (if (ofNat decimal.digits).length = 1 then none
        else some ((ofNat decimal.digits).drop 1)) ++
        markedText (some (decimal.pointPosition - 1))) := by
  unfold Decimal.scientific markedText
  dsimp only
  split
  · next none => exact absurd none (ofNat_ne_nil _)
  · next digit single => split <;> simp [single, decimalsText]
  · next digit rest many several =>
    have more : rest ≠ [] := fun none => many none
    split <;> simp [several, more, decimalsText]

theorem text_ofDecimal : (ofDecimal negative decimal).text = signed negative (layout decimal) := by
  have guard : (decide (-5 < decimal.pointPosition) && decide (decimal.pointPosition ≤ 16)) ↔
      -5 < decimal.pointPosition ∧ decimal.pointPosition ≤ 16 := by simp
  unfold ofDecimal layout
  simp only [guard]
  by_cases positional : -5 < decimal.pointPosition ∧ decimal.pointPosition ≤ 16
  · rw [if_pos positional]
    unfold Decimal.withFraction Decimal.positional
    split_ifs with whole fractional
    · simp [text, decimalsText, markedText]
    · simp [text, decimalsText, markedText, fractional]
    · simp [text, decimalsText, markedText, fractional]
  · rw [if_neg positional, if_neg positional, scientific_eq]
    rfl

theorem wellFormed_ofDecimal (positive : 0 < decimal.digits) :
    (ofDecimal negative decimal).WellFormed := by
  obtain ⟨digits, isDigits⟩ : ∃ digits, digits = ofNat decimal.digits := ⟨_, rfl⟩
  have all : ∀ c ∈ digits, c.isDigit := by
    rw [isDigits]
    exact fun _ member => isDigit_of_mem_ofNat member
  have present : digits ≠ [] := isDigits ▸ ofNat_ne_nil _
  have leading : digits.head? ≠ some '0' := isDigits ▸ head_ofNat positive
  have zeros (count : ℕ) : ∀ c ∈ replicate count '0', c.isDigit := by
    intro c member
    rw [eq_of_mem_replicate member]
    rfl
  have point : decimal.pointPosition = digits.length + decimal.exponent := by
    rw [isDigits]
    rfl
  unfold ofDecimal
  dsimp only
  rw [← isDigits]
  split_ifs with positional whole fractional single
  · refine ⟨?_, by simp [present], ?_, ?_⟩
    · exact forall_mem_append.mpr ⟨all, zeros _⟩
    · rw [head?_append_of_ne_nil _ present]
      exact fun zero => absurd zero leading
    · rintro _ ⟨⟩
      exact ⟨cons_ne_nil _ _, forall_mem_singleton.mpr rfl⟩
  · refine ⟨fun c member => all c (mem_of_mem_take member), ?_, ?_, ?_⟩
    · simp only [ne_eq, take_eq_nil_iff, not_or]
      exact ⟨by omega, present⟩
    · rw [head?_take, if_neg (by omega)]
      exact fun zero => absurd zero leading
    · rintro _ ⟨⟩
      refine ⟨?_, fun c member => all c (mem_of_mem_drop member)⟩
      simp only [ne_eq, drop_eq_nil_iff]
      omega
  · refine ⟨zeros 1, cons_ne_nil _ _, fun _ => rfl, ?_⟩
    rintro _ ⟨⟩
    exact ⟨by simp [present], forall_mem_append.mpr ⟨zeros _, all⟩⟩
  · refine ⟨fun c member => all c (mem_of_mem_take member), by simp [present], ?_, nofun⟩
    rw [head?_take]
    exact fun zero => absurd zero leading
  · refine ⟨fun c member => all c (mem_of_mem_take member), by simp [present], ?_, ?_⟩
    · rw [head?_take]
      exact fun zero => absurd zero leading
    · rintro _ ⟨⟩
      refine ⟨?_, fun c member => all c (mem_of_mem_drop member)⟩
      have := length_pos_iff.mpr present
      simp only [ne_eq, drop_eq_nil_iff]
      omega

theorem decimal_ofDecimal : ReadAs decimal (ofDecimal negative decimal).decimal := by
  obtain ⟨value, exponent⟩ := decimal
  have read := numeral_ofNat value
  have present : 0 < (ofNat value).length := length_pos_iff.mpr (ofNat_ne_nil value)
  have point : Decimal.pointPosition ⟨value, exponent⟩ = (ofNat value).length + exponent := rfl
  unfold ofDecimal
  dsimp only
  split_ifs with positional whole fractional single
  · refine .inr ⟨whole, positional.2, ?_⟩
    rw [decimal, Decimal.mk.injEq]
    refine ⟨?_, rfl⟩
    have zeros : replicate exponent.toNat '0' ++ ['0'] =
        replicate (exponent.toNat + 1) '0' := replicate_succ'.symm
    dsimp only [Option.getD]
    rw [append_assoc, zeros, numeral_append_zeros, read]
  · left
    rw [decimal, Decimal.mk.injEq]
    dsimp only [Option.getD]
    rw [take_append_drop, length_drop]
    exact ⟨read, by omega⟩
  · left
    rw [decimal, Decimal.mk.injEq]
    refine ⟨?_, by simp; omega⟩
    change numeral (replicate ((-Decimal.pointPosition ⟨value, exponent⟩).toNat + 1) '0' ++ _) = _
    rw [numeral_zeros_append, read]
  · left
    rw [decimal, Decimal.mk.injEq]
    dsimp only [Option.getD]
    rw [append_nil, take_of_length_le single.le]
    exact ⟨read, by simp; omega⟩
  · left
    rw [decimal, Decimal.mk.injEq]
    dsimp only [Option.getD]
    rw [take_append_drop, length_drop]
    exact ⟨read, by omega⟩

theorem fractional_ofDecimal :
    (ofDecimal negative decimal).fraction ≠ none ∨ (ofDecimal negative decimal).exponent ≠ none := by
  unfold ofDecimal
  dsimp only
  split_ifs <;> simp

end Literal

/-- What is read for a decimal laid out. -/
theorem exists_ofLiteral_ofDecimal (negative : Bool) {decimal : Decimal}
    (short : decimal.digits < UInt64.size) :
    ∃ read, ReadAs decimal read ∧ read.digits < UInt64.size ∧
      ofLiteral (.ofDecimal negative decimal) = (scaled read).map (.fraction negative) := by
  have sign : (Literal.ofDecimal negative decimal).negative = negative := by
    unfold Literal.ofDecimal
    dsimp only
    split_ifs <;> rfl
  have read := @Literal.decimal_ofDecimal negative decimal
  suffices few : (Literal.ofDecimal negative decimal).decimal.digits < UInt64.size by
    refine ⟨_, read, few, ?_⟩
    rw [ofLiteral_of_lt few (Literal.fractional_ofDecimal negative), sign]
  rcases read with same | ⟨whole, few, more⟩
  · rwa [same]
  · rw [more]
    have present : 0 < (ofNat decimal.digits).length := length_pos_iff.mpr (ofNat_ne_nil _)
    have bounded : decimal.digits < 10 ^ (ofNat decimal.digits).length :=
      (Nat.length_toDigits_le_iff (by decide) present).mp le_rfl
    have point : decimal.pointPosition = (ofNat decimal.digits).length + decimal.exponent := rfl
    calc decimal.digits * 10 ^ (decimal.exponent.toNat + 1)
        < 10 ^ (ofNat decimal.digits).length * 10 ^ (decimal.exponent.toNat + 1) :=
          Nat.mul_lt_mul_of_pos_right bounded (Nat.pow_pos (by decide))
      _ = 10 ^ ((ofNat decimal.digits).length + (decimal.exponent.toNat + 1)) := (pow_add ..).symm
      _ ≤ 10 ^ 17 := Nat.pow_le_pow_right (by decide) (by omega)
      _ < UInt64.size := by decide

end InkStory.Json.Number
