import InkStory.Json.Number
import Mathlib

/-! # Numerals read back -/

namespace InkStory

namespace Text

theorem numeral_ofNat (value : Nat) : numeral (ofNat value) = value :=
  Nat.ofDigitChars_ten_toDigits

theorem isDigit_of_mem_ofNat {value : Nat} {c : Char} (member : c ∈ ofNat value) :
    c.isDigit :=
  Nat.isDigit_of_mem_toDigits (by decide) (by decide) member

theorem ofNat_ne_nil (value : Nat) : ofNat value ≠ [] := Nat.toDigits_ne_nil

theorem digits?_ofNat (value : Nat) : digits? (ofNat value) = some value := by
  have digits : (ofNat value).all Char.isDigit :=
    List.all_eq_true.mpr fun _ member => isDigit_of_mem_ofNat member
  simp [digits?, digits, ofNat_ne_nil, numeral_ofNat]

theorem natural?_ofNat (value : Nat) : natural? (ofNat value) = some value := by
  have read := digits?_ofNat value
  unfold natural?
  split
  · next text signed =>
    have digit : ('+' : Char).isDigit :=
      isDigit_of_mem_ofNat (signed ▸ List.mem_cons_self)
    exact absurd digit (by decide)
  · exact read

/-- Only the numeral of zero begins with a zero. -/
theorem head_ofNat {value : Nat} (positive : 0 < value) : (ofNat value).head? ≠ some '0' := by
  unfold ofNat
  induction value using Nat.strongRecOn with
  | ind value ih =>
    rw [Nat.toDigits_eq_if (by decide)]
    split
    · next small =>
      intro zero
      have code := congrArg Char.toNat (Option.some.inj zero)
      rw [Nat.toNat_digitChar_of_lt_ten small] at code
      exact absurd code (by simp; omega)
    · next large =>
      have tens := ih (value / 10) (by omega) (by omega)
      cases digits : Nat.toDigits 10 (value / 10) with
      | nil => exact absurd digits Nat.toDigits_ne_nil
      | cons first rest =>
        rw [digits] at tens
        exact tens

end Text

namespace Json.Number

open InkStory.Number Text

theorem span_digits {digits rest : List Char} (all : ∀ c ∈ digits, c.isDigit)
    (stops : rest.head?.all (fun c => !c.isDigit)) :
    (digits ++ rest).takeWhile Char.isDigit = digits ∧
      (digits ++ rest).dropWhile Char.isDigit = rest := by
  have none : rest.takeWhile Char.isDigit = [] ∧ rest.dropWhile Char.isDigit = rest := by
    cases rest with
    | nil => exact ⟨rfl, rfl⟩
    | cons c rest => simp_all
  rw [List.takeWhile_append_of_pos all, List.dropWhile_append_of_pos all, none.1, none.2]
  simp

/-- The text of an exponent, with its sign. -/
def markedText : Option Int → List Char
  | some exponent => 'e' :: (if exponent < 0 then '-' else '+') :: ofNat exponent.natAbs
  | none => []

/-- The text of the digits behind a point. -/
def decimalsText : Option (List Char) → List Char
  | some digits => '.' :: digits
  | none => []

/-- The text of a literal. -/
def Literal.text (literal : Literal) : List Char :=
  signed literal.negative
    (literal.whole ++ (decimalsText literal.fraction ++ markedText literal.exponent))

/-- Digits stand on both sides of the point, and no zero leads others. -/
structure Literal.WellFormed (literal : Literal) : Prop where
  whole : ∀ c ∈ literal.whole, c.isDigit = true
  present : literal.whole ≠ []
  leading : literal.whole.head? = some '0' → literal.whole.length = 1
  fraction : ∀ digits, literal.fraction = some digits →
    digits ≠ [] ∧ ∀ c ∈ digits, c.isDigit = true

theorem marked?_markedText (exponent : Option Int) :
    marked? (markedText exponent) = some exponent := by
  cases exponent with
  | none => rfl
  | some exponent =>
    have read : exponent? ((if exponent < 0 then '-' else '+') :: ofNat exponent.natAbs) =
        some exponent := by
      split
      · next negative =>
        change (digits? (ofNat exponent.natAbs)).map (fun value : Nat => -(value : Int)) = _
        rw [digits?_ofNat, Option.map_some, Option.some.injEq]
        omega
      · next positive =>
        change (digits? (ofNat exponent.natAbs)).map Int.ofNat = _
        rw [digits?_ofNat, Option.map_some, Option.some.injEq, Int.ofNat_eq_natCast]
        omega
    simp [marked?, markedText, read]

theorem decimals?_decimalsText {fraction : Option (List Char)} (exponent : Option Int)
    (digits : ∀ digits, fraction = some digits → digits ≠ [] ∧ ∀ c ∈ digits, c.isDigit) :
    decimals? (decimalsText fraction ++ markedText exponent) =
      some (fraction, markedText exponent) := by
  cases fraction with
  | none =>
    cases exponent with
    | none => rfl
    | some exponent => rfl
  | some found =>
    obtain ⟨present, all⟩ := digits found rfl
    have stops : (markedText exponent).head?.all (fun c => !c.isDigit) := by
      cases exponent with
      | none => rfl
      | some exponent => rfl
    obtain ⟨taken, left⟩ := span_digits all stops
    simp [decimals?, decimalsText, taken, left, present]

theorem unsign_signed {negative : Bool} {text : List Char} (unsigned : text.head? ≠ some '-') :
    unsign (signed negative text) = (negative, text) := by
  cases negative with
  | true => rfl
  | false =>
    unfold unsign signed
    split
    · simp_all
    · rfl

/-- A literal is read back from its text. -/
theorem literal?_text {literal : Literal} (wellFormed : literal.WellFormed) :
    literal? literal.text = some literal := by
  obtain ⟨negative, whole, fraction, exponent⟩ := literal
  obtain ⟨digits, present, leading, decimals⟩ := wellFormed
  have unsigned : (whole ++ (decimalsText fraction ++ markedText exponent)).head? ≠ some '-' := by
    obtain ⟨first, rest, rfl⟩ := List.exists_cons_of_ne_nil present
    rintro ⟨⟩
    exact absurd (digits '-' List.mem_cons_self) (by decide)
  have stops : (decimalsText fraction ++ markedText exponent).head?.all (fun c => !c.isDigit) =
      true := by
    cases fraction <;> cases exponent <;> rfl
  obtain ⟨taken, left⟩ := span_digits digits stops
  have begun : (whole.isEmpty || (whole.head? == some '0' && decide (1 < whole.length))) = false := by
    by_cases zero : whole.head? = some '0'
    · simp [present, leading zero]
    · simp [present, zero]
  simp [Literal.text, literal?, unsign_signed unsigned, taken, left, begun,
    decimals?_decimalsText exponent decimals, marked?_markedText]

end Json.Number

end InkStory
