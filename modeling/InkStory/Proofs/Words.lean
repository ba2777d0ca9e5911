import InkStory.Number.Single
import InkStory.Proofs.Rounding

/-! # Single-precision words

A finite number is what its parts say it is (`Single.ofParts_of_parts`), and they are in the form in
which the format has them (`Single.canonical_of_parts`). -/

namespace InkStory.Single

variable {negative : Bool} {magnitude : Scaled}

section Bits

open Float.Model Float.Model.UnpackedFloat

/-- A word is its sign, its exponent field and its fraction, side by side. -/
theorem packComponents_unpack (bits : BitVec 32) :
    packComponents .binary32 (Sign.ofBitVec (@unpackSign .binary32 bits))
      (@unpackExponent .binary32 bits) (@unpackMantissa .binary32 bits) = bits := by
  have sign (bit : BitVec 1) : (Sign.ofBitVec bit).toBitVec = bit := by
    revert bit
    decide
  have bounded := bits.isLt
  apply BitVec.eq_of_toNat_eq
  simp only [packComponents, sign, unpackSign, unpackExponent, unpackMantissa, BitVec.toNat_append,
    BitVec.toNat_cast, BitVec.extractLsb_toNat]
  rw [← Nat.shiftLeft_add_eq_or_of_lt (by omega), ← Nat.shiftLeft_add_eq_or_of_lt (by omega)]
  omega

variable {sign : Sign} {exponent : BitVec 8} {fraction : BitVec 23}

theorem pack_subnormal (positive : 0 < fraction.toNat) :
    UnpackedFloat.pack .binary32 (.finite sign fraction.toNat (-149) positive) =
      packComponents .binary32 sign 0#8 fraction := by
  have small : fraction.toNat < 2 ^ 23 := fraction.isLt
  have short : fraction.toNat.log2 < 23 := (Nat.log2_lt positive.ne').mpr small
  unfold UnpackedFloat.pack
  rw [if_neg (by decide), if_neg (by simp only [Format.mantissaBits]; omega), BitVec.ofNat_toNat,
    BitVec.setWidth_eq]

theorem pack_normal (ordinary : exponent.toNat ≠ 255) (positive : 0 < (1#1 ++ fraction).toNat) :
    UnpackedFloat.pack .binary32 (.finite sign (1#1 ++ fraction).toNat (exponent.toNat - 150) positive) =
      packComponents .binary32 sign exponent fraction := by
  have small : fraction.toNat < 2 ^ 23 := fraction.isLt
  have join : (1#1 ++ fraction).toNat = 2 ^ 23 + fraction.toNat := by
    rw [BitVec.toNat_append, ← Nat.shiftLeft_add_eq_or_of_lt small]
    rfl
  have long : (1#1 ++ fraction).toNat.log2 = 23 := by
    rw [Nat.log2_eq_iff (by omega)]
    omega
  have biased : ((exponent.toNat : ℤ) - 150 + (Format.binary32.exponentBias : ℕ) + (23 : ℕ)).toNat =
      exponent.toNat := by
    simp only [Format.exponentBias]
    omega
  have field : BitVec.ofNat 23 (1#1 ++ fraction).toNat = fraction := by
    apply BitVec.eq_of_toNat_eq
    rw [BitVec.toNat_ofNat]
    omega
  unfold UnpackedFloat.pack
  dsimp only
  rw [biased, if_neg (by omega), if_pos (by rw [long]; rfl), field, BitVec.ofNat_toNat,
    BitVec.setWidth_eq]

/-- Of the words that are no number only one is in use; every word in use is packed as it was
unpacked. -/
theorem pack_unpack {bits : BitVec 32} (valid : Format.binary32.Valid bits) :
    UnpackedFloat.pack .binary32 (UnpackedFloat.unpack .binary32 bits) = bits := by
  have whole := packComponents_unpack bits
  unfold UnpackedFloat.unpack
  dsimp only
  split
  · next special =>
    split
    · next blank =>
      rw [special, blank] at whole
      exact whole
    · next filled => exact (valid.eq_packedNaN special filled).symm
  · next ordinary =>
    split
    · next least =>
      rw [least] at whole
      split
      · next blank =>
        rw [blank] at whole
        exact whole
      · simp only [least]
        exact (pack_subnormal _).trans whole
    · exact (pack_normal (fun same => ordinary (BitVec.eq_of_toNat_eq same)) _).trans whole

theorem ofBits_toBits (number : Single) : Float32.ofBits number.toBits = number := by
  obtain ⟨word, valid⟩ := number
  have same := pack_unpack valid
  simp only [Float32.ofBits, Float32.toBits, Float32.Model.ofBits, Float32.Model.pack, same]

end Bits

open Number

/-- The parts of a finite word make up the word again, and are in the form of the format. -/
theorem finite_unpack {word : ℕ} (bounded : word < 2 ^ 32)
    (finite : Format.single.unpack word = .finite negative magnitude) :
    Format.single.pack (.finite negative magnitude) = word ∧ Format.single.Canonical magnitude ∧
      magnitude.exponent ≤ 104 := by
  unfold Format.unpack at finite
  unfold Format.pack
  simp only [show Format.single.exponentUnit = 2 ^ 23 from rfl,
    show Format.single.specialField = 255 from rfl, show Format.single.signUnit = 2 ^ 31 from rfl] at finite ⊢
  split at finite
  · split at finite <;> contradiction
  · split at finite
    · cases finite
      refine ⟨?_, ⟨?_, ?_, .inr rfl⟩, ?_⟩
      · simp only [decide_eq_true_eq]
        split <;> omega
      · change word % 2 ^ 23 < 2 ^ 24
        omega
      · exact le_rfl
      · exact (by decide : (-149 : ℤ) ≤ 104)
    · cases finite
      refine ⟨?_, ⟨?_, ?_, .inl ?_⟩, ?_⟩
      · simp only [decide_eq_true_eq]
        split <;> omega
      · change 2 ^ 23 + word % 2 ^ 23 < 2 ^ 24
        omega
      · change (-149 : ℤ) ≤ -149 + ((word / 2 ^ 23 % (255 + 1) - 1 : ℕ) : ℤ)
        omega
      · change 2 ^ 23 ≤ 2 ^ 23 + word % 2 ^ 23
        omega
      · change -149 + ((word / 2 ^ 23 % (255 + 1) - 1 : ℕ) : ℤ) ≤ 104
        omega

variable {number : Single}

theorem ofParts_of_parts (finite : number.parts = .finite negative magnitude) :
    ofParts (.finite negative magnitude) = number := by
  rw [ofParts, (finite_unpack number.toBits.toNat_lt finite).1, UInt32.ofNat_toNat, ofBits_toBits]

theorem canonical_of_parts (finite : number.parts = .finite negative magnitude) :
    Format.single.Canonical magnitude ∧ magnitude.exponent ≤ 104 :=
  (finite_unpack number.toBits.toNat_lt finite).2

end InkStory.Single
