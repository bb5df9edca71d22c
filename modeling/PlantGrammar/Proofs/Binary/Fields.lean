import PlantGrammar.Proofs.Binary.Representable
import PlantGrammar.Proofs.Binary.Single

/-!
# The fields of a single-precision word

A word has a bit for the sign, eight for the exponent and the rest for the mantissa. The
number that is unpacked from these fields is the one that the magnitude word stands for
when it counts last places. It is a fraction, so it can be compared with numbers that are
written in any other way.
-/
namespace PlantGrammar.Single

open Float.Model (UnpackedFloat)
open Float.Model.UnpackedFloat

def isNegative : Sign → Bool
  | .negative => true
  | .positive => false

/-- The sign of a finite number and its size. -/
def signedSize? : UnpackedFloat → Option (Bool × ℚ)
  | .zero sign => some (isNegative sign, 0)
  | .finite sign mantissa exponent _ => some (isNegative sign, mantissa * 2 ^ exponent)
  | .infinity _ | .notANumber => none

theorem isSome_signedSize? (u : UnpackedFloat) : (signedSize? u).isSome = u.isFinite := by
  cases u <;> rfl

section Fields

variable (word : BitVec Float.Model.Format.binary32.numBits)

theorem toNat_unpackMantissa : (unpackMantissa word).toNat = word.toNat % 2 ^ 23 := by
  simp [unpackMantissa, BitVec.extractLsb_toNat]

theorem toNat_unpackExponent : (unpackExponent word).toNat = word.toNat / 2 ^ 23 % 2 ^ 8 := by
  simp [unpackExponent, BitVec.extractLsb_toNat, Nat.shiftRight_eq_div_pow]

theorem toNat_unpackSign : (unpackSign word).toNat = word.toNat / 2 ^ 31 := by
  have bound : word.toNat < 2 ^ 32 := word.isLt
  simp only [unpackSign, BitVec.toNat_cast, BitVec.extractLsb_toNat, Nat.shiftRight_eq_div_pow]
  norm_num
  omega

theorem isNegative_unpackSign :
    isNegative (Sign.ofBitVec (unpackSign word)) = decide (2 ^ 31 ≤ word.toNat) := by
  have bound : word.toNat < 2 ^ 32 := word.isLt
  have sign := toNat_unpackSign word
  unfold Sign.ofBitVec
  split
  · rename_i zero
    rw [zero, BitVec.toNat_ofNat] at sign
    exact (decide_eq_false (by omega)).symm
  · rename_i one
    rw [← BitVec.toNat_inj, BitVec.toNat_ofNat] at one
    exact (decide_eq_true (by omega)).symm

/-- The magnitude word by its exponent field and its mantissa field. -/
theorem valueOf_fields (word : ℕ) :
    Binary.Format.binary32.valueOf (word % 0x80000000) =
      if word / 2 ^ 23 % 2 ^ 8 = 0 then ⟨word % 2 ^ 23, -149⟩
      else ⟨word % 2 ^ 23 + 2 ^ 23, -149 + (word / 2 ^ 23 % 2 ^ 8 - 1 : ℕ)⟩ := by
  have field : word % 0x80000000 / 2 ^ 23 = word / 2 ^ 23 % 2 ^ 8 := by omega
  have rest : word % 0x80000000 % 2 ^ 23 = word % 2 ^ 23 := by omega
  simp only [Binary.Format.valueOf, Binary.Format.binary32, Nat.one_shiftLeft, Nat.reduceSub,
    field, rest]
  split
  · congr 1
    omega
  · rfl

/-- The number in the fields of a word is the one that its magnitude word stands for. -/
theorem signedSize?_unpack :
    signedSize? (unpack Float.Model.Format.binary32 word) =
      if word.toNat % 0x80000000 < Binary.Format.binary32.infinity then
        some (decide (0x80000000 ≤ word.toNat),
          (Binary.Format.binary32.valueOf (word.toNat % 0x80000000)).toRat)
      else none := by
  have mantissa := toNat_unpackMantissa word
  have exponent := toNat_unpackExponent word
  have negative := isNegative_unpackSign word
  have finite_iff : word.toNat % 0x80000000 < Binary.Format.binary32.infinity ↔
      word.toNat / 2 ^ 23 % 2 ^ 8 ≠ 255 := by
    generalize word.toNat = bits
    change bits % 0x80000000 < 0x7f800000 ↔ _
    omega
  rw [valueOf_fields]
  unfold unpack
  dsimp only
  by_cases greatest : unpackExponent word = -1#8
  · have field : word.toNat / 2 ^ 23 % 2 ^ 8 = 255 := by rw [← exponent, greatest]; rfl
    rw [if_pos greatest, if_neg (fun finite => finite_iff.1 finite field)]
    split <;> rfl
  have finite : word.toNat / 2 ^ 23 % 2 ^ 8 ≠ 255 := by
    rw [← exponent]
    exact fun h => greatest (BitVec.eq_of_toNat_eq h)
  rw [if_neg greatest, if_pos (finite_iff.2 finite)]
  by_cases least : unpackExponent word = 0#8
  · have field : word.toNat / 2 ^ 23 % 2 ^ 8 = 0 := by rw [← exponent, least]; rfl
    rw [if_pos least, if_pos field]
    split
    · rename_i nothing
      have zero : word.toNat % 2 ^ 23 = 0 := by rw [← mantissa, nothing]; rfl
      rw [signedSize?, negative, zero, Binary.Dyadic.toRat, Nat.cast_zero, zero_mul]
      rfl
    · rw [signedSize?, negative, mantissa, exponent, field]
      rfl
  · have normal : word.toNat / 2 ^ 23 % 2 ^ 8 ≠ 0 := by
      rw [← exponent]
      exact fun h => least (BitVec.eq_of_toNat_eq h)
    have full : (1#1 ++ unpackMantissa word).toNat = word.toNat % 2 ^ 23 + 2 ^ 23 := by
      rw [← mantissa, BitVec.toNat_append,
        ← Nat.shiftLeft_add_eq_or_of_lt (unpackMantissa word).isLt, Nat.add_comm]
      rfl
    have exponents : ((word.toNat / 2 ^ 23 % 2 ^ 8 : ℕ) : ℤ) -
        ((Float.Model.Format.binary32.exponentBias : ℕ) + (23 : ℕ)) =
        -149 + (word.toNat / 2 ^ 23 % 2 ^ 8 - 1 : ℕ) := by
      have bias : Float.Model.Format.binary32.exponentBias = 127 := rfl
      omega
    rw [if_neg least, if_neg normal, signedSize?, negative, full, exponent, exponents]
    rfl

end Fields

end PlantGrammar.Single
