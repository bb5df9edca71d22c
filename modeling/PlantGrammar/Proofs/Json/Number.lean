import PlantGrammar.Json.Value
import PlantGrammar.Proofs.Binary.Fields

/-!
# Numbers that are read as they were written

A finite number of single precision is a fraction with a power of two below, and so it is
some decimal without rounding: over a power of ten, powers of five leave a power of two.
Whatever decimal or whole number is equal to it is read as that number: each of the two
roundings leaves a number as it is that the format holds, and those that are settled before
the rounding are too small or too large for single precision. What is beyond the range of
double precision would become infinite, so nothing that becomes a finite number is refused.
-/
namespace PlantGrammar.Json.Number

open Binary

def negative : Number → Bool
  | whole value => value < 0
  | decimal negative _ _ => negative

/-- The number without its sign. -/
def size : Number → ℚ
  | whole value => value.natAbs
  | decimal _ digits exponent => digits * 10 ^ exponent

/-- The number is exactly `x`, and a zero has the sign that `x` has. -/
def Denotes (n : Number) (x : Float32) : Prop :=
  Single.signedSize? (Single.unpacked x) = some (n.negative, n.size)

theorem signedSize?_unpacked (x : Float32) :
    Single.signedSize? (Single.unpacked x) =
      if magnitude x < Format.binary32.infinity then
        some (decide (0x80000000 ≤ x.toBits.toNat),
          (Format.binary32.valueOf (magnitude x)).toRat)
      else none :=
  Single.signedSize?_unpack x.toBits.toBitVec

theorem denotes_iff {n : Number} {x : Float32} :
    n.Denotes x ↔ magnitude x < Format.binary32.infinity ∧
      n.negative = decide (0x80000000 ≤ x.toBits.toNat) ∧
        n.size = (Format.binary32.valueOf (magnitude x)).toRat := by
  rw [Denotes, signedSize?_unpacked]
  split
  · rename_i finite
    rw [Option.some.injEq, Prod.mk.injEq, eq_comm, @eq_comm _ _ n.size]
    exact (and_iff_right finite).symm
  · rename_i infinite
    exact iff_of_false nofun (fun h => infinite h.1)

theorem magnitude_lt_iff (x : Float32) :
    magnitude x < Format.binary32.infinity ↔ x.isFinite = true := by
  rw [show x.isFinite = (Single.unpacked x).isFinite from rfl, ← Single.isSome_signedSize?,
    signedSize?_unpacked]
  split <;> simp [*]

theorem Denotes.isFinite {n : Number} {x : Float32} (h : n.Denotes x) : x.isFinite = true :=
  (magnitude_lt_iff x).1 (denotes_iff.1 h).1

/-- A number is put together again from its sign and its magnitude word. -/
theorem signed_magnitude (x : Float32) :
    signed (decide (0x80000000 ≤ x.toBits.toNat)) (magnitude x) = x := by
  have bound := x.toBits.toNat_lt
  rw [signed, magnitude]
  have word : (if decide (0x80000000 ≤ x.toBits.toNat) = true
      then x.toBits.toNat % 0x80000000 + 0x80000000 else x.toBits.toNat % 0x80000000) =
      x.toBits.toNat := by
    split
    · rename_i negative
      have large := of_decide_eq_true negative
      omega
    · rename_i positive
      have small := mt decide_eq_true positive
      omega
  rw [word, UInt32.ofNat_toNat, Float32.ofBits_toBits]

theorem size_lt_of_small {digits : ℕ} {exponent : ℤ} (h : exponent + digits.log2 < -400) :
    (digits : ℚ) * 10 ^ exponent < 2 ^ (-149 : ℤ) := by
  have mantissa : (digits : ℚ) < 2 ^ ((digits.log2 : ℤ) + 1) := by
    exact_mod_cast Nat.lt_log2_self (n := digits)
  have power : (10 : ℚ) ^ exponent ≤ 2 ^ exponent := by
    rw [← neg_neg exponent, zpow_neg, zpow_neg _ (-exponent)]
    exact inv_anti₀ (by positivity) (zpow_le_zpow_left₀ (by omega) (by norm_num) (by norm_num))
  calc (digits : ℚ) * 10 ^ exponent ≤ digits * 2 ^ exponent := by gcongr
    _ < 2 ^ ((digits.log2 : ℤ) + 1) * 2 ^ exponent := by gcongr
    _ = 2 ^ ((digits.log2 : ℤ) + 1 + exponent) := (zpow_add₀ two_ne_zero _ _).symm
    _ ≤ 2 ^ (-149 : ℤ) := zpow_le_zpow_right₀ one_le_two (by omega)

theorem lt_size_of_large {digits : ℕ} {exponent : ℤ} (hd : digits ≠ 0) (h : 400 < exponent) :
    2 ^ (129 : ℤ) ≤ (digits : ℚ) * 10 ^ exponent := by
  have mantissa : (1 : ℚ) ≤ digits := Nat.one_le_cast.2 (Nat.pos_of_ne_zero hd)
  calc (2 : ℚ) ^ (129 : ℤ) ≤ 2 ^ exponent := zpow_le_zpow_right₀ one_le_two (by omega)
    _ ≤ 10 ^ exponent := zpow_le_zpow_left₀ (by omega) (by norm_num) (by norm_num)
    _ ≤ digits * 10 ^ exponent := le_mul_of_one_le_left (by positivity) mantissa

/-- A decimal comes through both roundings as it was if single precision holds it. If it is
settled as too small, it is less than the least number, so it is zero. -/
theorem convertWord_nearestDouble {word digits : ℕ} {exponent : ℤ}
    (finite : word < Format.binary32.infinity)
    (same : (digits : ℚ) * 10 ^ exponent = (Format.binary32.valueOf word).toRat) :
    Format.binary32.convertWord Format.binary64 (nearestDouble digits exponent) = word := by
  unfold nearestDouble
  split
  · rename_i zero
    have value : (Format.binary32.valueOf word).toRat = 0 := by
      by_contra nonzero
      have lower := (Format.toRat_bounds finite nonzero).1
      rcases zero with rfl | small
      · simp [same.symm] at nonzero
      · exact absurd (size_lt_of_small small) (by rw [same]; exact not_lt.2 lower)
    have nothing : ((0 : ℕ) : ℚ) / (1 : ℕ) = (Format.binary32.valueOf word).toRat := by
      rw [value, Nat.cast_zero, zero_div]
    have rounded := Format.convertWord_nearestWord finite one_ne_zero nothing
    rwa [show Format.binary64.nearestWord 0 1 = 0 by decide] at rounded
  · rename_i proper
    obtain ⟨hd, -⟩ := not_or.1 proper
    have nonzero : (Format.binary32.valueOf word).toRat ≠ 0 := by
      rw [← same]
      positivity
    rw [if_neg fun large => absurd (lt_size_of_large hd large)
      (by rw [same]; exact not_le.2 (Format.toRat_bounds finite nonzero).2)]
    apply Format.convertWord_nearestWord finite (pow_ne_zero _ (by norm_num))
    rw [← same, zpow_eq_div (by norm_num)]
    simp only [Nat.pow_eq, Nat.cast_mul, Nat.cast_pow, Nat.cast_ofNat, mul_div_assoc]

theorem toFloat32_of_denotes {n : Number} {x : Float32} (h : n.Denotes x) : n.toFloat32 = x := by
  obtain ⟨finite, sign, same⟩ := denotes_iff.1 h
  rw [← signed_magnitude x, ← sign]
  cases n with
  | whole value =>
    have quotient : ((value.natAbs : ℕ) : ℚ) / (1 : ℕ) =
        (Format.binary32.valueOf (magnitude x)).toRat := by
      rw [Nat.cast_one, div_one, ← same, size]
    rw [toFloat32, Format.nearestWord_of_eq (by decide) finite one_ne_zero quotient]
    rfl
  | decimal _ digits exponent =>
    rw [toFloat32, convertWord_nearestDouble finite same]
    rfl

theorem isFinite_signed_infinity (negative : Bool) :
    (signed negative Format.binary32.infinity).isFinite = false := by
  cases negative <;> decide +kernel

/-- A number that becomes a finite one is within range. -/
theorem toFloat32?_of_isFinite {n : Number} (h : n.toFloat32.isFinite = true) :
    n.toFloat32? = some n.toFloat32 := by
  refine if_pos ?_
  cases n with
  | whole => rfl
  | decimal negative digits exponent =>
    by_contra beyond
    have infinite : Format.binary64.infinity ≤ nearestDouble digits exponent := by
      simpa [inRange] using beyond
    rw [toFloat32, Format.convertWord, if_pos infinite, isFinite_signed_infinity] at h
    cases h

theorem denotes_of_ofFloat32? {n : Number} {x : Float32} (h : ofFloat32? x = some n) :
    n.Denotes x := by
  unfold ofFloat32? at h
  split at h
  · cases h
  · rename_i finite
    cases h
    refine denotes_iff.2 ⟨not_le.1 finite, rfl, ?_⟩
    generalize Format.binary32.valueOf (magnitude x) = value
    have least : min value.exponent 0 = -((-value.exponent).toNat : ℤ) := by omega
    rw [size, least, ← Dyadic.numerator_div_denominator, Dyadic.denominator, Nat.one_shiftLeft,
      zpow_neg, zpow_natCast, ← div_eq_mul_inv]
    generalize (-value.exponent).toNat = places
    have powers : (10 : ℚ) ^ places = 2 ^ places * 5 ^ places := by
      rw [← mul_pow]
      norm_num
    rw [powers, Nat.pow_eq]
    push_cast
    exact mul_div_mul_right _ _ (by positivity)

theorem isSome_ofFloat32? (x : Float32) : (ofFloat32? x).isSome = x.isFinite := by
  rw [Bool.eq_iff_iff, ← magnitude_lt_iff, ofFloat32?]
  split <;> simp_all

end PlantGrammar.Json.Number
