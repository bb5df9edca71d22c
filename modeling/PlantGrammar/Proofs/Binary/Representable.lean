import Mathlib.Algebra.Order.Field.Power
import Mathlib.Data.Int.Log
import Mathlib.Data.Rat.Floor
import Mathlib.Tactic.NormNum
import Mathlib.Tactic.Positivity
import Mathlib.Tactic.Ring
import PlantGrammar.Proofs.Binary.Nearest

/-!
# Numbers that a format holds

A finite word counts the last places from zero on: it is a mantissa and, above the least
exponent, a number of doublings. The exponent of a last place depends on the size of a
quotient alone and not on its two parts. So a quotient that is the number of a word is
rounded to that word, with nothing lost. Double precision holds each number of single
precision, since its mantissa may be moved up until its first bit is set, and the exponents
have room for that. So a number of single precision also comes through the two roundings
one after the other as it was.
-/
namespace PlantGrammar.Binary

theorem zpow_eq_div {b : ℚ} (hb : b ≠ 0) (e : ℤ) : b ^ e = b ^ e.toNat / b ^ (-e).toNat := by
  conv_lhs => rw [← Int.toNat_sub_toNat_neg e]
  rw [zpow_sub₀ hb, zpow_natCast, zpow_natCast]

namespace Dyadic

def toRat (d : Dyadic) : ℚ := d.mantissa * 2 ^ d.exponent

theorem denominator_ne_zero (d : Dyadic) : d.denominator ≠ 0 := by
  simp [denominator]

theorem numerator_div_denominator (d : Dyadic) :
    (d.numerator : ℚ) / d.denominator = d.toRat := by
  simp only [numerator, denominator, toRat, zpow_eq_div two_ne_zero d.exponent, Nat.shiftLeft_eq]
  push_cast
  ring

end Dyadic

theorem log_eq_of_le_of_lt {q : ℚ} {e : ℤ} (lower : 2 ^ e ≤ q) (upper : q < 2 ^ (e + 1)) :
    Int.log 2 q = e := by
  have positive : 0 < q := lt_of_lt_of_le (by positivity) lower
  have atLeast : e ≤ Int.log 2 q := (Int.zpow_le_iff_le_log Nat.one_lt_two positive).1 lower
  have below : Int.log 2 q < e + 1 := (Int.lt_zpow_iff_log_lt Nat.one_lt_two positive).1 upper
  omega

theorem log_mul_two_zpow {m : ℕ} (hm : m ≠ 0) (e : ℤ) :
    Int.log 2 ((m : ℚ) * 2 ^ e) = m.log2 + e := by
  have lower : (2 : ℚ) ^ m.log2 ≤ m := mod_cast Nat.log2_self_le hm
  have upper : (m : ℚ) < 2 ^ (m.log2 + 1) := mod_cast Nat.lt_log2_self
  apply log_eq_of_le_of_lt
  · rw [zpow_add₀ two_ne_zero, zpow_natCast]
    gcongr
  · rw [add_right_comm, zpow_add₀ two_ne_zero]
    norm_cast
    gcongr
    exact_mod_cast upper

/-- The comparison of shifted numbers is that of their quotient with a power of two. -/
theorem shiftLeft_lt_shiftLeft_iff (num : ℕ) {den : ℕ} (hd : den ≠ 0) (e : ℤ) :
    num <<< (-e).toNat < den <<< e.toNat ↔ (num : ℚ) / den < 2 ^ e := by
  have positive : (0 : ℚ) < den := mod_cast Nat.pos_of_ne_zero hd
  rw [zpow_eq_div two_ne_zero, div_lt_div_iff₀ positive (by positivity), Nat.shiftLeft_eq,
    Nat.shiftLeft_eq, mul_comm (2 ^ e.toNat)]
  norm_cast

/-- The difference of the two logarithms is the exponent of a quotient, or greater by one. -/
theorem quotient_bounds {num den : ℕ} (hn : num ≠ 0) (hd : den ≠ 0) :
    2 ^ ((num.log2 : ℤ) - den.log2 - 1) ≤ (num : ℚ) / den ∧
      (num : ℚ) / den < 2 ^ ((num.log2 : ℤ) - den.log2 + 1) := by
  have numLower : (2 : ℚ) ^ num.log2 ≤ num := mod_cast Nat.log2_self_le hn
  have numUpper : (num : ℚ) < 2 ^ (num.log2 + 1) := mod_cast Nat.lt_log2_self
  have denLower : (2 : ℚ) ^ den.log2 ≤ den := mod_cast Nat.log2_self_le hd
  have denUpper : (den : ℚ) < 2 ^ (den.log2 + 1) := mod_cast Nat.lt_log2_self
  have positive : (0 : ℚ) < den := mod_cast Nat.pos_of_ne_zero hd
  rw [le_div_iff₀ positive, div_lt_iff₀ positive]
  constructor
  · calc (2 : ℚ) ^ ((num.log2 : ℤ) - den.log2 - 1) * den
        ≤ 2 ^ ((num.log2 : ℤ) - den.log2 - 1) * 2 ^ (den.log2 + 1) := by gcongr
      _ = 2 ^ num.log2 := by
        rw [← zpow_natCast, ← zpow_natCast, ← zpow_add₀ two_ne_zero]
        congr 1
        omega
      _ ≤ num := numLower
  · calc (num : ℚ) < 2 ^ (num.log2 + 1) := numUpper
      _ = 2 ^ ((num.log2 : ℤ) - den.log2 + 1) * 2 ^ den.log2 := by
        rw [← zpow_natCast, ← zpow_natCast, ← zpow_add₀ two_ne_zero]
        congr 1
        omega
      _ ≤ 2 ^ ((num.log2 : ℤ) - den.log2 + 1) * den := by gcongr

theorem ratioExponent_eq_log {num den : ℕ} (hn : num ≠ 0) (hd : den ≠ 0) :
    ratioExponent num den = Int.log 2 ((num : ℚ) / den) := by
  obtain ⟨lower, upper⟩ := quotient_bounds hn hd
  unfold ratioExponent
  dsimp only
  symm
  split
  · rename_i less
    apply log_eq_of_le_of_lt lower
    rw [sub_add_cancel]
    exact (shiftLeft_lt_shiftLeft_iff num hd _).1 less
  · rename_i more
    refine log_eq_of_le_of_lt ?_ upper
    rw [shiftLeft_lt_shiftLeft_iff num hd] at more
    exact not_lt.1 more

namespace Format

/-- A mantissa fits into the significant bits, and above the least exponent its first bit is
set. The exponent is told by the number of doublings from the least one. -/
structure Canonical (format : Format) (mantissa doublings : ℕ) : Prop where
  fits : mantissa < 2 ^ format.precision
  full : doublings = 0 ∨ 2 ^ (format.precision - 1) ≤ mantissa

variable {format : Format}

/-- A mantissa without its first bit belongs to the least exponent. -/
theorem valueOf_of_canonical (positive : 0 < format.precision) {m k : ℕ}
    (h : format.Canonical m k) :
    format.valueOf (m + k * 2 ^ (format.precision - 1)) = ⟨m, format.leastExponent + k⟩ := by
  have hidden : 0 < 2 ^ (format.precision - 1) := Nat.two_pow_pos _
  have twice := Nat.two_pow_pred_mul_two positive
  have fits := h.fits
  unfold valueOf
  dsimp only
  rw [Nat.one_shiftLeft, Nat.add_mul_div_right _ _ hidden, Nat.add_mul_mod_self_right]
  by_cases small : m < 2 ^ (format.precision - 1)
  · obtain rfl : k = 0 := h.full.resolve_right (not_le.2 small)
    rw [Nat.div_eq_of_lt small]
    simp
  · have first : m / 2 ^ (format.precision - 1) = 1 :=
      Nat.div_eq_of_lt_le (by omega) (by omega)
    have parts := Nat.div_add_mod' m (2 ^ (format.precision - 1))
    rw [first] at parts ⊢
    rw [if_neg (by omega), Dyadic.mk.injEq]
    exact ⟨by omega, by rw [Nat.add_sub_cancel_left]⟩

theorem exists_canonical (positive : 0 < format.precision) (word : ℕ) :
    ∃ m k, format.Canonical m k ∧ word = m + k * 2 ^ (format.precision - 1) := by
  have hidden : 0 < 2 ^ (format.precision - 1) := Nat.two_pow_pos _
  have twice := Nat.two_pow_pred_mul_two positive
  have parts := Nat.div_add_mod' word (2 ^ (format.precision - 1))
  have rest := Nat.mod_lt word hidden
  cases field : word / 2 ^ (format.precision - 1) with
  | zero =>
    rw [field] at parts
    exact ⟨word, 0, ⟨by omega, .inl rfl⟩, by omega⟩
  | succ k =>
    rw [field, Nat.add_mul] at parts
    exact ⟨2 ^ (format.precision - 1) + word % 2 ^ (format.precision - 1), k,
      ⟨by omega, .inr (by omega)⟩, by omega⟩

/-- The last place of a number is read off its size. -/
theorem unitExponent_of_canonical (positive : 0 < format.precision) {m k : ℕ}
    (h : format.Canonical m k) {num den : ℕ} (hd : den ≠ 0)
    (same : (num : ℚ) / den = m * 2 ^ (format.leastExponent + k)) :
    format.unitExponent num den = format.leastExponent + k := by
  have hidden : 0 < 2 ^ (format.precision - 1) := Nat.two_pow_pos _
  unfold unitExponent
  split
  · rename_i zero
    have nothing : m = 0 := by simpa [zero, zpow_ne_zero] using same
    have full := h.full
    omega
  · rename_i hn
    have hm : m ≠ 0 := by
      rintro rfl
      simp [hn, hd] at same
    rw [ratioExponent_eq_log hn hd, same, log_mul_two_zpow hm]
    have above : m.log2 < format.precision := (Nat.log2_lt hm).2 h.fits
    rcases h.full with rfl | full
    · omega
    · have below : format.precision - 1 ≤ m.log2 := (Nat.le_log2 hm).2 full
      omega

/-- A quotient that is the number of a word is rounded to the word. -/
theorem nearestWord_of_eq (positive : 0 < format.precision) {word num den : ℕ}
    (finite : word < format.infinity) (hd : den ≠ 0)
    (same : (num : ℚ) / den = (format.valueOf word).toRat) :
    format.nearestWord num den = word := by
  obtain ⟨m, k, canonical, rfl⟩ := exists_canonical positive word
  rw [valueOf_of_canonical positive canonical, Dyadic.toRat] at same
  unfold nearestWord
  dsimp only
  rw [unitExponent_of_canonical positive canonical hd same]
  generalize he : format.leastExponent + (k : ℤ) = e at same
  have whole : num <<< (-e).toNat = m * den <<< e.toNat := by
    have nonzero : (den : ℚ) ≠ 0 := mod_cast hd
    rw [zpow_eq_div two_ne_zero, ← mul_div_assoc, div_eq_div_iff nonzero (by positivity)] at same
    rw [Nat.shiftLeft_eq, Nat.shiftLeft_eq, mul_left_comm, mul_comm den]
    exact_mod_cast same
  have shifted : 0 < den <<< e.toNat := by
    rw [Nat.shiftLeft_eq]
    positivity
  have doublings : (e - format.leastExponent).toNat = k := by omega
  rw [whole, roundQuotient_mul m shifted, doublings, Nat.shiftLeft_eq]
  exact Nat.min_eq_right finite.le

/-- Double precision holds each number of single precision. -/
theorem exists_binary64 {word : ℕ} (finite : word < binary32.infinity) :
    ∃ double < binary64.infinity,
      (binary64.valueOf double).toRat = (binary32.valueOf word).toRat := by
  obtain ⟨m, k, canonical, rfl⟩ := @exists_canonical binary32 (by decide) word
  rw [valueOf_of_canonical (by decide) canonical]
  rcases Nat.eq_zero_or_pos m with rfl | hm
  · exact ⟨0, by decide, by simp [valueOf, Dyadic.toRat, binary64]⟩
  · have top : m.log2 < 24 := (Nat.log2_lt hm.ne').2 canonical.fits
    have lower : 2 ^ 52 ≤ m * 2 ^ (52 - m.log2) := by
      calc 2 ^ 52 = 2 ^ m.log2 * 2 ^ (52 - m.log2) := by rw [← Nat.pow_add]; congr 1; omega
        _ ≤ m * 2 ^ (52 - m.log2) := Nat.mul_le_mul_right _ (Nat.log2_self_le hm.ne')
    have upper : m * 2 ^ (52 - m.log2) < 2 ^ 53 := by
      calc m * 2 ^ (52 - m.log2)
          < 2 ^ (m.log2 + 1) * 2 ^ (52 - m.log2) :=
            Nat.mul_lt_mul_of_pos_right Nat.lt_log2_self (Nat.two_pow_pos _)
        _ = 2 ^ 53 := by rw [← Nat.pow_add]; congr 1; omega
    have wide : binary64.Canonical (m * 2 ^ (52 - m.log2)) (k + 873 + m.log2) :=
      ⟨upper, .inr lower⟩
    refine ⟨m * 2 ^ (52 - m.log2) + (k + 873 + m.log2) * 2 ^ (binary64.precision - 1), ?_, ?_⟩
    · simp only [binary32, binary64] at finite ⊢
      omega
    · rw [valueOf_of_canonical (by decide) wide]
      simp only [Dyadic.toRat, Nat.cast_mul, Nat.cast_pow, Nat.cast_ofNat, mul_assoc]
      rw [← zpow_natCast, ← zpow_add₀ two_ne_zero]
      congr 2
      simp only [binary32, binary64]
      omega

/-- A number of single precision comes back from double precision as it was. -/
theorem convertWord_nearestWord {word num den : ℕ} (finite : word < binary32.infinity)
    (hd : den ≠ 0) (same : (num : ℚ) / den = (binary32.valueOf word).toRat) :
    binary32.convertWord binary64 (binary64.nearestWord num den) = word := by
  obtain ⟨double, hfinite, hdouble⟩ := exists_binary64 finite
  have nearest : binary64.nearestWord num den = double :=
    nearestWord_of_eq (by decide) hfinite hd (same.trans hdouble.symm)
  rw [nearest, convertWord, if_neg (not_le.2 hfinite)]
  apply nearestWord_of_eq (by decide) finite (Dyadic.denominator_ne_zero _)
  rw [Dyadic.numerator_div_denominator, hdouble]

/-- The least number of single precision and a bound for all of them. -/
theorem toRat_bounds {word : ℕ} (finite : word < binary32.infinity)
    (nonzero : (binary32.valueOf word).toRat ≠ 0) :
    2 ^ (-149 : ℤ) ≤ (binary32.valueOf word).toRat ∧
      (binary32.valueOf word).toRat < 2 ^ (129 : ℤ) := by
  obtain ⟨m, k, canonical, rfl⟩ := @exists_canonical binary32 (by decide) word
  rw [valueOf_of_canonical (by decide) canonical, Dyadic.toRat] at nonzero ⊢
  have hm : (1 : ℚ) ≤ m := by
    refine Nat.one_le_cast.2 (Nat.pos_of_ne_zero ?_)
    rintro rfl
    simp at nonzero
  have fits : (m : ℚ) < 2 ^ (24 : ℤ) := mod_cast canonical.fits
  simp only [binary32] at finite ⊢
  constructor
  · calc (2 : ℚ) ^ (-149 : ℤ) ≤ 2 ^ (-149 + (k : ℤ)) := zpow_le_zpow_right₀ one_le_two (by omega)
      _ ≤ m * 2 ^ (-149 + (k : ℤ)) := le_mul_of_one_le_left (by positivity) hm
  · calc (m : ℚ) * 2 ^ (-149 + (k : ℤ)) < 2 ^ (24 : ℤ) * 2 ^ (-149 + (k : ℤ)) := by gcongr
      _ = 2 ^ (24 + (-149 + (k : ℤ))) := (zpow_add₀ two_ne_zero _ _).symm
      _ ≤ 2 ^ (129 : ℤ) := zpow_le_zpow_right₀ one_le_two (by omega)

end Format

end PlantGrammar.Binary
