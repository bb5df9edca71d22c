import Mathlib.Algebra.Ring.Nat
import Mathlib.Data.Nat.Log
import PlantGrammar.Binary.Rounding

/-!
# The nearest number with so many significant bits

Near a whole number the numbers of a given precision are the multiples of its last
place. Rounding goes to one of the two that enclose the number. So a multiple of the
last place is passed neither from below nor from above, which makes rounding monotone
also where the last place changes, and leaves each number of the precision as it is.
-/
namespace PlantGrammar.Binary

theorem div_le_roundQuotient (num den : Nat) : num / den ≤ roundQuotient num den := by
  unfold roundQuotient
  dsimp only
  split <;> omega

theorem roundQuotient_le_succ (num den : Nat) : roundQuotient num den ≤ num / den + 1 := by
  unfold roundQuotient
  dsimp only
  split <;> omega

@[simp] theorem roundQuotient_mul (k : Nat) {den : Nat} (h : 0 < den) :
    roundQuotient (k * den) den = k := by
  simp only [roundQuotient, Nat.mul_div_cancel k h, Nat.mul_mod_left]
  rw [if_neg]
  omega

/-- Where the quotients are equal the rests are in the order of the numbers. -/
theorem roundQuotient_mono (den : Nat) {m n : Nat} (h : m ≤ n) :
    roundQuotient m den ≤ roundQuotient n den := by
  have quotients : m / den ≤ n / den := Nat.div_le_div_right h
  rcases Nat.lt_or_eq_of_le quotients with less | same
  · have below := roundQuotient_le_succ m den
    have above := div_le_roundQuotient n den
    omega
  · have rests : m % den ≤ n % den := by
      have hm := Nat.div_add_mod m den
      have hn := Nat.div_add_mod n den
      rw [same] at hm
      omega
    unfold roundQuotient
    dsimp only
    rw [same]
    split <;> split <;> omega

/-- The rounded quotient is the whole number from which the numerator is at most half a
denominator away, and the even one of two. -/
theorem roundQuotient_eq_iff {num den k : Nat} (h : 0 < den) :
    roundQuotient num den = k ↔
      2 * num ≤ 2 * (k * den) + den ∧ 2 * (k * den) ≤ 2 * num + den ∧
        (2 * num = 2 * (k * den) + den ∨ 2 * (k * den) = 2 * num + den → k % 2 = 0) := by
  have parts := Nat.div_add_mod' num den
  have rest := Nat.mod_lt num h
  constructor
  · rintro rfl
    unfold roundQuotient
    dsimp only
    split
    · rw [Nat.add_mul]
      omega
    · omega
  · rintro ⟨low, high, even⟩
    have close : k = num / den ∨ k = num / den + 1 := by
      rcases Nat.lt_trichotomy k (num / den) with less | same | more
      · have far : (k + 1) * den ≤ num / den * den := Nat.mul_le_mul_right den less
        rw [Nat.add_mul] at far
        omega
      · exact .inl same
      · by_contra others
        have far : (num / den + 1 + 1) * den ≤ k * den := Nat.mul_le_mul_right den (by omega)
        rw [Nat.add_mul, Nat.add_mul] at far
        omega
    unfold roundQuotient
    dsimp only
    rcases close with rfl | rfl
    · rw [if_neg]
      omega
    · rw [Nat.add_mul] at low high even
      rw [if_pos]
      omega

/-- Rounding up goes no further than half the denominator. -/
theorem two_mul_roundQuotient_mul_le (num : Nat) {den : Nat} (h : 0 < den) :
    2 * (roundQuotient num den * den) ≤ 2 * num + den :=
  ((roundQuotient_eq_iff h).1 rfl).2.1

/-- The last place of the numbers near `n` that have so many significant bits. -/
def lastPlace (precision n : Nat) : Nat := 2 ^ (n.log2 + 1 - precision)

theorem lastPlace_pos (precision n : Nat) : 0 < lastPlace precision n := Nat.two_pow_pos _

theorem roundSignificant_eq (precision n : Nat) :
    roundSignificant precision n =
      roundQuotient n (lastPlace precision n) * lastPlace precision n := by
  rw [roundSignificant, lastPlace, Nat.one_shiftLeft]

/-- The last place of a number of at most so many bits. -/
theorem lastPlace_dvd {n bits : Nat} (precision : Nat) (h : n < 2 ^ (bits + 1)) :
    lastPlace precision n ∣ 2 ^ (bits + 1 - precision) := by
  have exponent : n.log2 ≤ bits := by
    rw [Nat.log2_eq_log_two]
    exact Nat.lt_succ_iff.1 (Nat.log_lt_of_lt_pow' (Nat.succ_ne_zero bits) h)
  exact Nat.pow_dvd_pow 2 (by omega)

/-- Rounding does not pass a multiple of the last place from below. -/
theorem roundSignificant_le {precision n bound : Nat} (h : n ≤ bound)
    (whole : lastPlace precision n ∣ bound) : roundSignificant precision n ≤ bound := by
  obtain ⟨k, rfl⟩ := whole
  rw [roundSignificant_eq, Nat.mul_comm _ k] at *
  have rounded := roundQuotient_mono (lastPlace precision n) h
  rw [roundQuotient_mul k (lastPlace_pos precision n)] at rounded
  exact Nat.mul_le_mul_right _ rounded

/-- Rounding does not pass a multiple of the last place from above. -/
theorem le_roundSignificant {precision n bound : Nat} (h : bound ≤ n)
    (whole : lastPlace precision n ∣ bound) : bound ≤ roundSignificant precision n := by
  obtain ⟨k, rfl⟩ := whole
  rw [roundSignificant_eq, Nat.mul_comm _ k] at *
  have rounded := roundQuotient_mono (lastPlace precision n) h
  rw [roundQuotient_mul k (lastPlace_pos precision n)] at rounded
  exact Nat.mul_le_mul_right _ rounded

theorem roundSignificant_of_dvd {precision n : Nat} (whole : lastPlace precision n ∣ n) :
    roundSignificant precision n = n :=
  Nat.le_antisymm (roundSignificant_le le_rfl whole) (le_roundSignificant le_rfl whole)

/-- Between numbers with different last places lies a power of two that is a multiple of
both places. -/
theorem roundSignificant_mono {precision : Nat} (h : 0 < precision) {m n : Nat} (hmn : m ≤ n) :
    roundSignificant precision m ≤ roundSignificant precision n := by
  have exponents : m.log2 ≤ n.log2 := by
    rw [Nat.log2_eq_log_two, Nat.log2_eq_log_two]
    exact Nat.log_mono_right hmn
  rcases Nat.lt_or_eq_of_le exponents with less | same
  · have below : roundSignificant precision m ≤ 2 ^ (m.log2 + 1) := by
      refine roundSignificant_le (Nat.lt_log2_self (n := m)).le ?_
      exact Nat.pow_dvd_pow 2 (Nat.sub_le _ _)
    have hn : n ≠ 0 := by
      rintro rfl
      simp at less
    have above : 2 ^ n.log2 ≤ roundSignificant precision n := by
      refine le_roundSignificant (Nat.log2_self_le hn) ?_
      exact Nat.pow_dvd_pow 2 (by omega)
    exact below.trans ((Nat.pow_le_pow_right Nat.two_pos less).trans above)
  · have places : lastPlace precision m = lastPlace precision n := by
      rw [lastPlace, lastPlace, same]
    rw [roundSignificant_eq, roundSignificant_eq, places]
    exact Nat.mul_le_mul_right _ (roundQuotient_mono _ hmn)

/-- A number of at most so many bits times a power of two is not rounded. -/
theorem roundSignificant_mul_two_pow {precision n : Nat} (h : 0 < precision)
    (short : n < 2 ^ precision) (k : Nat) :
    roundSignificant precision (n * 2 ^ k) = n * 2 ^ k := by
  have less : n * 2 ^ k < 2 ^ (precision - 1 + k + 1) := by
    calc n * 2 ^ k < 2 ^ precision * 2 ^ k :=
          Nat.mul_lt_mul_of_pos_right short (Nat.two_pow_pos k)
      _ = 2 ^ (precision - 1 + k + 1) := by rw [← Nat.pow_add]; congr 1; omega
  have exponent : precision - 1 + k + 1 - precision = k := by omega
  have place := lastPlace_dvd precision less
  rw [exponent] at place
  exact roundSignificant_of_dvd (Nat.dvd_mul_left_of_dvd place n)

/-- The first number that has more bits is a power of two, which is not rounded either. -/
theorem roundSignificant_of_le {precision n : Nat} (h : 0 < precision) (few : n ≤ 2 ^ precision) :
    roundSignificant precision n = n := by
  rcases Nat.lt_or_eq_of_le few with less | rfl
  · simpa using roundSignificant_mul_two_pow h less 0
  · simpa using roundSignificant_mul_two_pow h (Nat.one_lt_two_pow h.ne') precision

/-- Rounding up goes no further than half a last place. -/
theorem two_mul_roundSignificant_le (precision n : Nat) :
    2 * roundSignificant precision n ≤ 2 * n + lastPlace precision n := by
  rw [roundSignificant_eq]
  exact two_mul_roundQuotient_mul_le n (lastPlace_pos precision n)

end PlantGrammar.Binary
