import Mathlib.Data.Finset.Card
import Mathlib.Tactic.Linarith
import Mathlib.Tactic.Ring
import PlantGrammar.Proofs.Binary.Nearest
import PlantGrammar.Random.Tape

/-!
# How evenly a sample chooses, and within which bound

An alternative begins where the product of the sample with the number of alternatives
reaches its number, in units of one. Rounding moves a product near that place by less
than the number of alternatives, in units of a sample. So the number of samples before
an alternative, times the number of alternatives, misses its exact value by less than
that number. The share of one alternative is the difference of two such numbers of
samples.

The greatest sample is one unit short of the whole interval, so its product with the number
of alternatives is short of that number by as many units as there are alternatives. Half a
last place of the product is at most the greatest power of two up to the number of
alternatives. If the number exceeds the power, rounding does not bridge the gap. If it is the
power, the product has no more bits than the sample and nothing is rounded.
-/
namespace PlantGrammar.Choice

open Binary

/-- A larger sample never selects an earlier alternative. -/
theorem indexOfSample_mono (count : Nat) {m n : Nat} (h : m ≤ n) :
    indexOfSample m count ≤ indexOfSample n count := by
  have rounded := roundSignificant_mono (show 0 < 53 by decide)
    (Nat.mul_le_mul_right (roundSignificant 53 count) h)
  have wholes := Nat.div_le_div_right (c := 2 ^ 53) rounded
  unfold indexOfSample
  rw [Nat.shiftRight_eq_div_pow, Nat.shiftRight_eq_div_pow]
  omega

/-- A number of alternatives that fits into 53 bits is not rounded itself. -/
theorem indexOfSample_eq (m : Nat) {count : Nat} (few : count ≤ 2 ^ 53) :
    indexOfSample m count = min (roundSignificant 53 (m * count) / 2 ^ 53) (count - 1) := by
  rw [indexOfSample, roundSignificant_of_le (by decide) few, Nat.shiftRight_eq_div_pow]

/-- The last place of a product, up to where the `i`-th alternative begins. -/
theorem lastPlace_product_dvd {n i : Nat} (h : n ≤ i * 2 ^ 53) :
    lastPlace 53 n ∣ 2 ^ (i.log2 + 1) := by
  have less : n < 2 ^ (i.log2 + 53 + 1) := by
    calc n ≤ i * 2 ^ 53 := h
      _ < 2 ^ (i.log2 + 1) * 2 ^ 53 := Nat.mul_lt_mul_of_pos_right Nat.lt_log2_self (by decide)
      _ = 2 ^ (i.log2 + 53 + 1) := by rw [← Nat.pow_add]
  have exponent : i.log2 + 53 + 1 - 53 = i.log2 + 1 := by omega
  rw [← exponent]
  exact lastPlace_dvd 53 less

/-- A product that reaches an alternative is not rounded below it. -/
theorem le_indexOfSample {m count i : Nat} (few : count ≤ 2 ^ 53) (inside : i < count)
    (reached : i * 2 ^ 53 ≤ m * count) : i ≤ indexOfSample m count := by
  have exact_place : roundSignificant 53 (i * 2 ^ 53) = i * 2 ^ 53 :=
    roundSignificant_mul_two_pow (by decide) (inside.trans_le few) 53
  have rounded : i * 2 ^ 53 ≤ roundSignificant 53 (m * count) := by
    rw [← exact_place]
    exact roundSignificant_mono (by decide) reached
  have whole : i ≤ roundSignificant 53 (m * count) / 2 ^ 53 :=
    (Nat.le_div_iff_mul_le (by decide)).2 rounded
  rw [indexOfSample_eq m few]
  omega

/-- A product that falls short of an alternative by a whole sample is rounded below it. -/
theorem indexOfSample_lt_of_short {m count i : Nat} (few : count ≤ 2 ^ 53) (inside : i < count)
    (short : (m + 1) * count ≤ i * 2 ^ 53) : indexOfSample m count < i := by
  rw [Nat.add_mul, Nat.one_mul] at short
  have some_before : i ≠ 0 := by
    rintro rfl
    omega
  have place : lastPlace 53 (m * count) ≤ 2 * i := by
    calc lastPlace 53 (m * count) ≤ 2 ^ (i.log2 + 1) :=
          Nat.le_of_dvd (Nat.two_pow_pos _) (lastPlace_product_dvd (by omega))
      _ = 2 ^ i.log2 * 2 := Nat.pow_succ 2 i.log2
      _ ≤ i * 2 := Nat.mul_le_mul_right 2 (Nat.log2_self_le some_before)
      _ = 2 * i := Nat.mul_comm i 2
  have rounded := two_mul_roundSignificant_le 53 (m * count)
  have whole : roundSignificant 53 (m * count) / 2 ^ 53 < i :=
    (Nat.div_lt_iff_lt_mul (by decide)).2 (by omega)
  rw [indexOfSample_eq m few]
  omega

/-- Number of samples that select one alternative among `count`. -/
def share (count i : Nat) : Nat :=
  ((Finset.range (2 ^ 53)).filter fun m => indexOfSample m count = i).card

/-- Number of samples that select an alternative before this one. -/
def below (count i : Nat) : Nat :=
  ((Finset.range (2 ^ 53)).filter fun m => indexOfSample m count < i).card

theorem below_add_share (count i : Nat) : below count i + share count i = below count (i + 1) := by
  have apart : Disjoint ((Finset.range (2 ^ 53)).filter fun m => indexOfSample m count < i)
      ((Finset.range (2 ^ 53)).filter fun m => indexOfSample m count = i) :=
    Finset.disjoint_filter.2 fun m _ less => less.ne
  have parts : (Finset.range (2 ^ 53)).filter (fun m => indexOfSample m count < i + 1) =
      (Finset.range (2 ^ 53)).filter (fun m => indexOfSample m count < i) ∪
        (Finset.range (2 ^ 53)).filter fun m => indexOfSample m count = i := by
    rw [← Finset.filter_or]
    simp only [Nat.lt_succ_iff_lt_or_eq]
  rw [below, below, share, parts, Finset.card_union_of_disjoint apart]

theorem below_count {count : Nat} (h : 0 < count) : below count count = 2 ^ 53 := by
  have all : (Finset.range (2 ^ 53)).filter (fun m => indexOfSample m count < count) =
      Finset.range (2 ^ 53) :=
    Finset.filter_true_of_mem fun m _ => indexOfSample_lt m h
  rw [below, all, Finset.card_range]

theorem le_below {count i : Nat} (few : count ≤ 2 ^ 53) (inside : i < count) :
    i * 2 ^ 53 / count ≤ below count i := by
  have pos : 0 < count := Nat.zero_lt_of_lt inside
  have before : Finset.range (i * 2 ^ 53 / count) ⊆
      (Finset.range (2 ^ 53)).filter fun m => indexOfSample m count < i := by
    intro m hm
    have short : (m + 1) * count ≤ i * 2 ^ 53 :=
      (Nat.le_div_iff_mul_le pos).1 (Finset.mem_range.1 hm)
    have sample : m < 2 ^ 53 := by
      by_contra large
      have tall : 2 ^ 53 * count < (m + 1) * count := Nat.mul_lt_mul_of_pos_right (by omega) pos
      have low : i * 2 ^ 53 ≤ count * 2 ^ 53 := Nat.mul_le_mul_right _ inside.le
      omega
    exact Finset.mem_filter.2
      ⟨Finset.mem_range.2 sample, indexOfSample_lt_of_short few inside short⟩
  simpa only [below, Finset.card_range] using Finset.card_le_card before

theorem below_le {count i : Nat} (few : count ≤ 2 ^ 53) (inside : i < count) :
    below count i ≤ (i * 2 ^ 53 + count - 1) / count := by
  have pos : 0 < count := Nat.zero_lt_of_lt inside
  have before : (Finset.range (2 ^ 53)).filter (fun m => indexOfSample m count < i) ⊆
      Finset.range ((i * 2 ^ 53 + count - 1) / count) := by
    intro m hm
    have early : indexOfSample m count < i := (Finset.mem_filter.1 hm).2
    have short : m * count < i * 2 ^ 53 := by
      by_contra reached
      have late := le_indexOfSample few inside (Nat.le_of_not_lt reached)
      omega
    refine Finset.mem_range.2 ((Nat.le_div_iff_mul_le pos).2 ?_)
    rw [Nat.succ_mul]
    omega
  simpa only [below, Finset.card_range] using Finset.card_le_card before

/-- The samples before an alternative are as many as they should be, up to one. -/
theorem abs_below_sub_lt {count i : Nat} (few : count ≤ 2 ^ 53) (pos : 0 < count)
    (inside : i ≤ count) : |(below count i * count - i * 2 ^ 53 : ℤ)| < (count : ℤ) := by
  rcases Nat.lt_or_eq_of_le inside with less | rfl
  · have low : i * 2 ^ 53 < (below count i + 1) * count :=
      (Nat.div_lt_iff_lt_mul pos).1 (Nat.lt_succ_of_le (le_below few less))
    have high : below count i * count ≤ i * 2 ^ 53 + count - 1 :=
      (Nat.le_div_iff_mul_le pos).1 (below_le few less)
    rw [Nat.add_mul, Nat.one_mul] at low
    rw [abs_lt]
    constructor <;> omega
  · rw [below_count pos, Nat.cast_pow, Nat.cast_ofNat, mul_comm, sub_self, abs_zero]
    exact Nat.cast_pos.2 pos

/-- There is nothing to round if the samples can be shared out. -/
theorem below_mul_of_dvd {count i : Nat} (even : count ∣ 2 ^ 53) (pos : 0 < count)
    (inside : i ≤ count) : (below count i * count : ℤ) = i * 2 ^ 53 := by
  have few : count ≤ 2 ^ 53 := Nat.le_of_dvd (Nat.two_pow_pos 53) even
  have whole : (count : ℤ) ∣ below count i * count - i * 2 ^ 53 :=
    Int.dvd_sub (Int.dvd_mul_left _ _) (Dvd.dvd.mul_left (by exact_mod_cast even) _)
  exact sub_eq_zero.1 (Int.eq_zero_of_abs_lt_dvd whole (abs_below_sub_lt few pos inside))

theorem share_mul (count i : Nat) :
    (share count i * count : ℤ) = below count (i + 1) * count - below count i * count := by
  rw [← below_add_share]
  push_cast
  ring

/-- Up to rounding each alternative has the same number of samples: the number misses
the exact one by less than two, and not at all if the number of alternatives is a power
of two. The alternatives have their samples in order, and none has no sample. -/
theorem samples_are_shared_evenly (count : Nat) (pos : 0 < count) (few : count ≤ 2 ^ 52) :
    (∀ m n, m ≤ n → indexOfSample m count ≤ indexOfSample n count) ∧
    (∀ i < count, ∃ m < 2 ^ 53, indexOfSample m count = i) ∧
    (∀ i < count, |(share count i * count - 2 ^ 53 : ℤ)| < 2 * (count : ℤ)) ∧
    ∀ k, count = 2 ^ k → ∀ i < count, share count i = 2 ^ 53 / count := by
  have representable : count ≤ 2 ^ 53 := few.trans (by decide)
  have near : ∀ i < count, |(share count i * count - 2 ^ 53 : ℤ)| < 2 * (count : ℤ) := by
    intro i hi
    have start := abs_lt.1 (abs_below_sub_lt representable pos hi.le)
    have finish := abs_lt.1 (abs_below_sub_lt representable pos (Nat.succ_le_of_lt hi))
    rw [share_mul, abs_lt]
    push_cast at start finish ⊢
    constructor <;> linarith [start.1, start.2, finish.1, finish.2]
  refine ⟨fun m n => indexOfSample_mono count, ?_, near, ?_⟩
  · intro i hi
    have some_sample : share count i ≠ 0 := by
      intro none_left
      have far := (abs_lt.1 (near i hi)).1
      rw [none_left] at far
      push_cast at far
      omega
    obtain ⟨m, hm⟩ := Finset.card_ne_zero.1 some_sample
    obtain ⟨sample, selects⟩ := Finset.mem_filter.1 hm
    exact ⟨m, Finset.mem_range.1 sample, selects⟩
  · rintro k rfl i hi
    have even : 2 ^ k ∣ 2 ^ 53 :=
      Nat.pow_dvd_pow 2 ((Nat.pow_le_pow_iff_right (by decide)).1 representable)
    have exact_share : share (2 ^ k) i * 2 ^ k = 2 ^ 53 := by
      have whole := share_mul (2 ^ k) i
      rw [below_mul_of_dvd even pos hi, below_mul_of_dvd even pos hi.le] at whole
      push_cast at whole
      have width : (share (2 ^ k) i * 2 ^ k : ℤ) = 2 ^ 53 := by linarith
      exact_mod_cast width
    exact Nat.eq_div_of_mul_eq_left pos.ne' exact_share

/-- Three alternatives do not share the samples out, and the first sample of the last
alternative is one whose product with three is rounded up to it. Four do. -/
theorem samples_are_shared_evenly_among_three_and_four :
    0 < 3 ∧ 3 ≤ 2 ^ 52 ∧ |(share 3 1 * 3 - 2 ^ 53 : ℤ)| < 6 ∧
      6004799503160661 * 3 < 2 * 2 ^ 53 ∧ indexOfSample 6004799503160661 3 = 2 ∧
      (∀ m, 6004799503160661 ≤ m → 2 ≤ indexOfSample m 3) ∧
      4 = 2 ^ 2 ∧ share 4 3 = 2 ^ 53 / 4 := by
  have first : indexOfSample 6004799503160661 3 = 2 := by decide +kernel
  obtain ⟨mono, _, near, _⟩ := samples_are_shared_evenly 3 (by decide) (by decide)
  obtain ⟨_, _, _, even⟩ := samples_are_shared_evenly 4 (by decide) (by decide)
  refine ⟨by decide, by decide, ?_, by decide, first, ?_, by decide, even 2 rfl 3 (by decide)⟩
  · have second := near 1 (by decide)
    rw [Nat.cast_ofNat] at second
    exact second.trans_eq (by decide)
  · intro m hm
    rw [← first]
    exact mono _ m hm

theorem roundSignificant_product_lt {m count : Nat} (sampled : m < 2 ^ 53) (pos : 0 < count) :
    roundSignificant 53 (m * count) < count * 2 ^ 53 := by
  have short : m * count + count ≤ count * 2 ^ 53 := by
    calc m * count + count = (m + 1) * count := (Nat.succ_mul m count).symm
      _ ≤ 2 ^ 53 * count := Nat.mul_le_mul_right count sampled
      _ = count * 2 ^ 53 := Nat.mul_comm _ _
  rcases Nat.lt_or_eq_of_le (Nat.log2_self_le pos.ne') with more | power
  · have place : lastPlace 53 (m * count) ≤ 2 * 2 ^ count.log2 := by
      rw [← Nat.pow_succ']
      exact Nat.le_of_dvd (Nat.two_pow_pos _) (lastPlace_product_dvd (by omega))
    have rounded := two_mul_roundSignificant_le 53 (m * count)
    omega
  · have whole : roundSignificant 53 (m * count) = m * count := by
      rw [← power]
      exact roundSignificant_mul_two_pow (by decide) sampled count.log2
    omega

/-- The sample of any word is less than one, and its rounded product with the number of
alternatives is less than that number. So the whole part of the product is a choice, and the
choice is the whole part: taking the last alternative instead never comes to pass. -/
theorem choices_need_no_bound (word : UInt64) {count : Nat} (pos : 1 ≤ count)
    (few : count ≤ 2 ^ 53) :
    let product := roundSignificant 53 (sample word * roundSignificant 53 count)
    sample word < 2 ^ 53 ∧ product < count * 2 ^ 53 ∧ product / 2 ^ 53 ≤ count - 1 ∧
      index word count = product / 2 ^ 53 := by
  intro product
  have sampled : sample word < 2 ^ 53 := by
    rw [← Nat.one_shiftLeft]
    exact sample_lt word
  have exact_count : product = roundSignificant 53 (sample word * count) := by
    rw [← roundSignificant_of_le (by decide) few]
  have below : product < count * 2 ^ 53 := exact_count ▸ roundSignificant_product_lt sampled pos
  have choice : product / 2 ^ 53 ≤ count - 1 :=
    Nat.le_sub_one_of_lt ((Nat.div_lt_iff_lt_mul (by decide)).2 below)
  refine ⟨sampled, below, choice, ?_⟩
  rw [index, indexOfSample, Nat.shiftRight_eq_div_pow]
  exact Nat.min_eq_left choice

/-- The product of the greatest sample with three is short of three by less than its last
place, and still nearer to the number below. -/
theorem choices_need_no_bound_near_three :
    let word : UInt64 := 0xffffffffffffffff
    let product := roundSignificant 53 (sample word * roundSignificant 53 3)
    1 ≤ 3 ∧ 3 ≤ 2 ^ 53 ∧ sample word * 3 + 3 = 3 * 2 ^ 53 ∧ lastPlace 53 (sample word * 3) = 4 ∧
      product < 3 * 2 ^ 53 ∧ index word 3 = 2 := by
  intro word product
  obtain ⟨_, below, _, whole⟩ :=
    choices_need_no_bound word (show 1 ≤ 3 by decide) (show 3 ≤ 2 ^ 53 by decide)
  exact ⟨by decide, by decide, by decide +kernel, by decide +kernel, below,
    whole.trans (by decide +kernel)⟩

end PlantGrammar.Choice
