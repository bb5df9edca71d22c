import Mathlib
import PlantGrammar.Space.Basic

/-!
# The order of single-precision numbers

A number in single precision is a sign, a mantissa and an exponent, or a zero, or
infinite, or it is no number at all. Numbers are compared by their signs, then by their
exponents and then by their mantissas, as in a dictionary. So those that are numbers are
ranked by a linear order, and nothing compares with one that is not. Numbers of one rank
are the same but for the sign of zero. The library's laws of single-precision words come
with Mathlib as a whole, and the modules that use them import it from here.
-/
namespace PlantGrammar.Single

open Float.Model (UnpackedFloat)
open Float.Model.UnpackedFloat

/-- The place of a number among the others: by sign and size class first, and among
finite numbers of one sign by exponent and mantissa. -/
def rankOf : UnpackedFloat → ℤ ×ₗ ℤ ×ₗ ℤ
  | .infinity .negative => toLex (-2, toLex (0, 0))
  | .finite .negative mantissa exponent _ => toLex (-1, toLex (-exponent, -mantissa))
  | .finite .positive mantissa exponent _ => toLex (1, toLex (exponent, mantissa))
  | .infinity .positive => toLex (2, toLex (0, 0))
  | .zero _ | .notANumber => toLex (0, toLex (0, 0))

theorem compare_natCast (m n : ℕ) : compare (m : ℤ) n = compare m n := by
  simp [compare, compareOfLessAndEq]

theorem compare_neg (m n : ℤ) : compare (-m) (-n) = (compare m n).swap := by
  rw [Int.compare_swap]
  simp only [compare, compareOfLessAndEq, neg_lt_neg_iff, neg_inj, eq_comm]

theorem compare_toLex (k e f m n : ℤ) :
    compare (toLex (k, toLex (e, m))) (toLex (k, toLex (f, n))) =
      (compare e f).then (compare m n) := by
  simp [Prod.Lex.compare_def, compareLex, compareOn]

/-- Numbers compare as their ranks do. Only two finite numbers of one sign need more than
the definitions. -/
theorem compare_eq {a b : UnpackedFloat} (ha : a.isNaN = false) (hb : b.isNaN = false) :
    a.compare b = some (compare (rankOf a) (rankOf b)) := by
  rcases a with (_ | _) | _ | (_ | _) | ⟨_ | _, m, e, hm⟩ <;>
  rcases b with (_ | _) | _ | (_ | _) | ⟨_ | _, n, f, hn⟩ <;>
  first
  | exact absurd ha (by decide)
  | exact absurd hb (by decide)
  | rfl
  | skip
  · rw [rankOf, rankOf, compare_toLex, compare_neg, compare_neg, compare_natCast,
      ← Ordering.swap_then]
    rfl
  · rw [rankOf, rankOf, compare_toLex, compare_natCast]
    rfl

theorem compare_eq_none {a b : UnpackedFloat} (h : a.isNaN = true ∨ b.isNaN = true) :
    a.compare b = none := by
  rcases h with h | h
  · cases a <;> first | rfl | cases h
  · cases b <;> first | (cases a <;> rfl) | cases h

/-- The number that a word stands for. -/
def unpacked (a : Float32) : UnpackedFloat := a.toModel.unpack

def rank (a : Float32) : ℤ ×ₗ ℤ ×ₗ ℤ := rankOf (unpacked a)

theorem isNaN_unpacked (a : Float32) : (unpacked a).isNaN = a.isNaN := rfl

theorem compare_unpacked (a b : Float32) :
    (unpacked a).compare (unpacked b) =
      if a.isNaN = false ∧ b.isNaN = false then some (compare (rank a) (rank b)) else none := by
  split
  · rename_i numbers
    exact compare_eq numbers.1 numbers.2
  · rename_i special
    apply compare_eq_none
    rw [isNaN_unpacked, isNaN_unpacked]
    grind

theorem lt_iff {a b : Float32} :
    a < b ↔ a.isNaN = false ∧ b.isNaN = false ∧ rank a < rank b := by
  show decide (((unpacked a).compare (unpacked b) == some .lt) = true) = true ↔ _
  rw [compare_unpacked, decide_eq_true_eq, beq_iff_eq]
  split
  · rename_i numbers
    simp only [numbers, Option.some.injEq, compare_lt_iff_lt, true_and]
  · grind

theorem le_iff {a b : Float32} :
    a ≤ b ↔ a.isNaN = false ∧ b.isNaN = false ∧ rank a ≤ rank b := by
  show decide (((unpacked a).compare (unpacked b)).any (·.isLE) = true) = true ↔ _
  rw [compare_unpacked, decide_eq_true_eq]
  split
  · rename_i numbers
    simp only [numbers, Option.any_some, true_and, ← Ordering.ne_gt_iff_isLE]
    exact compare_le_iff_le
  · grind

theorem le_of_not_lt {a b : Float32} (ha : a.isNaN = false) (hb : b.isNaN = false)
    (h : ¬ b < a) : a ≤ b := by
  simp only [lt_iff, ha, hb, true_and, not_lt] at h
  exact le_iff.2 ⟨ha, hb, h⟩

/-- The same number, or two zeros, whose signs may differ. -/
def SameUpToZero (a b : Float32) : Prop := a = b ∨ (a = 0 ∨ a = -0) ∧ (b = 0 ∨ b = -0)

/-- Numbers of which neither is less are the same but for the sign of zero. -/
theorem sameUpToZero_of_not_lt {a b : Float32} (ha : a.isNaN = false) (hb : b.isNaN = false)
    (hab : ¬ a < b) (hba : ¬ b < a) : SameUpToZero a b := by
  have ranks : rank a = rank b := by
    simp only [lt_iff, ha, hb, true_and, not_lt] at hab hba
    exact le_antisymm hba hab
  have equal : a == b := by
    show ((unpacked a).compare (unpacked b) == some .eq) = true
    rw [compare_unpacked, if_pos ⟨ha, hb⟩, compare_eq_iff_eq.2 ranks]
    rfl
  rcases (Float32.beq_iff_ne_nan_and_eq.1 equal).2.2 with same | ⟨left, right⟩ | ⟨left, right⟩
  · exact .inl same
  · exact .inr ⟨.inl left, .inr right⟩
  · exact .inr ⟨.inr left, .inl right⟩

end PlantGrammar.Single
