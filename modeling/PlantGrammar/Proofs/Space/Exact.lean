import Mathlib.Analysis.SpecialFunctions.Trigonometric.Basic
import Mathlib.Tactic.LinearCombination
import PlantGrammar.Space.Basic

/-!
# Exact geometry

Over the real numbers no operation rounds, and the formulas of the geometry keep
what they are meant to keep. The length of a composition is the product of the
lengths, so rotations of unit length are closed under composition, and bringing
one of them to unit length changes nothing. A rotation multiplies dot products and
cross products by a power of its length, so one of unit length keeps both.
-/
namespace PlantGrammar

noncomputable instance : Scalar ℝ where
  sqrt := Real.sqrt
  isFinite _ := true
  decideLess := inferInstance

/-- Sine and cosine themselves, with half a turn as it is in radians. -/
@[reducible] noncomputable def Trigonometry.exact : Trigonometry ℝ where
  sin := Real.sin
  cos := Real.cos
  halfTurn := Real.pi
  degree := Real.pi / 180

theorem Trigonometry.circle_exact (angle : ℝ) :
    exact.sin angle ^ 2 + exact.cos angle ^ 2 = 1 := Real.sin_sq_add_cos_sq angle

namespace Vec

theorem dot_self_nonneg (v : Vec ℝ) : 0 ≤ v.dot v :=
  add_nonneg (add_nonneg (mul_self_nonneg v.x) (mul_self_nonneg v.y)) (mul_self_nonneg v.z)

theorem sq_length (v : Vec ℝ) : v.length ^ 2 = v.dot v := Real.sq_sqrt v.dot_self_nonneg

theorem length_eq_one_iff {v : Vec ℝ} : v.length = 1 ↔ v.dot v = 1 := Real.sqrt_eq_one

theorem dot_scale (u v : Vec ℝ) (k : ℝ) : (u.scale k).dot (v.scale k) = k ^ 2 * u.dot v := by
  simp only [dot, scale]
  ring

@[simp] theorem unitX_dot_unitX : (unitX : Vec ℝ).dot unitX = 1 := by simp [dot, unitX]

@[simp] theorem unitY_dot_unitY : (unitY : Vec ℝ).dot unitY = 1 := by simp [dot, unitY]

@[simp] theorem unitZ_dot_unitZ : (unitZ : Vec ℝ).dot unitZ = 1 := by simp [dot, unitZ]

@[simp] theorem unitX_dot_unitY : (unitX : Vec ℝ).dot unitY = 0 := by simp [dot, unitX, unitY]

@[simp] theorem unitX_dot_unitZ : (unitX : Vec ℝ).dot unitZ = 0 := by simp [dot, unitX, unitZ]

@[simp] theorem unitY_dot_unitZ : (unitY : Vec ℝ).dot unitZ = 0 := by simp [dot, unitY, unitZ]

@[simp] theorem unitX_cross_unitY : (unitX : Vec ℝ).cross unitY = unitZ := by
  simp [cross, unitX, unitY, unitZ]

end Vec

namespace Rotation

/-- The length that `normalized` divides by. -/
def length {α : Type} [Scalar α] (q : Rotation α) : α :=
  Scalar.sqrt ((q.x * q.x + q.z * q.z) + (q.y * q.y + q.w * q.w))

theorem normalized_eq {α : Type} [Scalar α] (q : Rotation α) :
    q.normalized = ⟨q.x / q.length, q.y / q.length, q.z / q.length, q.w / q.length⟩ := rfl

/-- The square of the length. -/
def normSq (q : Rotation ℝ) : ℝ := q.x ^ 2 + q.y ^ 2 + q.z ^ 2 + q.w ^ 2

theorem length_eq_sqrt (q : Rotation ℝ) : q.length = √q.normSq := by
  show √_ = √_
  congr 1
  simp only [normSq]
  ring

theorem normSq_nonneg (q : Rotation ℝ) : 0 ≤ q.normSq := by
  simp only [normSq]
  positivity

theorem length_eq_one_iff {q : Rotation ℝ} : q.length = 1 ↔ q.normSq = 1 := by
  rw [length_eq_sqrt, Real.sqrt_eq_one]

@[simp] theorem length_identity : (identity : Rotation ℝ).length = 1 := by
  rw [length_eq_one_iff]
  simp [normSq, identity]

/-- Sums of four squares multiply. -/
theorem normSq_compose (a b : Rotation ℝ) : (a.compose b).normSq = a.normSq * b.normSq := by
  simp only [normSq, compose]
  ring

theorem length_compose (a b : Rotation ℝ) : (a.compose b).length = a.length * b.length := by
  simp only [length_eq_sqrt, normSq_compose, Real.sqrt_mul a.normSq_nonneg]

theorem normalized_of_length_eq_one {q : Rotation ℝ} (h : q.length = 1) : q.normalized = q := by
  rw [normalized_eq, h]
  ext <;> exact div_one _

/-- What a rotation makes of a vector lies along the vector, along the axis and square to
both. -/
theorem apply_eq (q : Rotation ℝ) (v : Vec ℝ) :
    q.apply v =
      v.scale (q.w ^ 2 - q.axisPart.dot q.axisPart) + q.axisPart.scale (2 * v.dot q.axisPart) +
        (q.axisPart.cross v).scale (2 * q.w) := by
  ext <;>
  · simp only [apply, Vec.scale, Vec.add_x, Vec.add_y, Vec.add_z]
    norm_num
    ring

/-- A rotation multiplies dot products by the square of the square of its length. -/
theorem apply_dot_apply (q : Rotation ℝ) (u v : Vec ℝ) :
    (q.apply u).dot (q.apply v) = q.normSq ^ 2 * u.dot v := by
  simp only [apply_eq, axisPart, Vec.dot, Vec.cross, Vec.scale, Vec.add_x, Vec.add_y, Vec.add_z,
    normSq]
  ring

/-- A rotation keeps the sense in which three axes follow each other. -/
theorem apply_cross_apply (q : Rotation ℝ) (u v : Vec ℝ) :
    (q.apply u).cross (q.apply v) = (q.apply (u.cross v)).scale q.normSq := by
  ext <;>
  · simp only [apply_eq, axisPart, Vec.dot, Vec.cross, Vec.scale, Vec.add_x, Vec.add_y, Vec.add_z,
      normSq]
    ring

theorem dot_of_length_eq_one {q : Rotation ℝ} (h : q.length = 1) (u v : Vec ℝ) :
    (q.apply u).dot (q.apply v) = u.dot v := by
  rw [apply_dot_apply, length_eq_one_iff.1 h, one_pow, one_mul]

theorem cross_of_length_eq_one {q : Rotation ℝ} (h : q.length = 1) (u v : Vec ℝ) :
    (q.apply u).cross (q.apply v) = q.apply (u.cross v) := by
  rw [apply_cross_apply, length_eq_one_iff.1 h]
  ext <;> exact mul_one _

theorem length_apply {q : Rotation ℝ} (h : q.length = 1) (v : Vec ℝ) :
    (q.apply v).length = v.length := by
  show √_ = √_
  rw [dot_of_length_eq_one h]

variable [Trigonometry ℝ]

theorem length_about
    (circle : ∀ angle : ℝ, Trigonometry.sin angle ^ 2 + Trigonometry.cos angle ^ 2 = 1)
    {axis : Vec ℝ} (unit : axis.dot axis = 1) (angle : ℝ) : (about axis angle).length = 1 := by
  rw [length_eq_one_iff]
  simp only [Vec.dot] at unit
  simp only [normSq, about]
  linear_combination (Trigonometry.sin (angle * 0.5)) ^ 2 * unit + circle (angle * 0.5)

theorem length_reversal
    (circle : ∀ angle : ℝ, Trigonometry.sin angle ^ 2 + Trigonometry.cos angle ^ 2 = 1) :
    (reversal : Rotation ℝ).length = 1 := by
  rw [length_eq_one_iff]
  simp only [normSq, reversal]
  linear_combination circle (Trigonometry.halfTurn * 0.5)

end Rotation
end PlantGrammar
