import PlantGrammar.Proofs.Space.Exact

/-!
# Rotations put together

In exact arithmetic a composition moves a vector as its two parts do one after the other.
A rotation about an axis of unit length keeps the axis and turns what is square to it by
its angle, and the rotation about the same axis by the opposite angle undoes it. Two
half turns come to the identity with the opposite sign, which moves nothing either: a
rotation and its opposite move all vectors alike.
-/
namespace PlantGrammar

theorem Trigonometry.two_mul_half (angle : ℝ) : 2 * (angle * 0.5) = angle := by
  norm_num
  ring

/-- What the geometry asks of sine and cosine. -/
structure Trigonometry.Lawful [Trigonometry ℝ] : Prop where
  circle : ∀ angle : ℝ, sin angle ^ 2 + cos angle ^ 2 = 1
  sin_neg : ∀ angle : ℝ, sin (-angle) = -sin angle
  cos_neg : ∀ angle : ℝ, cos (-angle) = cos angle
  sin_double : ∀ half : ℝ, sin (2 * half) = 2 * (cos half * sin half)
  cos_double : ∀ half : ℝ, cos (2 * half) = cos half ^ 2 - sin half ^ 2
  sin_quarter : sin (halfTurn * 0.5 : ℝ) = 1
  cos_quarter : cos (halfTurn * 0.5 : ℝ) = 0

namespace Trigonometry.Lawful

variable [Trigonometry ℝ] (lawful : Lawful)

include lawful

theorem sin_halfTurn : sin (halfTurn : ℝ) = 0 := by
  have double := lawful.sin_double (halfTurn * 0.5)
  rwa [two_mul_half, lawful.cos_quarter, zero_mul, mul_zero] at double

theorem cos_halfTurn : cos (halfTurn : ℝ) = -1 := by
  have double := lawful.cos_double (halfTurn * 0.5)
  rw [two_mul_half, lawful.cos_quarter, lawful.sin_quarter] at double
  rw [double]
  norm_num

end Trigonometry.Lawful

theorem Trigonometry.lawful_exact : @Trigonometry.Lawful Trigonometry.exact := by
  have quarter : Real.pi * 0.5 = Real.pi / 2 := by norm_num [div_eq_mul_inv]
  refine @Lawful.mk Trigonometry.exact circle_exact Real.sin_neg Real.cos_neg (fun half => ?_)
    Real.cos_two_mul' ?_ ?_
  · show Real.sin (2 * half) = 2 * (Real.cos half * Real.sin half)
    rw [Real.sin_two_mul]
    ring
  · exact (congrArg Real.sin quarter).trans Real.sin_pi_div_two
  · exact (congrArg Real.cos quarter).trans Real.cos_pi_div_two

namespace Rotation

theorem compose_assoc (a b c : Rotation ℝ) :
    (a.compose b).compose c = a.compose (b.compose c) := by
  ext <;>
  · simp only [compose]
    ring

@[simp] theorem compose_identity (q : Rotation ℝ) : q.compose identity = q := by
  ext <;> simp [compose, identity]

@[simp] theorem apply_identity (v : Vec ℝ) : identity.apply v = v := by
  rw [apply_eq]
  ext <;> simp [identity, axisPart, Vec.dot, Vec.cross, Vec.scale]

/-- A composition moves a vector first as its second part and then as its first. -/
theorem apply_compose (a b : Rotation ℝ) (v : Vec ℝ) :
    (a.compose b).apply v = a.apply (b.apply v) := by
  ext <;>
  · simp only [apply_eq, axisPart, compose, Vec.dot, Vec.cross, Vec.scale, Vec.add_x, Vec.add_y,
      Vec.add_z]
    ring

theorem apply_add (q : Rotation ℝ) (u v : Vec ℝ) : q.apply (u + v) = q.apply u + q.apply v := by
  ext <;>
  · simp only [apply_eq, Vec.dot, Vec.cross, Vec.scale, Vec.add_x, Vec.add_y, Vec.add_z]
    ring

theorem apply_scale (q : Rotation ℝ) (v : Vec ℝ) (k : ℝ) :
    q.apply (v.scale k) = (q.apply v).scale k := by
  ext <;>
  · simp only [apply_eq, Vec.dot, Vec.cross, Vec.scale, Vec.add_x, Vec.add_y, Vec.add_z]
    ring

/-- The same rotation, written the other way. -/
def opposite (q : Rotation ℝ) : Rotation ℝ := ⟨-q.x, -q.y, -q.z, -q.w⟩

@[simp] theorem apply_opposite (q : Rotation ℝ) (v : Vec ℝ) : q.opposite.apply v = q.apply v := by
  ext <;>
  · simp only [apply_eq, axisPart, opposite, Vec.dot, Vec.cross, Vec.scale, Vec.add_x, Vec.add_y,
      Vec.add_z]
    ring

theorem opposite_compose (a b : Rotation ℝ) :
    a.opposite.compose b = (a.compose b).opposite := by
  ext <;>
  · simp only [compose, opposite]
    ring

theorem compose_opposite (a b : Rotation ℝ) :
    a.compose b.opposite = (a.compose b).opposite := by
  ext <;>
  · simp only [compose, opposite]
    ring

@[simp] theorem length_opposite (q : Rotation ℝ) : q.opposite.length = q.length := by
  simp only [length_eq_sqrt, normSq, opposite, neg_sq]

theorem normalized_opposite (q : Rotation ℝ) : q.opposite.normalized = q.normalized.opposite := by
  rw [normalized_eq, normalized_eq, length_opposite]
  ext <;> exact neg_div _ _

section

variable [Trigonometry ℝ] (lawful : Trigonometry.Lawful) {axis : Vec ℝ} (unit : axis.dot axis = 1)

include lawful unit

theorem about_apply_axis (angle : ℝ) : (about axis angle).apply axis = axis := by
  have circle := lawful.circle (angle * 0.5)
  simp only [Vec.dot] at unit
  ext <;>
    simp only [apply_eq, about, axisPart, Vec.dot, Vec.cross, Vec.scale, Vec.add_x, Vec.add_y,
      Vec.add_z]
  · linear_combination axis.x * circle + axis.x * Trigonometry.sin (angle * 0.5) ^ 2 * unit
  · linear_combination axis.y * circle + axis.y * Trigonometry.sin (angle * 0.5) ^ 2 * unit
  · linear_combination axis.z * circle + axis.z * Trigonometry.sin (angle * 0.5) ^ 2 * unit

/-- What is square to the axis is turned by the angle, towards what follows the axis and
it as the third axis of space follows the first two. -/
theorem about_apply_of_square {v : Vec ℝ} (square : axis.dot v = 0) (angle : ℝ) :
    (about axis angle).apply v =
      v.scale (Trigonometry.cos angle) + (axis.cross v).scale (Trigonometry.sin angle) := by
  have sin := lawful.sin_double (angle * 0.5)
  have cos := lawful.cos_double (angle * 0.5)
  rw [Trigonometry.two_mul_half] at sin cos
  simp only [Vec.dot] at unit square
  ext <;>
    simp only [apply_eq, about, axisPart, Vec.dot, Vec.cross, Vec.scale, Vec.add_x, Vec.add_y,
      Vec.add_z, sin, cos]
  · linear_combination Trigonometry.sin (angle * 0.5) ^ 2 * (2 * axis.x * square - v.x * unit)
  · linear_combination Trigonometry.sin (angle * 0.5) ^ 2 * (2 * axis.y * square - v.y * unit)
  · linear_combination Trigonometry.sin (angle * 0.5) ^ 2 * (2 * axis.z * square - v.z * unit)

theorem about_compose_about_neg (angle : ℝ) :
    (about axis angle).compose (about axis (-angle)) = identity := by
  have circle := lawful.circle (angle * 0.5)
  simp only [Vec.dot] at unit
  ext <;>
    simp only [compose, about, identity, neg_mul, lawful.sin_neg, lawful.cos_neg]
  · ring
  · ring
  · ring
  · linear_combination circle + Trigonometry.sin (angle * 0.5) ^ 2 * unit

end

section

variable [Trigonometry ℝ] (lawful : Trigonometry.Lawful)

theorem reversal_eq_about : (reversal : Rotation ℝ) = about Vec.unitZ Trigonometry.halfTurn := by
  ext <;> simp [reversal, about, Vec.unitZ]

include lawful

theorem reversal_compose_reversal :
    (reversal : Rotation ℝ).compose reversal = identity.opposite := by
  ext <;> simp [compose, reversal, identity, opposite, lawful.sin_quarter, lawful.cos_quarter]

end

end Rotation
end PlantGrammar
