import PlantGrammar.Proofs.Space.Exact
import PlantGrammar.Skeleton.Frame

/-!
# Frames that are bases

In exact arithmetic both ways to find the side axes of a segment give a left axis that is
square to the forward axis, and the up axis is what follows the forward axis and it. So
the two are of one length, and scaled to unit length they complete the forward axis to an
orthonormal basis, which is handed alike in both cases. What is left to see is that the
left axis does not vanish. It is not short where it is taken against the second axis of
space, and where that would be short, the segment is far from the third axis.
-/
namespace PlantGrammar

namespace Vec

theorem dot_comm (u v : Vec ℝ) : u.dot v = v.dot u := by
  simp only [dot]
  ring

theorem dot_cross_self (u v : Vec ℝ) : u.dot (u.cross v) = 0 := by
  simp only [dot, cross]
  ring

theorem dot_cross_self_right (u v : Vec ℝ) : v.dot (u.cross v) = 0 := by
  simp only [dot, cross]
  ring

/-- Lagrange's identity. -/
theorem cross_dot_cross (u v : Vec ℝ) :
    (u.cross v).dot (u.cross v) = u.dot u * v.dot v - u.dot v ^ 2 := by
  simp only [dot, cross]
  ring

theorem length_cross_of_square {u v : Vec ℝ} (unit : u.dot u = 1) (square : u.dot v = 0) :
    (u.cross v).length = v.length := by
  show √_ = √_
  rw [cross_dot_cross, unit, square, one_mul, zero_pow two_ne_zero, sub_zero]

/-- A vector that is square to one of unit length comes back when it is crossed with that
one from either side. -/
theorem cross_cross_of_square {u v : Vec ℝ} (unit : u.dot u = 1) (square : u.dot v = 0) :
    u.cross (v.cross u) = v := by
  simp only [dot] at unit square
  ext <;> simp only [cross]
  · linear_combination v.x * unit - u.x * square
  · linear_combination v.y * unit - u.y * square
  · linear_combination v.z * unit - u.z * square

theorem sq_length_unitY_cross (v : Vec ℝ) : (unitY.cross v).length ^ 2 = v.x ^ 2 + v.z ^ 2 := by
  rw [sq_length]
  simp only [dot, cross, unitY]
  ring

theorem y_cross_unitY_cross (v : Vec ℝ) :
    (v.cross (unitY.cross v)).y = (unitY.cross v).length ^ 2 := by
  rw [sq_length_unitY_cross]
  simp only [cross, unitY]
  ring

theorem dot_unitZ (v : Vec ℝ) : v.dot unitZ = v.z := by simp [dot, unitZ]

theorem scale_dot (u v : Vec ℝ) (k : ℝ) : (u.scale k).dot v = k * u.dot v := by
  simp only [dot, scale]
  ring

theorem cross_scale (u v : Vec ℝ) (k : ℝ) : u.cross (v.scale k) = (u.cross v).scale k := by
  ext <;> simp only [cross, scale] <;> ring

theorem length_nonneg (v : Vec ℝ) : 0 ≤ v.length := Real.sqrt_nonneg _

theorem length_eq_of_dot {v : Vec ℝ} {k : ℝ} (nonneg : 0 ≤ k) (h : v.dot v = k ^ 2) :
    v.length = k := by
  show √(v.dot v) = k
  rw [h, Real.sqrt_sq nonneg]

theorem length_pos_iff {v : Vec ℝ} : 0 < v.length ↔ 0 < v.dot v := Real.sqrt_pos

theorem direction_of_pos {v : Vec ℝ} (h : 0 < v.length) :
    v.direction = v.scale (1 / v.length) := if_pos ⟨rfl, one_div_pos.2 h⟩

@[simp] theorem cross_zero (u : Vec ℝ) : u.cross zero = zero := by simp [cross, zero]

@[simp] theorem zero_cross (u : Vec ℝ) : zero.cross u = zero := by simp [cross, zero]

@[simp] theorem length_zero : (zero : Vec ℝ).length = 0 := by simp [length, dot, zero, Scalar.sqrt]

@[simp] theorem direction_zero : (zero : Vec ℝ).direction = zero := by
  refine if_neg fun ⟨_, positive⟩ => ?_
  rw [length_zero, div_zero] at positive
  exact lt_irrefl _ positive

theorem length_direction {v : Vec ℝ} (h : 0 < v.length) : v.direction.length = 1 := by
  rw [length_eq_one_iff, direction_of_pos h, dot_scale, ← sq_length, ← mul_pow,
    one_div_mul_cancel h.ne', one_pow]

theorem length_pos {v : Vec ℝ} (h : v ≠ zero) : 0 < v.length := by
  rw [length_pos_iff]
  refine lt_of_le_of_ne v.dot_self_nonneg fun vanishes => h ?_
  have squares : v.x * v.x + v.y * v.y + v.z * v.z = 0 := vanishes.symm
  rw [add_eq_zero_iff_of_nonneg (add_nonneg (mul_self_nonneg _) (mul_self_nonneg _))
      (mul_self_nonneg _), add_eq_zero_iff_of_nonneg (mul_self_nonneg _) (mul_self_nonneg _),
    mul_self_eq_zero, mul_self_eq_zero, mul_self_eq_zero] at squares
  obtain ⟨⟨x, y⟩, z⟩ := squares
  exact Vec.ext x y z

end Vec

/-- The axes are of unit length and stand on each other, and the up axis follows the
forward axis and the left one. -/
structure Frame.Orthonormal (frame : Frame ℝ) : Prop where
  left : frame.left.length = 1
  up : frame.up.length = 1
  forward : frame.forward.length = 1
  left_up : frame.left.dot frame.up = 0
  left_forward : frame.left.dot frame.forward = 0
  up_forward : frame.up.dot frame.forward = 0
  handed : frame.forward.cross frame.left = frame.up

namespace Segment

/-- Side axes that fit a forward axis, of any length but zero. -/
structure Sides (forward left up : Vec ℝ) : Prop where
  square : forward.dot left = 0
  follows : forward.cross left = up
  proper : 0 < left.length

section

variable {forward left up : Vec ℝ} (unit : forward.dot forward = 1)

include unit

theorem Sides.orthonormal (h : Sides forward left up) :
    Frame.Orthonormal ⟨left.direction, up.direction, forward⟩ := by
  have same : up.length = left.length := h.follows ▸ Vec.length_cross_of_square unit h.square
  have proper : 0 < up.length := same ▸ h.proper
  have left_up : left.dot up = 0 := h.follows ▸ Vec.dot_cross_self_right forward left
  have forward_up : forward.dot up = 0 := h.follows ▸ Vec.dot_cross_self forward left
  refine ⟨Vec.length_direction h.proper, Vec.length_direction proper,
    Vec.length_eq_one_iff.2 unit, ?_, ?_, ?_, ?_⟩
  · rw [Vec.direction_of_pos h.proper, Vec.direction_of_pos proper, Vec.scale_dot, Vec.dot_comm,
      Vec.scale_dot, Vec.dot_comm, left_up, mul_zero, mul_zero]
  · rw [Vec.direction_of_pos h.proper, Vec.scale_dot, Vec.dot_comm, h.square, mul_zero]
  · rw [Vec.direction_of_pos proper, Vec.scale_dot, Vec.dot_comm, forward_up, mul_zero]
  · rw [Vec.direction_of_pos h.proper, Vec.direction_of_pos proper, Vec.cross_scale, h.follows,
      same]

/-- Nothing is near the second axis and the third one at once. -/
theorem cross_unitZ_pos (near : (Vec.unitY.cross forward).length < 1e-4) :
    0 < (forward.cross Vec.unitZ).length := by
  have small : (Vec.unitY.cross forward).length ^ 2 < 1 := by
    refine (sq_lt_one_iff₀ (Vec.length_nonneg _)).2 (near.trans ?_)
    norm_num
  rw [Vec.sq_length_unitY_cross] at small
  rw [Vec.length_pos_iff, Vec.cross_dot_cross, unit, Vec.unitZ_dot_unitZ, Vec.dot_unitZ]
  linarith [sq_nonneg forward.x]

theorem sides_sideAxes : Sides forward (sideAxes forward).1 (sideAxes forward).2 := by
  unfold sideAxes
  dsimp only
  split
  · rename_i near
    have square := Vec.dot_cross_self_right (forward.cross Vec.unitZ) forward
    have follows := Vec.cross_cross_of_square unit (Vec.dot_cross_self forward Vec.unitZ)
    have same := Vec.length_cross_of_square unit square
    rw [follows] at same
    exact ⟨square, follows, same ▸ cross_unitZ_pos unit near⟩
  · rename_i far
    have proper : (0 : ℝ) < 1e-4 := by norm_num
    exact ⟨Vec.dot_cross_self_right _ _, rfl, proper.trans_le (not_lt.1 far)⟩

/-- Away from the second axis, the up axis rises along it. -/
theorem up_sideAxes_pos (far : 1e-4 ≤ (Vec.unitY.cross forward).length) :
    0 < (sideAxes forward).2.direction.y := by
  have proper : (0 : ℝ) < 1e-4 := by norm_num
  have up : (sideAxes forward).2 = forward.cross (Vec.unitY.cross forward) := by
    rw [sideAxes, if_neg (not_lt.2 far)]
  have square := Vec.dot_cross_self_right Vec.unitY forward
  have length : 0 < (Vec.unitY.cross forward).length := proper.trans_le far
  have same := Vec.length_cross_of_square unit square
  rw [up, Vec.direction_of_pos (same ▸ length)]
  show 0 < (forward.cross (Vec.unitY.cross forward)).y * _
  rw [Vec.y_cross_unitY_cross, same]
  exact mul_pos (pow_pos length 2) (one_div_pos.2 length)

end

theorem sideAxes_zero : sideAxes (Vec.zero : Vec ℝ) = (Vec.zero, Vec.zero) := by
  have near : (Vec.unitY.cross (Vec.zero : Vec ℝ)).length < 1e-4 := by
    rw [Vec.cross_zero, Vec.length_zero]
    norm_num
  rw [sideAxes, if_pos near]
  simp only [Vec.zero_cross]

theorem span_ne_zero {segment : Segment ℝ} (h : segment.start ≠ segment.finish) :
    segment.span ≠ Vec.zero := by
  intro vanishes
  have zero (axis : Vec ℝ → ℝ) := congrArg axis vanishes
  exact h (Vec.ext (sub_eq_zero.1 (zero Vec.x)).symm (sub_eq_zero.1 (zero Vec.y)).symm
    (sub_eq_zero.1 (zero Vec.z)).symm)

/-- The frame of a segment is an orthonormal basis along the segment, whichever axis of
space it is taken against. Only a segment that goes nowhere has none. -/
theorem frames_are_orthonormal (segment : Segment ℝ) :
    (segment.start ≠ segment.finish →
      segment.frame.forward = segment.span.scale (1 / segment.length) ∧
      segment.frame.Orthonormal ∧
      (1e-4 ≤ (Vec.unitY.cross segment.frame.forward).length → 0 < segment.frame.up.y)) ∧
    (segment.start = segment.finish →
      segment.frame = ⟨Vec.zero, Vec.zero, Vec.zero⟩) := by
  refine ⟨fun apart => ?_, fun together => ?_⟩
  · have proper : 0 < segment.span.length := Vec.length_pos (span_ne_zero apart)
    have unit := Vec.length_eq_one_iff.1 (Vec.length_direction proper)
    exact ⟨Vec.direction_of_pos proper, (sides_sideAxes unit).orthonormal unit,
      up_sideAxes_pos unit⟩
  · have span : segment.span = Vec.zero := by
      rw [Segment.span, together]
      ext <;> exact sub_self _
    simp only [frame, span, Vec.direction_zero, sideAxes_zero]

/-- One segment lies along the first axis of space. The other is so near to the second
one that its side axes are taken against the third. -/
theorem frames_are_orthonormal_near_unitY :
    let flat : Segment ℝ := ⟨Vec.zero, ⟨3, 0, 0⟩⟩
    let steep : Segment ℝ := ⟨⟨1, 1, 1⟩, ⟨60001, 900000000, 1⟩⟩
    flat.start ≠ flat.finish ∧ steep.start ≠ steep.finish ∧
      1e-4 ≤ (Vec.unitY.cross flat.frame.forward).length ∧
      (Vec.unitY.cross steep.frame.forward).length < 1e-4 ∧
      flat.frame.Orthonormal ∧ 0 < flat.frame.up.y ∧ steep.frame.Orthonormal := by
  intro flat steep
  have flat_apart : flat.start ≠ flat.finish := by
    intro same
    have x : (0 : ℝ) = 3 := congrArg Vec.x same
    norm_num at x
  have steep_apart : steep.start ≠ steep.finish := by
    intro same
    have x : (1 : ℝ) = 60001 := congrArg Vec.x same
    norm_num at x
  have flat_length : flat.length = 3 := by
    apply Vec.length_eq_of_dot <;> norm_num [flat, span, Vec.dot, Vec.zero]
  have steep_length : steep.length = 900000001 := by
    apply Vec.length_eq_of_dot <;> norm_num [steep, span, Vec.dot]
  obtain ⟨flat_forward, flat_basis, rises⟩ := (frames_are_orthonormal flat).1 flat_apart
  obtain ⟨steep_forward, steep_basis, _⟩ := (frames_are_orthonormal steep).1 steep_apart
  have flat_far : (Vec.unitY.cross flat.frame.forward).length = 1 := by
    rw [flat_forward, flat_length]
    apply Vec.length_eq_of_dot <;>
      norm_num [flat, span, Vec.dot, Vec.cross, Vec.scale, Vec.unitY, Vec.zero]
  have steep_near : (Vec.unitY.cross steep.frame.forward).length = 60000 / 900000001 := by
    rw [steep_forward, steep_length]
    apply Vec.length_eq_of_dot <;>
      norm_num [steep, span, Vec.dot, Vec.cross, Vec.scale, Vec.unitY]
  have far : 1e-4 ≤ (Vec.unitY.cross flat.frame.forward).length := by
    rw [flat_far]
    norm_num
  refine ⟨flat_apart, steep_apart, far, ?_, flat_basis, rises far, steep_basis⟩
  rw [steep_near]
  norm_num

end Segment
end PlantGrammar
