import PlantGrammar.Proofs.Binary.Arithmetic
import PlantGrammar.Proofs.Skeleton.Enclosure
import PlantGrammar.Skeleton.Frame

/-!
# Frames of segments without a direction

A vector is scaled to unit length only if the inverse of its length is finite and
positive. A coordinate that is not finite makes the sum of the squares so too, and then
the inverse of the root is zero or not finite. So where a vector is scaled, its
coordinates are finite, and a product of two finite numbers is a number. All axes of a
frame come about in this way. A segment without a direction gives the other two axes
nothing to be square to, so that they are zero with it.
-/
namespace PlantGrammar

namespace Vec

theorem mem_axes {α : Type} {axis : Vec α → α} :
    axis ∈ axes ↔ axis = Vec.x ∨ axis = Vec.y ∨ axis = Vec.z := by
  simp [axes]

variable {v : Vec Float32} {axis : Vec Float32 → Float32}

theorem isFinite_dot_self (haxis : axis ∈ axes) (h : (axis v).isFinite = false) :
    (v.dot v).isFinite = false := by
  have square := Single.isFinite_mul_self h
  rcases mem_axes.1 haxis with rfl | rfl | rfl
  · exact Single.isFinite_add (.inl (Single.isFinite_add (.inl square)))
  · exact Single.isFinite_add (.inl (Single.isFinite_add (.inr square)))
  · exact Single.isFinite_add (.inr square)

theorem direction_of_isFinite_eq_false (haxis : axis ∈ axes) (h : (axis v).isFinite = false) :
    v.direction = zero := by
  refine if_neg fun ⟨finite, positive⟩ => ?_
  rcases Single.inverse_sqrt (isFinite_dot_self haxis h) with vanishes | special
  · have inverse : 1 / v.length = 0 := vanishes
    rw [inverse] at positive
    exact absurd positive (by decide)
  · exact Bool.false_ne_true (special.symm.trans finite)

/-- The squares of both zeros are the same. -/
theorem direction_of_zeros (h : ∀ axis ∈ axes, axis v = 0 ∨ axis v = -0) :
    v.direction = zero := by
  have square : ∀ a : Float32, a = 0 ∨ a = -0 → a * a = 0 := by
    rintro a (rfl | rfl) <;> decide +kernel
  have dot : v.dot v = 0 + 0 + 0 :=
    congrArg₂ (· + ·) (congrArg₂ (· + ·) (square _ (h Vec.x (mem_axes.2 (.inl rfl))))
      (square _ (h Vec.y (mem_axes.2 (.inr (.inl rfl))))))
      (square _ (h Vec.z (mem_axes.2 (.inr (.inr rfl)))))
  refine if_neg fun ⟨finite, _⟩ => ?_
  rw [length, dot] at finite
  exact absurd finite (by decide +kernel)

/-- A direction is scaled by a finite number and is zero if a coordinate is not finite. -/
theorem isNaN_direction (v : Vec Float32) (haxis : axis ∈ axes) :
    (axis v.direction).isNaN = false := by
  cases finite : (axis v).isFinite with
  | false =>
      rw [direction_of_isFinite_eq_false haxis finite]
      rcases mem_axes.1 haxis with rfl | rfl | rfl <;> rfl
  | true =>
      unfold direction
      dsimp only
      split
      · rename_i proper
        have scaled := Single.isNaN_mul finite proper.1
        rcases mem_axes.1 haxis with rfl | rfl | rfl <;> exact scaled
      · rcases mem_axes.1 haxis with rfl | rfl | rfl <;> rfl

end Vec

/-- The three axes. -/
def Frame.axes {α : Type} (frame : Frame α) : List (Vec α) :=
  [frame.left, frame.up, frame.forward]

namespace Segment

theorem mem_axes_frame {segment : Segment Float32} {axis : Vec Float32}
    (h : axis ∈ segment.frame.axes) : ∃ v : Vec Float32, axis = v.direction := by
  simp only [Frame.axes, List.mem_cons, List.not_mem_nil, or_false] at h
  rcases h with rfl | rfl | rfl <;> exact ⟨_, rfl⟩

theorem frame_of_direction_eq_zero {segment : Segment Float32}
    (h : segment.span.direction = Vec.zero) :
    segment.frame = ⟨Vec.zero, Vec.zero, Vec.zero⟩ := by
  have sides : sideAxes (Vec.zero : Vec Float32) = (Vec.zero, Vec.zero) := by decide +kernel
  have none : (Vec.zero : Vec Float32).direction = Vec.zero := by decide +kernel
  simp only [frame, h, sides, none]

/-- Whatever the ends of a segment are, the coordinates of its frame are numbers. A
segment between two ends that are the same, or whose difference is not finite, has a
frame of zeros. -/
theorem frames_are_numbers (segment : Segment Float32) :
    (∀ axis ∈ segment.frame.axes, ∀ coordinate ∈ Vec.axes, (coordinate axis).isNaN = false) ∧
    ((∃ coordinate ∈ Vec.axes,
        (coordinate segment.span).isNaN = true ∨ (coordinate segment.span).isInf = true) ∨
      (∀ coordinate ∈ Vec.axes, coordinate segment.span = 0 ∨ coordinate segment.span = -0) →
      segment.frame = ⟨Vec.zero, Vec.zero, Vec.zero⟩) := by
  refine ⟨fun axis haxis coordinate hcoordinate => ?_, fun degenerate => ?_⟩
  · obtain ⟨v, rfl⟩ := mem_axes_frame haxis
    exact Vec.isNaN_direction v hcoordinate
  · apply frame_of_direction_eq_zero
    rcases degenerate with ⟨coordinate, hcoordinate, special⟩ | zeros
    · exact Vec.direction_of_isFinite_eq_false hcoordinate (Single.isFinite_of_special special)
    · exact Vec.direction_of_zeros zeros

/-- Both ends are finite, but their difference is not. -/
theorem frames_are_numbers_overflow :
    let segment : Segment Float32 := ⟨⟨-3e38, 1, 0⟩, ⟨3e38, 1, 1e-40⟩⟩
    segment.span.x.isInf = true ∧ segment.frame = ⟨Vec.zero, Vec.zero, Vec.zero⟩ := by
  intro segment
  have infinite : segment.span.x.isInf = true := by decide +kernel
  exact ⟨infinite, (frames_are_numbers segment).2
    (.inl ⟨Vec.x, List.mem_cons_self, .inr infinite⟩)⟩

end Segment
end PlantGrammar
