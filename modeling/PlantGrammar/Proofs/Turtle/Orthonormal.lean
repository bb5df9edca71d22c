import PlantGrammar.Proofs.Space.Exact
import PlantGrammar.Proofs.Turtle.Journey
import PlantGrammar.Skeleton.Frame

/-!
# Frames that stay orthonormal

In exact arithmetic a turn about an axis of the frame has unit length, whatever the
angle, so every rotation that a turtle has or has saved is of unit length. The axes
of its frame are then as orthonormal as the axes of space, and a step along one of
them is as long as the settings say. Nothing about the angles is used but that sine
and cosine lie on the unit circle.
-/
namespace PlantGrammar

namespace Pose

/-- The axes are of unit length and stand on each other, and the third follows the
first two as in space. -/
structure Orthonormal (pose : Pose ℝ) : Prop where
  rotation : pose.rotation.length = 1
  heading : pose.heading.length = 1
  left : pose.left.length = 1
  up : pose.up.length = 1
  heading_left : pose.heading.dot pose.left = 0
  heading_up : pose.heading.dot pose.up = 0
  left_up : pose.left.dot pose.up = 0
  handed : pose.heading.cross pose.left = pose.up

theorem length_heading {pose : Pose ℝ} (unit : pose.rotation.length = 1) :
    pose.heading.length = 1 := by
  rw [heading, Rotation.length_apply unit, Vec.length_eq_one_iff, Vec.unitX_dot_unitX]

theorem orthonormal_iff {pose : Pose ℝ} : pose.Orthonormal ↔ pose.rotation.length = 1 := by
  refine ⟨Orthonormal.rotation, fun unit => ?_⟩
  have dots := Rotation.dot_of_length_eq_one unit
  refine ⟨unit, length_heading unit, ?_, ?_, ?_, ?_, ?_, ?_⟩
  · rw [left, Rotation.length_apply unit, Vec.length_eq_one_iff, Vec.unitY_dot_unitY]
  · rw [up, Rotation.length_apply unit, Vec.length_eq_one_iff, Vec.unitZ_dot_unitZ]
  · exact (dots _ _).trans Vec.unitX_dot_unitY
  · exact (dots _ _).trans Vec.unitX_dot_unitZ
  · exact (dots _ _).trans Vec.unitY_dot_unitZ
  · rw [heading, left, Rotation.cross_of_length_eq_one unit, Vec.unitX_cross_unitY, up]

/-- A turn of unit length keeps a rotation at unit length, with nothing to correct. -/
theorem length_rotate {pose : Pose ℝ} {turn : Rotation ℝ} (unit : pose.rotation.length = 1)
    (proper : turn.length = 1) : (pose.rotate turn).rotation.length = 1 := by
  have product : (pose.rotation.compose turn).length = 1 := by
    rw [Rotation.length_compose, unit, proper, one_mul]
  rw [rotate, Rotation.normalized_of_length_eq_one product, product]

theorem span_advance (pose : Pose ℝ) (distance : ℝ) :
    (pose.advance distance).position - pose.position = pose.heading.scale distance := by
  ext <;> exact add_sub_cancel_left _ _

end Pose

namespace Command

/-- A step draws a segment of its own length. -/
theorem sq_length_of_mem_drawn {settings : Settings ℝ} {command : Command ℝ} {pose : Pose ℝ}
    (unit : pose.rotation.length = 1) {segment : Segment ℝ}
    (h : segment ∈ (command.drawn settings pose).segments) :
    segment.length ^ 2 = settings.step ^ 2 := by
  cases command with
  | draw =>
      obtain rfl : segment = ⟨pose.position, (pose.advance settings.step).position⟩ := by
        simpa only [drawn, List.mem_toArray, List.mem_singleton] using h
      have heading := Vec.length_eq_one_iff.1 (Pose.length_heading unit)
      rw [Segment.length, Segment.span, Pose.span_advance, Vec.sq_length, Vec.dot_scale, heading,
        mul_one]
  | _ => exact absurd h (Array.not_mem_empty segment)

variable [Trigonometry ℝ]
  (circle : ∀ angle : ℝ, Trigonometry.sin angle ^ 2 + Trigonometry.cos angle ^ 2 = 1)

include circle

/-- Every turn is about one of the axes of space, as the pose sees them. -/
theorem length_rotation_poseAfter (settings : Settings ℝ) (command : Command ℝ) {pose : Pose ℝ}
    (unit : pose.rotation.length = 1) :
    (command.poseAfter settings pose).rotation.length = 1 := by
  cases command with
  | yaw factor => exact Pose.length_rotate unit (Rotation.length_about circle Vec.unitZ_dot_unitZ _)
  | pitch factor =>
      exact Pose.length_rotate unit (Rotation.length_about circle Vec.unitY_dot_unitY _)
  | roll factor =>
      exact Pose.length_rotate unit (Rotation.length_about circle Vec.unitX_dot_unitX _)
  | reverse => exact Pose.length_rotate unit (Rotation.length_reversal circle)
  | _ => exact unit

end Command

namespace Turtle

/-- The pose that a turtle has and after it those that it has saved. -/
def poses {α : Type} (turtle : Turtle α) : List (Pose α) := turtle.pose :: turtle.saved

/-- A command leaves the pose that it leads to and poses that were there before. -/
theorem mem_poses_of_obey? {α : Type} [Scalar α] [Trigonometry α] {turtle next : Turtle α}
    {command : Command α} (h : turtle.obey? command = some next) {pose : Pose α}
    (hmem : pose ∈ next.poses) :
    pose = command.poseAfter turtle.settings turtle.pose ∨ pose ∈ turtle.poses := by
  cases command with
  | save =>
      cases h
      exact .inr (by simpa [poses, save] using hmem)
  | restore =>
      cases hsaved : turtle.saved with
      | nil => simp [obey?, hsaved] at h
      | cons last rest =>
          simp only [obey?, hsaved, Option.some.injEq] at h
          subst h
          exact .inr (by rw [poses, hsaved]; exact List.mem_cons_of_mem _ hmem)
  | _ =>
      cases h
      exact (List.mem_cons.1 hmem).imp_right (List.mem_cons_of_mem _)

end Turtle

namespace Walk

/-- The poses are orthonormal, and the segments drawn since are as long as a step. -/
structure Rigid (settings : Settings ℝ) (before : Skeleton ℝ) (walk : Walk ℝ) : Prop where
  same : walk.turtle.settings = settings
  poses : ∀ pose ∈ walk.turtle.poses, pose.Orthonormal
  drawn : ∃ drawn, walk.skeleton = before ++ drawn ∧
    ∀ segment ∈ drawn.segments, segment.length ^ 2 = settings.step ^ 2

theorem rigid_self {walk : Walk ℝ} (poses : ∀ pose ∈ walk.turtle.poses, pose.Orthonormal) :
    walk.Rigid walk.turtle.settings walk.skeleton :=
  ⟨rfl, poses, Skeleton.empty, (Skeleton.append_empty walk.skeleton).symm,
    fun segment hmem => absurd hmem (Array.not_mem_empty segment)⟩

theorem rigid_start (settings : Settings ℝ) (before : Skeleton ℝ) :
    (start settings before).Rigid settings before := by
  refine @rigid_self (start settings before) fun pose hmem => ?_
  obtain rfl : pose = Pose.home := List.mem_singleton.1 hmem
  exact Pose.orthonormal_iff.2 Rotation.length_identity

section

variable [Trigonometry ℝ]
  (circle : ∀ angle : ℝ, Trigonometry.sin angle ^ 2 + Trigonometry.cos angle ^ 2 = 1)

include circle

theorem Rigid.obey {settings : Settings ℝ} {before : Skeleton ℝ} {walk : Walk ℝ}
    (h : walk.Rigid settings before) (position : Nat) (command : Command ℝ) :
    (walk.obey position command).1.Rigid settings before := by
  have unit : walk.turtle.pose.rotation.length = 1 := (h.poses _ List.mem_cons_self).rotation
  rw [obey_eq]
  cases hobey : walk.turtle.obey? command with
  | none => exact h
  | some next =>
      obtain ⟨drawn, grown, lengths⟩ := h.drawn
      refine ⟨(Turtle.settings_obey? hobey).trans h.same, fun pose hmem => ?_,
        drawn ++ command.drawn walk.turtle.settings walk.turtle.pose, ?_, fun segment hmem => ?_⟩
      · rcases Turtle.mem_poses_of_obey? hobey hmem with rfl | old
        · exact Pose.orthonormal_iff.2 (command.length_rotation_poseAfter circle _ unit)
        · exact h.poses pose old
      · rw [grown, Skeleton.append_assoc]
      · rw [Skeleton.segments_append] at hmem
        rcases Array.mem_append.1 hmem with old | new
        · exact lengths segment old
        · rw [Command.sq_length_of_mem_drawn unit new, h.same]

/-- At every point of a word, also where a bracket without a partner ends it, the pose
of the turtle and the poses that it has saved are orthonormal, and what has been drawn
behind the skeleton that was there are segments as long as a step. -/
theorem orthonormal_at_every_stage (settings : Settings ℝ) (before : Skeleton ℝ) (word : Word) :
    let walk := start settings before
    (walk.read word).walk ∈ walk.stages 0 word ∧
      ∀ stage ∈ walk.stages 0 word,
        (∀ pose ∈ stage.turtle.pose :: stage.turtle.saved, pose.Orthonormal) ∧
          ∃ drawn, stage.skeleton = before ++ drawn ∧
            ∀ segment ∈ drawn.segments, segment.length ^ 2 = settings.step ^ 2 := by
  intro walk
  refine ⟨?_, fun stage hmem => ?_⟩
  · rw [read_walk_eq_follow]
    exact follow_mem_stages walk 0 word
  · have rigid : stage.Rigid settings before :=
      stages_induction (fun walk position symbol _ h => h.obey circle position _)
        (rigid_start settings before) 0 stage hmem
    exact ⟨rigid.poses, rigid.drawn⟩

end

/-- Sine and cosine are the exact ones, and the second closing bracket has no partner. -/
theorem orthonormal_at_every_stage_up_to_fault :
    letI : Trigonometry ℝ := Trigonometry.exact
    let reading := (start ⟨25, 2⟩ Skeleton.empty).read "F+&[F\\|f/F]]F".toList
    (∀ angle : ℝ, Trigonometry.sin angle ^ 2 + Trigonometry.cos angle ^ 2 = 1) ∧
      reading.outcome = .error (.unmatchedBracket 11) ∧
      reading.walk.skeleton.segments.size = 3 ∧
      (∀ pose ∈ reading.walk.turtle.pose :: reading.walk.turtle.saved, pose.Orthonormal) ∧
      ∀ segment ∈ reading.walk.skeleton.segments, segment.length ^ 2 = 2 ^ 2 := by
  let _ : Trigonometry ℝ := Trigonometry.exact
  obtain ⟨last, frames⟩ := orthonormal_at_every_stage Trigonometry.circle_exact ⟨25, 2⟩
    Skeleton.empty "F+&[F\\|f/F]]F".toList
  obtain ⟨poses, drawn, grown, lengths⟩ := frames _ last
  rw [Skeleton.empty_append] at grown
  refine ⟨Trigonometry.circle_exact, rfl, rfl, poses, ?_⟩
  rw [grown]
  exact lengths

end Walk
end PlantGrammar
