import PlantGrammar.Proofs.Space.Exact
import PlantGrammar.Proofs.Turtle.Account

/-!
# Drawings to scale

The step is used for nothing but the distance of an advance, and the place after an advance
is linear in the place before it and in the distance. Turns do not look at places. So a
turtle whose step, place and saved places are multiples of those of another one by the same
factor stays so, and what it draws is the other drawing to that scale. Nothing about the
angles is used, not even that sine and cosine lie on the unit circle.
-/
namespace PlantGrammar

section

variable {α : Type} [Scalar α]

/-- The same settings but for the step. -/
def Settings.scaled (k : α) (settings : Settings α) : Settings α :=
  { settings with step := k * settings.step }

/-- The same orientation at another place. -/
def Pose.scaled (k : α) (pose : Pose α) : Pose α :=
  { pose with position := pose.position.scale k }

def Turtle.scaled (k : α) (turtle : Turtle α) : Turtle α :=
  ⟨turtle.settings.scaled k, turtle.pose.scaled k, turtle.saved.map (Pose.scaled k)⟩

def Segment.scaled (k : α) (segment : Segment α) : Segment α :=
  ⟨segment.start.scale k, segment.finish.scale k⟩

/-- The same symbol at another place. -/
def Marker.scaled (k : α) (marker : Marker α) : Marker α :=
  { marker with position := marker.position.scale k }

def Skeleton.scaled (k : α) (s : Skeleton α) : Skeleton α :=
  ⟨s.segments.map (Segment.scaled k), s.markers.map (Marker.scaled k)⟩

end

theorem Skeleton.scaled_empty (k : ℝ) : (empty : Skeleton ℝ).scaled k = empty := by
  simp [scaled, empty]

theorem Skeleton.scaled_append (k : ℝ) (s t : Skeleton ℝ) :
    (s ++ t).scaled k = s.scaled k ++ t.scaled k := by
  ext1 <;> simp [scaled]

theorem Pose.home_scaled (k : ℝ) : (home : Pose ℝ).scaled k = home := by
  ext <;> simp [scaled, home, Vec.zero, Vec.scale]

theorem Pose.advance_scaled (k distance : ℝ) (pose : Pose ℝ) :
    (pose.scaled k).advance (k * distance) = (pose.advance distance).scaled k := by
  refine Pose.ext (Vec.ext ?_ ?_ ?_) rfl <;>
  · simp only [advance, scaled, heading, Vec.scale, Vec.add_x, Vec.add_y, Vec.add_z]
    ring

variable [Trigonometry ℝ]

namespace Command

theorem poseAfter_scaled (k : ℝ) (settings : Settings ℝ) (command : Command ℝ) (pose : Pose ℝ) :
    command.poseAfter (settings.scaled k) (pose.scaled k) =
      (command.poseAfter settings pose).scaled k := by
  cases command with
  | draw | move => exact Pose.advance_scaled k settings.step pose
  | yaw | pitch | roll | reverse | save | restore | mark => rfl

omit [Trigonometry ℝ] in
theorem drawn_scaled (k : ℝ) (settings : Settings ℝ) (command : Command ℝ) (pose : Pose ℝ) :
    command.drawn (settings.scaled k) (pose.scaled k) =
      (command.drawn settings pose).scaled k := by
  cases command with
  | draw =>
      have moved : (pose.scaled k).advance (settings.scaled k).step = _ :=
        Pose.advance_scaled k settings.step pose
      rw [drawn, moved]
      simp [drawn, Skeleton.scaled, Segment.scaled, Pose.scaled]
  | mark symbol => simp [drawn, Skeleton.scaled, Marker.scaled, Pose.scaled]
  | move | yaw | pitch | roll | reverse | save | restore => exact (Skeleton.scaled_empty k).symm

end Command

namespace Turtle

theorem obey?_scaled (k : ℝ) (turtle : Turtle ℝ) (command : Command ℝ) :
    (turtle.scaled k).obey? command = (turtle.obey? command).map (scaled k) := by
  cases command with
  | save => rfl
  | restore =>
      cases hsaved : turtle.saved with
      | nil => simp [obey?, scaled, hsaved]
      | cons pose rest => simp [obey?, scaled, hsaved]
  | draw | move | yaw | pitch | roll | reverse | mark =>
      exact congrArg (fun pose => some (Turtle.mk _ pose _))
        (Command.poseAfter_scaled k turtle.settings _ turtle.pose)

/-- A turtle to scale goes to scale along any word, and draws to scale. -/
theorem journey_scaled (k : ℝ) (turtle : Turtle ℝ) (w : Word) :
    (turtle.scaled k).journey w =
      ⟨(turtle.journey w).turtle.scaled k, (turtle.journey w).drawn.scaled k,
        (turtle.journey w).stop⟩ := by
  have image := journey_image (Skeleton.scaled_empty k) (Skeleton.scaled_append k)
    (fun turtle symbol => obey?_scaled k turtle (Command.ofSymbol (id symbol)))
    (fun turtle symbol =>
      Command.drawn_scaled k turtle.settings (Command.ofSymbol (id symbol)) turtle.pose)
    turtle w
  rwa [List.map_id] at image

end Turtle

namespace Walk

/-- A fresh turtle with a step that is a multiple of another one, be the factor negative or
zero, ends a word as it does with the other step: at the same bracket without a partner if
at any, with the same orientation and as many saved poses of the same orientations. All
places are multiples by that factor: where it stands, the places that it has saved, both
ends of each segment and the places of the markers, which have the same symbols. -/
theorem places_are_linear_in_step (angle step k : ℝ) (before : Skeleton ℝ) (word : Word) :
    let plain := (start ⟨angle, step⟩ before).read word
    let scaled := (start ⟨angle, k * step⟩ before).read word
    scaled.outcome = plain.outcome ∧ scaled.events = plain.events ∧
      scaled.walk.turtle.pose = plain.walk.turtle.pose.scaled k ∧
      scaled.walk.turtle.saved = plain.walk.turtle.saved.map (Pose.scaled k) ∧
      ∃ drawn, plain.walk.skeleton = before ++ drawn ∧
        scaled.walk.skeleton = before ++ drawn.scaled k := by
  intro plain scaled
  have home : (start ⟨angle, k * step⟩ before).turtle =
      (start ⟨angle, step⟩ before).turtle.scaled k :=
    congrArg (fun pose => Turtle.mk _ pose []) (Pose.home_scaled k).symm
  have depths : (start ⟨angle, k * step⟩ before).depth = (start ⟨angle, step⟩ before).depth :=
    rfl
  obtain ⟨outcome, events⟩ := report_eq_of_depth depths word
  have reading : scaled.walk = _ := read_walk (start ⟨angle, k * step⟩ before) word
  have reference : plain.walk = _ := read_walk (start ⟨angle, step⟩ before) word
  rw [home, Turtle.journey_scaled] at reading
  refine ⟨outcome, events, ?_, ?_, _, congrArg Walk.skeleton reference,
    congrArg Walk.skeleton reading⟩
  · rw [reading, reference]
    rfl
  · rw [reading, reference]
    rfl

end Walk
end PlantGrammar
