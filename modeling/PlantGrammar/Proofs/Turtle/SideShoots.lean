import PlantGrammar.Proofs.Bracket.Shoot
import PlantGrammar.Proofs.Turtle.Underflow

/-!
# Drawing a shoot without saved poses

A turtle keeps the poses of open brackets on a stack. A shoot can be drawn with
no stack at all: a side shoot is drawn from the pose at which it stands, and the
rest goes on from that same pose. Both ways give the same drawing and the same
pose, whatever was saved before, so a side shoot is a part of the drawing that
can be taken out and that the turtle does not remember.
-/
namespace PlantGrammar

namespace Shoot

variable {α : Type} [Scalar α] [Trigonometry α]

/-- The pose at the tip of a shoot, and all that the shoot draws. -/
def draw (settings : Settings α) : Shoot → Pose α → Pose α × Skeleton α
  | tip, pose => (pose, Skeleton.empty)
  | grow symbol _ rest, pose =>
      let command := Command.ofSymbol symbol
      let later := rest.draw settings (command.poseAfter settings pose)
      (later.1, command.drawn settings pose ++ later.2)
  | fork side rest, pose =>
      let beside := side.draw settings pose
      let later := rest.draw settings pose
      (later.1, beside.2 ++ later.2)

end Shoot

namespace Turtle

variable {α : Type} [Scalar α] [Trigonometry α]

/-- A journey along a group adds a drawing and comes back, if the journey along
the word inside leaves the saved poses as they are. -/
theorem journey_group {turtle : Turtle α} {w : Word} {tip : Pose α} {drawn : Skeleton α}
    (inside : turtle.save.journey w = ⟨{ turtle.save with pose := tip }, drawn, none⟩) (v : Word) :
    turtle.journey ('[' :: (w ++ ']' :: v)) =
      ⟨(turtle.journey v).turtle, drawn ++ (turtle.journey v).drawn,
        (turtle.journey v).stop.map (· + (w.length + 2))⟩ := by
  have back : Turtle.obey? { turtle.save with pose := tip } (Command.ofSymbol ']') = some turtle :=
    rfl
  have silent_open : (Command.ofSymbol '[' : Command α).drawn turtle.settings turtle.pose =
      Skeleton.empty := rfl
  have silent_close : (Command.ofSymbol ']' : Command α).drawn turtle.settings tip =
      Skeleton.empty := rfl
  rw [journey_cons_of_some (obey?_open turtle), journey_append, inside, silent_open]
  simp only [journey_cons_of_some back]
  rw [show turtle.save.settings = turtle.settings from rfl, silent_close]
  simp only [Skeleton.empty_append, Option.map_map]
  congr 2
  funext i
  simp only [Function.comp_apply]
  omega

/-- The journey along a shoot moves the pose to its tip and leaves all else of the
turtle as it was. -/
theorem journey_word (turtle : Turtle α) (shoot : Shoot) :
    turtle.journey shoot.word =
      ⟨{ turtle with pose := (shoot.draw turtle.settings turtle.pose).1 },
        (shoot.draw turtle.settings turtle.pose).2, none⟩ := by
  induction shoot generalizing turtle with
  | tip => rfl
  | grow symbol plain rest ih =>
      rw [Shoot.word, journey_cons_of_some (obey?_plain plain.1 plain.2 turtle), ih]
      rfl
  | fork side rest ihs ihr =>
      rw [Shoot.word, journey_group (ihs turtle.save), ihr]
      rfl

/-- The trunk leads to the same tip. -/
theorem journey_trunk (turtle : Turtle α) (shoot : Shoot) :
    (turtle.journey shoot.trunk).turtle = (turtle.journey shoot.word).turtle ∧
      (turtle.journey shoot.trunk).stop = none := by
  induction shoot generalizing turtle with
  | tip => exact ⟨rfl, rfl⟩
  | grow symbol plain rest ih =>
      have step := obey?_plain plain.1 plain.2 turtle
      obtain ⟨same, goes⟩ := ih (turtle.changePose
        ((Command.ofSymbol symbol).poseAfter turtle.settings))
      rw [Shoot.trunk, Shoot.word, journey_cons_of_some step, journey_cons_of_some step]
      exact ⟨same, by rw [goes]; rfl⟩
  | fork side rest _ ihr =>
      obtain ⟨same, goes⟩ := ihr turtle
      rw [Shoot.trunk, Shoot.word, journey_group (journey_word turtle.save side)]
      exact ⟨same, goes⟩

/-- Taking a group out of a word takes its drawing out of the drawing. -/
theorem journey_without_group {turtle : Turtle α} {u v : Word} {side : Shoot}
    (goes : (turtle.journey (u ++ '[' :: (side.word ++ ']' :: v))).stop = none) :
    ∃ later : Skeleton α,
      (turtle.journey (u ++ '[' :: (side.word ++ ']' :: v))).drawn =
        (turtle.journey u).drawn ++
          (side.draw (turtle.journey u).turtle.settings (turtle.journey u).turtle.pose).2 ++ later ∧
      turtle.journey (u ++ v) =
        ⟨(turtle.journey (u ++ '[' :: (side.word ++ ']' :: v))).turtle,
          (turtle.journey u).drawn ++ later, none⟩ := by
  rw [journey_append] at goes
  rw [journey_append, journey_append]
  cases hu : (turtle.journey u).stop with
  | some k => simp [hu] at goes
  | none =>
      have group := journey_group (journey_word (turtle.journey u).turtle.save side) v
      simp only [hu, group, Option.map_map, Option.map_eq_none_iff] at goes
      simp only [group, goes, Option.map_none, Skeleton.append_assoc]
      exact ⟨((turtle.journey u).turtle.journey v).drawn, rfl, rfl⟩

end Turtle

namespace Walk

variable {α : Type} [Scalar α] [Trigonometry α]

/-- Reading the word of a shoot draws the shoot, from any walk. The saved poses
are left as they were and the pose is that of the trunk, and to take one group out
of the word takes one part out of the drawing and changes nothing else. -/
theorem read_shoot (walk : Walk α) (shoot : Shoot) :
    let drawing := shoot.draw walk.turtle.settings walk.turtle.pose
    (walk.read shoot.word).outcome = .ok () ∧
    (walk.read shoot.word).walk =
      ⟨{ walk.turtle with pose := drawing.1 }, walk.skeleton ++ drawing.2⟩ ∧
    (walk.read shoot.word).walk.turtle.saved = walk.turtle.saved ∧
    ((walk.read shoot.trunk).outcome = .ok () ∧
      (walk.read shoot.word).walk.turtle.pose = (walk.read shoot.trunk).walk.turtle.pose) ∧
    ∀ (u v : Word) (side : Shoot), shoot.word = u ++ '[' :: (side.word ++ ']' :: v) →
      let before := (walk.read u).walk
      let group := (side.draw walk.turtle.settings before.turtle.pose).2
      ∃ later : Skeleton α,
        (walk.read shoot.word).walk.skeleton = before.skeleton ++ group ++ later ∧
        (walk.read (u ++ v)).outcome = .ok () ∧
        (walk.read (u ++ v)).walk =
          ⟨(walk.read shoot.word).walk.turtle, before.skeleton ++ later⟩ := by
  intro drawing
  have journey := Turtle.journey_word walk.turtle shoot
  obtain ⟨same, goes⟩ := Turtle.journey_trunk walk.turtle shoot
  have hok : (walk.read shoot.word).outcome = .ok () :=
    (read_ok_iff walk shoot.word).2 (by rw [journey])
  have hwalk : (walk.read shoot.word).walk =
      ⟨{ walk.turtle with pose := drawing.1 }, walk.skeleton ++ drawing.2⟩ := by
    rw [read_walk, journey]
  refine ⟨hok, hwalk, by rw [hwalk], ⟨(read_ok_iff walk shoot.trunk).2 goes, ?_⟩, ?_⟩
  · rw [read_walk, read_walk, same]
  · intro u v side hword before group
    have complete : (walk.turtle.journey shoot.word).stop = none := by rw [journey]
    rw [hword] at complete ⊢
    obtain ⟨later, whole, without⟩ := Turtle.journey_without_group complete
    refine ⟨later, ?_, ?_, ?_⟩
    · simp only [group, before, read_walk, whole, Turtle.settings_journey, Skeleton.append_assoc]
    · rw [read_ok_iff, without]
    · simp only [before, read_walk, without, Skeleton.append_assoc]

/-- A group inside another one is taken out, and the outer group keeps the rest. -/
theorem read_shoot_without_inner_group :
    let walk : Walk Float32 := Walk.start Settings.standard Skeleton.empty
    let before := (walk.read "F[".toList).walk
    ∃ group later : Skeleton Float32,
      (walk.read "F[[-F]L]F".toList).walk.skeleton = before.skeleton ++ group ++ later ∧
      (walk.read "F[L]F".toList).walk =
        ⟨(walk.read "F[[-F]L]F".toList).walk.turtle, before.skeleton ++ later⟩ := by
  obtain ⟨shoot, hword⟩ := Shoot.balanced_iff_exists_shoot.1
    (by decide : Word.Balanced "F[[-F]L]F".toList)
  obtain ⟨side, hside⟩ := Shoot.balanced_iff_exists_shoot.1 (by decide : Word.Balanced "-F".toList)
  have split : shoot.word = "F[".toList ++ '[' :: (side.word ++ ']' :: "L]F".toList) := by
    rw [hword, hside]
    rfl
  obtain ⟨_, _, _, _, without⟩ :=
    read_shoot (Walk.start Settings.standard Skeleton.empty : Walk Float32) shoot
  obtain ⟨later, whole, _, rest⟩ := without "F[".toList "L]F".toList side split
  rw [hword] at whole rest
  exact ⟨_, later, whole, rest⟩

end Walk
end PlantGrammar
