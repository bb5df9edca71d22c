import PlantGrammar.Proofs.Space.Turning
import PlantGrammar.Proofs.Turtle.Composition
import PlantGrammar.Proofs.Turtle.Orthonormal

/-!
# Turns about the axes of a pose

In exact arithmetic a turn about one axis of a pose keeps this axis and turns the two
others in their plane by its angle, whichever way the pose is oriented. So a turn is
undone by the same turn with the opposite angle, and turning back by turning back again.
After the latter the rotation is written the other way. No command can tell the two
apart, so the walk goes on as if neither turn had been there.
-/
namespace PlantGrammar

namespace Pose

/-- The first axis is turned by the angle towards the second one, and this with it. The
third one and the position are as before. -/
structure Turned [Trigonometry ℝ] (angle : ℝ) (a b c : Pose ℝ → Vec ℝ) (pose turned : Pose ℝ) :
    Prop where
  first : a turned =
    (a pose).scale (Trigonometry.cos angle) + (b pose).scale (Trigonometry.sin angle)
  second : b turned =
    (b pose).scale (Trigonometry.cos angle) - (a pose).scale (Trigonometry.sin angle)
  third : c turned = c pose
  position : turned.position = pose.position

theorem rotate_of_length_eq_one {pose : Pose ℝ} {turn : Rotation ℝ}
    (unit : pose.rotation.length = 1) (proper : turn.length = 1) :
    pose.rotate turn = ⟨pose.position, pose.rotation.compose turn⟩ := by
  rw [rotate, Rotation.normalized_of_length_eq_one]
  rw [Rotation.length_compose, unit, proper, one_mul]

theorem rotate_rotate {pose : Pose ℝ} {turn next : Rotation ℝ} (unit : pose.rotation.length = 1)
    (proper : turn.length = 1) (proper' : next.length = 1) :
    (pose.rotate turn).rotate next =
      ⟨pose.position, pose.rotation.compose (turn.compose next)⟩ := by
  rw [rotate_of_length_eq_one (length_rotate unit proper) proper',
    rotate_of_length_eq_one unit proper, Rotation.compose_assoc]

/-- The same place, and the same rotation or its opposite. -/
structure Alike (pose other : Pose ℝ) : Prop where
  position : pose.position = other.position
  rotation : pose.rotation = other.rotation ∨ pose.rotation = other.rotation.opposite

theorem Alike.refl (pose : Pose ℝ) : pose.Alike pose := ⟨rfl, .inl rfl⟩

theorem Alike.advance {pose other : Pose ℝ} (h : pose.Alike other) (distance : ℝ) :
    (pose.advance distance).Alike (other.advance distance) := by
  have heading : pose.heading = other.heading := by
    rcases h.rotation with same | opposite
    · rw [Pose.heading, same, Pose.heading]
    · rw [Pose.heading, opposite, Rotation.apply_opposite, Pose.heading]
  refine ⟨?_, h.rotation⟩
  rw [Pose.advance, heading, h.position, Pose.advance]

theorem Alike.rotate {pose other : Pose ℝ} (h : pose.Alike other) (turn : Rotation ℝ) :
    (pose.rotate turn).Alike (other.rotate turn) := by
  refine ⟨h.position, h.rotation.imp (fun same => ?_) fun opposite => ?_⟩
  · rw [Pose.rotate, same, Pose.rotate]
  · rw [Pose.rotate, opposite, Rotation.opposite_compose, Rotation.normalized_opposite, Pose.rotate]

/-- Two turns that together are the identity or its opposite change nothing. -/
theorem alike_rotate_rotate {pose : Pose ℝ} {turn next : Rotation ℝ}
    (unit : pose.rotation.length = 1) (proper : turn.length = 1) (proper' : next.length = 1)
    (cancel : turn.compose next = Rotation.identity ∨
      turn.compose next = Rotation.identity.opposite) :
    ((pose.rotate turn).rotate next).Alike pose := by
  rw [rotate_rotate unit proper proper']
  refine ⟨rfl, cancel.imp (fun same => ?_) fun opposite => ?_⟩
  · rw [same, Rotation.compose_identity]
  · rw [opposite, Rotation.compose_opposite, Rotation.compose_identity]

section

variable [Trigonometry ℝ] (lawful : Trigonometry.Lawful) {pose : Pose ℝ}
  (unit : pose.rotation.length = 1)

include lawful unit

/-- A rotation about the third of three axes that follow each other as those of space do. -/
theorem turned_rotate {i j k : Vec ℝ} (hk : k.dot k = 1) (hi : k.dot i = 0) (hj : k.dot j = 0)
    (hkij : k.cross i = j) (hkji : k.cross j = i.scale (-1)) (angle : ℝ) :
    Turned angle (·.rotation.apply i) (·.rotation.apply j) (·.rotation.apply k) pose
      (pose.rotate (Rotation.about k angle)) := by
  rw [rotate_of_length_eq_one unit (Rotation.length_about lawful.circle hk angle)]
  refine ⟨?_, ?_, ?_, rfl⟩
  · show Rotation.apply (Rotation.compose _ _) i = _
    rw [Rotation.apply_compose, Rotation.about_apply_of_square lawful hk hi, hkij,
      Rotation.apply_add, Rotation.apply_scale, Rotation.apply_scale]
  · show Rotation.apply (Rotation.compose _ _) j = _
    rw [Rotation.apply_compose, Rotation.about_apply_of_square lawful hk hj, hkji,
      Rotation.apply_add, Rotation.apply_scale, Rotation.apply_scale, Rotation.apply_scale]
    ext <;>
    · simp only [Vec.scale, Vec.add_x, Vec.add_y, Vec.add_z, Vec.sub_x, Vec.sub_y, Vec.sub_z]
      ring
  · show Rotation.apply (Rotation.compose _ _) k = _
    rw [Rotation.apply_compose, Rotation.about_apply_axis lawful hk]

theorem turned_about_up (angle : ℝ) :
    Turned angle heading left up pose (pose.rotate (Rotation.about Vec.unitZ angle)) := by
  refine turned_rotate lawful unit Vec.unitZ_dot_unitZ ?_ ?_ ?_ ?_ angle
  all_goals simp [Vec.dot, Vec.cross, Vec.scale, Vec.unitX, Vec.unitY, Vec.unitZ]

theorem turned_yaw (degrees : ℝ) :
    Turned (degrees * Trigonometry.degree) heading left up pose (pose.yaw degrees) :=
  turned_about_up lawful unit _

theorem turned_pitch (degrees : ℝ) :
    Turned (degrees * Trigonometry.degree) up heading left pose (pose.pitch degrees) := by
  refine turned_rotate lawful unit Vec.unitY_dot_unitY ?_ ?_ ?_ ?_ _
  all_goals simp [Vec.dot, Vec.cross, Vec.scale, Vec.unitX, Vec.unitY, Vec.unitZ]

theorem turned_roll (degrees : ℝ) :
    Turned (degrees * Trigonometry.degree) left up heading pose (pose.roll degrees) := by
  refine turned_rotate lawful unit Vec.unitX_dot_unitX ?_ ?_ ?_ ?_ _
  all_goals simp [Vec.dot, Vec.cross, Vec.scale, Vec.unitX, Vec.unitY, Vec.unitZ]

theorem turned_reverse : Turned Trigonometry.halfTurn heading left up pose pose.reverse := by
  rw [reverse, Rotation.reversal_eq_about]
  exact turned_about_up lawful unit _

/-- Turning back keeps the up direction and takes the two others to the other side. -/
theorem axes_reverse :
    pose.reverse.heading = pose.heading.scale (-1) ∧ pose.reverse.left = pose.left.scale (-1) ∧
      pose.reverse.up = pose.up := by
  obtain ⟨heading, left, up, _⟩ := turned_reverse lawful unit
  rw [lawful.cos_halfTurn, lawful.sin_halfTurn] at heading left
  refine ⟨heading.trans ?_, left.trans ?_, up⟩
  · ext <;> simp [Vec.scale]
  · ext <;> simp [Vec.scale]

theorem alike_turnAbout_neg {axis : Vec ℝ} (proper : axis.dot axis = 1) {degrees opposite : ℝ}
    (h : opposite = -degrees) :
    ((pose.rotate (turnAbout axis degrees)).rotate (turnAbout axis opposite)).Alike pose := by
  subst h
  refine alike_rotate_rotate unit (Rotation.length_about lawful.circle proper _)
    (Rotation.length_about lawful.circle proper _) (.inl ?_)
  rw [turnAbout, turnAbout, neg_mul]
  exact Rotation.about_compose_about_neg lawful proper _

theorem alike_reverse_reverse : pose.reverse.reverse.Alike pose :=
  alike_rotate_rotate unit (Rotation.length_reversal lawful.circle)
    (Rotation.length_reversal lawful.circle) (.inr (Rotation.reversal_compose_reversal lawful))

end

end Pose

namespace Command

/-- The second turn leads back from the first. -/
inductive Undone : Command ℝ → Command ℝ → Prop
  | yaw {factor back : ℝ} (h : back = -factor) : Undone (yaw factor) (yaw back)
  | pitch {factor back : ℝ} (h : back = -factor) : Undone (pitch factor) (pitch back)
  | roll {factor back : ℝ} (h : back = -factor) : Undone (roll factor) (roll back)
  | reverse : Undone reverse reverse

def isTurn : Command ℝ → Bool
  | yaw _ | pitch _ | roll _ | reverse => true
  | _ => false

theorem Undone.isTurn {command back : Command ℝ} (h : Undone command back) :
    command.isTurn = true ∧ back.isTurn = true := by
  cases h <;> exact ⟨rfl, rfl⟩

theorem drawn_of_isTurn {command : Command ℝ} (h : command.isTurn) (settings : Settings ℝ)
    (pose : Pose ℝ) : command.drawn settings pose = Skeleton.empty := by
  cases command <;> first | rfl | cases h

theorem undone_of_mem_pairs {pair : String}
    (h : pair ∈ ["+-", "-+", "&^", "^&", "\\/", "/\\", "||"]) :
    ∃ x y, pair.toList = [x, y] ∧ Undone (ofSymbol x) (ofSymbol y) := by
  have back : (1 : ℝ) = -(-1) := (neg_neg 1).symm
  simp only [List.mem_cons, List.not_mem_nil, or_false] at h
  rcases h with rfl | rfl | rfl | rfl | rfl | rfl | rfl
  · exact ⟨'+', '-', rfl, .yaw rfl⟩
  · exact ⟨'-', '+', rfl, .yaw back⟩
  · exact ⟨'&', '^', rfl, .pitch rfl⟩
  · exact ⟨'^', '&', rfl, .pitch back⟩
  · exact ⟨'\\', '/', rfl, .roll rfl⟩
  · exact ⟨'/', '\\', rfl, .roll back⟩
  · exact ⟨'|', '|', rfl, .reverse⟩

variable [Trigonometry ℝ]

theorem obey?_of_isTurn {command : Command ℝ} (h : command.isTurn) (turtle : Turtle ℝ) :
    turtle.obey? command = some (turtle.changePose (command.poseAfter turtle.settings)) := by
  cases command <;> first | rfl | cases h

theorem Undone.poseAfter {command back : Command ℝ} (h : Undone command back)
    (lawful : Trigonometry.Lawful) (settings : Settings ℝ) {pose : Pose ℝ}
    (unit : pose.rotation.length = 1) :
    (back.poseAfter settings (command.poseAfter settings pose)).Alike pose := by
  cases h with
  | yaw h =>
      rw [h]
      exact Pose.alike_turnAbout_neg lawful unit Vec.unitZ_dot_unitZ (mul_neg _ _)
  | pitch h =>
      rw [h]
      exact Pose.alike_turnAbout_neg lawful unit Vec.unitY_dot_unitY (mul_neg _ _)
  | roll h =>
      rw [h]
      exact Pose.alike_turnAbout_neg lawful unit Vec.unitX_dot_unitX (mul_neg _ _)
  | reverse => exact Pose.alike_reverse_reverse lawful unit

/-- Alike poses are led to alike poses, and the same is drawn at both. -/
theorem poseAfter_alike (settings : Settings ℝ) (command : Command ℝ) {pose other : Pose ℝ}
    (h : pose.Alike other) :
    (command.poseAfter settings pose).Alike (command.poseAfter settings other) ∧
      command.drawn settings pose = command.drawn settings other := by
  cases command with
  | draw =>
      have advanced := h.advance settings.step
      refine ⟨advanced, ?_⟩
      rw [drawn, drawn, h.position, advanced.position]
  | move => exact ⟨h.advance settings.step, rfl⟩
  | yaw factor => exact ⟨h.rotate _, rfl⟩
  | pitch factor => exact ⟨h.rotate _, rfl⟩
  | roll factor => exact ⟨h.rotate _, rfl⟩
  | reverse => exact ⟨h.rotate _, rfl⟩
  | save => exact ⟨h, rfl⟩
  | restore => exact ⟨h, rfl⟩
  | mark symbol =>
      refine ⟨h, ?_⟩
      rw [drawn, drawn, h.position]

end Command

namespace Turtle

/-- The same settings and poses that are alike, also those saved, in the same order. -/
structure Alike (turtle other : Turtle ℝ) : Prop where
  settings : turtle.settings = other.settings
  pose : turtle.pose.Alike other.pose
  saved : List.Forall₂ Pose.Alike turtle.saved other.saved

theorem Alike.changePose {turtle other : Turtle ℝ} (h : turtle.Alike other)
    {change : Settings ℝ → Pose ℝ → Pose ℝ}
    (along : ∀ settings {pose other : Pose ℝ}, pose.Alike other →
      (change settings pose).Alike (change settings other)) :
    (turtle.changePose (change turtle.settings)).Alike
      (other.changePose (change other.settings)) := by
  refine ⟨h.settings, ?_, h.saved⟩
  rw [pose_changePose, pose_changePose, h.settings]
  exact along _ h.pose

variable [Trigonometry ℝ]

/-- Alike turtles obey a command alike, or neither can. -/
theorem Alike.obey? {turtle other : Turtle ℝ} (h : turtle.Alike other) (command : Command ℝ) :
    (turtle.obey? command = none ∧ other.obey? command = none) ∨
      ∃ next next', turtle.obey? command = some next ∧ other.obey? command = some next' ∧
        next.Alike next' := by
  have moved := h.changePose fun settings {_ _} alike => (command.poseAfter_alike settings alike).1
  cases command with
  | save => exact .inr ⟨_, _, rfl, rfl, h.settings, h.pose, h.saved.cons h.pose⟩
  | restore =>
      obtain ⟨settings, pose, saved⟩ := turtle
      obtain ⟨settings', pose', saved'⟩ := other
      cases h.saved with
      | nil => exact .inl ⟨rfl, rfl⟩
      | cons last rest => exact .inr ⟨_, _, rfl, rfl, h.settings, last, rest⟩
  | _ => exact .inr ⟨_, _, rfl, rfl, moved⟩

theorem Alike.drawn {turtle other : Turtle ℝ} (h : turtle.Alike other) (command : Command ℝ) :
    command.drawn turtle.settings turtle.pose = command.drawn other.settings other.pose := by
  rw [h.settings]
  exact (command.poseAfter_alike _ h.pose).2

/-- Alike turtles draw the same along a word and come equally far. -/
theorem Alike.journey {turtle other : Turtle ℝ} (h : turtle.Alike other) (w : Word) :
    (turtle.journey w).turtle.Alike (other.journey w).turtle ∧
      (turtle.journey w).drawn = (other.journey w).drawn ∧
      (turtle.journey w).stop = (other.journey w).stop := by
  induction w generalizing turtle other with
  | nil => exact ⟨h, rfl, rfl⟩
  | cons symbol rest ih =>
      rcases h.obey? (Command.ofSymbol symbol) with
        ⟨none_there, none_here⟩ | ⟨_, _, there, here, next⟩
      · rw [journey_cons_of_none none_there, journey_cons_of_none none_here]
        exact ⟨h, rfl, rfl⟩
      · obtain ⟨alike, drawn, stop⟩ := ih next
        rw [journey_cons_of_some there, journey_cons_of_some here, h.drawn, drawn, stop]
        exact ⟨alike, rfl, rfl⟩

/-- Two symbols whose commands undo each other draw nothing and leave the turtle as it was,
but for the sign of its rotation. -/
theorem journey_undone (lawful : Trigonometry.Lawful) {x y : Symbol}
    (h : (Command.ofSymbol x).Undone (Command.ofSymbol y)) {turtle : Turtle ℝ}
    (unit : turtle.pose.rotation.length = 1) :
    ∃ next, turtle.journey [x, y] = ⟨next, Skeleton.empty, none⟩ ∧ next.Alike turtle := by
  obtain ⟨turn, back⟩ := h.isTurn
  refine ⟨(turtle.changePose ((Command.ofSymbol x).poseAfter turtle.settings)).changePose
    ((Command.ofSymbol y).poseAfter turtle.settings), ?_, rfl, h.poseAfter lawful _ unit,
    List.forall₂_same.2 fun pose _ => Pose.Alike.refl pose⟩
  rw [journey_cons_of_some (Command.obey?_of_isTurn turn turtle),
    journey_cons_of_some (Command.obey?_of_isTurn back _), journey_nil,
    Command.drawn_of_isTurn turn, Command.drawn_of_isTurn back]
  simp

end Turtle

namespace Walk

section

variable [Trigonometry ℝ] (lawful : Trigonometry.Lawful)

include lawful

theorem length_rotation_read {walk : Walk ℝ}
    (unit : ∀ pose ∈ walk.turtle.poses, pose.rotation.length = 1) (w : Word) :
    ∀ pose ∈ (walk.read w).walk.turtle.poses, pose.rotation.length = 1 := by
  have rigid := rigid_self fun pose hmem => Pose.orthonormal_iff.2 (unit pose hmem)
  have after : (walk.read w).walk.Rigid walk.turtle.settings walk.skeleton := by
    rw [read_walk_eq_follow]
    exact follow_induction (fun _ position _ _ h => h.obey lawful.circle position _) rigid 0
  exact fun pose hmem => (after.poses pose hmem).rotation

theorem read_undone {x y : Symbol} (h : (Command.ofSymbol x).Undone (Command.ofSymbol y))
    {walk : Walk ℝ} (unit : walk.turtle.pose.rotation.length = 1) (v : Word) :
    (walk.read ([x, y] ++ v)).walk.skeleton = (walk.read v).walk.skeleton ∧
      ((walk.read ([x, y] ++ v)).outcome = .ok () ↔ (walk.read v).outcome = .ok ()) := by
  obtain ⟨next, pair, alike⟩ := Turtle.journey_undone lawful h unit
  obtain ⟨_, drawn, stop⟩ := alike.journey v
  have whole : walk.turtle.journey ([x, y] ++ v) = _ :=
    Turtle.journey_append_of_none (by rw [pair]) v
  rw [read_walk, read_walk, read_ok_iff, read_ok_iff, whole, pair]
  simp [drawn, stop]

/-- Wherever two such symbols are put into a word, the walk draws the same. If it ends
before them, it reads neither of the words behind. -/
theorem read_undone_inside {x y : Symbol} (h : (Command.ofSymbol x).Undone (Command.ofSymbol y))
    {walk : Walk ℝ} (unit : ∀ pose ∈ walk.turtle.poses, pose.rotation.length = 1) (u v : Word) :
    (walk.read (u ++ [x, y] ++ v)).walk.skeleton = (walk.read (u ++ v)).walk.skeleton ∧
      ((walk.read (u ++ [x, y] ++ v)).outcome = .ok () ↔
        (walk.read (u ++ v)).outcome = .ok ()) := by
  rw [List.append_assoc]
  cases hstop : (walk.turtle.journey u).stop with
  | some k =>
      rw [read_append_of_some hstop, read_append_of_some hstop]
      exact ⟨rfl, Iff.rfl⟩
  | none =>
      rw [walk_read_append hstop, walk_read_append hstop, read_append_ok_iff hstop,
        read_append_ok_iff hstop]
      exact read_undone lawful h (length_rotation_read lawful unit u _ List.mem_cons_self) v

/-- A turn is about one of the axes that the pose has, by the angle in the sense that the
command says, and turning back takes the heading and the left to the other side. None of
them moves the turtle. So two turns that undo each other can be put into a word anywhere,
and nothing is drawn otherwise. -/
theorem turns_are_about_own_axes :
    (∀ pose : Pose ℝ, pose.rotation.length = 1 →
      (∀ degrees : ℝ,
        let angle := degrees * Trigonometry.degree
        Pose.Turned angle Pose.heading Pose.left Pose.up pose (pose.yaw degrees) ∧
          Pose.Turned angle Pose.up Pose.heading Pose.left pose (pose.pitch degrees) ∧
          Pose.Turned angle Pose.left Pose.up Pose.heading pose (pose.roll degrees)) ∧
      pose.reverse.heading = pose.heading.scale (-1) ∧
      pose.reverse.left = pose.left.scale (-1) ∧
      pose.reverse.up = pose.up ∧ pose.reverse.position = pose.position) ∧
    ∀ walk : Walk ℝ, (∀ pose ∈ walk.turtle.pose :: walk.turtle.saved, pose.rotation.length = 1) →
      ∀ u v : Word, ∀ pair ∈ ["+-", "-+", "&^", "^&", "\\/", "/\\", "||"],
        (walk.read (u ++ pair.toList ++ v)).walk.skeleton = (walk.read (u ++ v)).walk.skeleton ∧
          ((walk.read (u ++ pair.toList ++ v)).outcome = .ok () ↔
            (walk.read (u ++ v)).outcome = .ok ()) := by
  refine ⟨fun pose unit => ⟨fun degrees => ⟨?_, ?_, ?_⟩, ?_⟩, fun walk unit u v pair hpair => ?_⟩
  · exact Pose.turned_yaw lawful unit degrees
  · exact Pose.turned_pitch lawful unit degrees
  · exact Pose.turned_roll lawful unit degrees
  · obtain ⟨heading, left, up⟩ := Pose.axes_reverse lawful unit
    exact ⟨heading, left, up, rfl⟩
  · obtain ⟨x, y, symbols, undone⟩ := Command.undone_of_mem_pairs hpair
    rw [symbols]
    exact read_undone_inside lawful undone unit u v

end

/-- The pose has turned back before it pitches by a right angle. The turns are put in
after a return to a saved pose and before a bracket that has no partner. -/
theorem turns_are_about_own_axes_before_unmatched_bracket :
    letI : Trigonometry ℝ := Trigonometry.exact
    let pose : Pose ℝ := Pose.home.reverse
    let walk : Walk ℝ := start ⟨25, 2⟩ Skeleton.empty
    (pose.pitch 90).heading = ⟨0, 0, -1⟩ ∧
      (walk.read "F&[+F]||F]".toList).outcome = .error (.unmatchedBracket 9) ∧
      (walk.read "F&[+F]||F]".toList).walk.skeleton = (walk.read "F&[+F]F]".toList).walk.skeleton ∧
      (walk.read "F&[+F]F]".toList).walk.skeleton.segments.size = 3 := by
  let _ : Trigonometry ℝ := Trigonometry.exact
  intro pose walk
  obtain ⟨turns, pairs⟩ := turns_are_about_own_axes Trigonometry.lawful_exact
  have home : (Pose.home : Pose ℝ).rotation.length = 1 := Rotation.length_identity
  have unit : pose.rotation.length = 1 :=
    Pose.length_rotate home (Rotation.length_reversal Trigonometry.circle_exact)
  obtain ⟨_, _, _, up, _⟩ := turns _ home
  obtain ⟨pitched, _⟩ := turns pose unit
  obtain ⟨_, ⟨_, heading, _, _⟩, _⟩ := pitched 90
  obtain ⟨same, _⟩ := pairs walk (fun pose hmem => by rwa [List.mem_singleton.1 hmem])
    "F&[+F]".toList "F]".toList "||" (by simp)
  refine ⟨?_, rfl, same, rfl⟩
  have right : (90 : ℝ) * (Real.pi / 180) = Real.pi / 2 := by ring
  have cos : Trigonometry.cos (90 * Trigonometry.degree : ℝ) = 0 :=
    (congrArg Real.cos right).trans Real.cos_pi_div_two
  have sin : Trigonometry.sin (90 * Trigonometry.degree : ℝ) = 1 :=
    (congrArg Real.sin right).trans Real.sin_pi_div_two
  have above : pose.up = ⟨0, 0, 1⟩ := up.trans (Rotation.apply_identity _)
  rw [heading, above]
  ext <;> simp [Vec.scale, cos, sin]

end Walk
end PlantGrammar
