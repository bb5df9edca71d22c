import PlantGrammar.Report
import PlantGrammar.Space.Basic

/-!
# Turtles and their commands

A pose is a place and an orientation. The orientation takes the first axis of
space to the heading, the second to the left and the third to the up direction.
A turn is about an axis of the pose itself, so its rotation is performed before
the one the pose has; the result is brought back to unit length each time.

A turtle has a pose, the poses that it saved with the latest first, and the
settings that its commands refer to. Each symbol of a word is one command. The
factor of a turn is multiplied by the angle in force, so it gives the sense of
the turn.
-/
namespace PlantGrammar

@[ext] structure Pose (α : Type) where
  position : Vec α
  rotation : Rotation α
  deriving DecidableEq, Repr

namespace Pose

variable {α : Type} [Scalar α]

/-- At the origin, heading along the first axis with the third axis up. -/
def home : Pose α := ⟨Vec.zero, Rotation.identity⟩

def heading (pose : Pose α) : Vec α := pose.rotation.apply Vec.unitX

def left (pose : Pose α) : Vec α := pose.rotation.apply Vec.unitY

def up (pose : Pose α) : Vec α := pose.rotation.apply Vec.unitZ

def advance (distance : α) (pose : Pose α) : Pose α :=
  { pose with position := pose.position + pose.heading.scale distance }

/-- Perform a rotation in the frame of the pose. -/
def rotate (turn : Rotation α) (pose : Pose α) : Pose α :=
  { pose with rotation := (pose.rotation.compose turn).normalized }

variable [Trigonometry α]

/-- The rotation about an axis by an angle in degrees. -/
def turnAbout (axis : Vec α) (degrees : α) : Rotation α :=
  Rotation.about axis (degrees * Trigonometry.degree)

/-- Turn about the up direction, the heading towards the left. -/
def yaw (degrees : α) (pose : Pose α) : Pose α := pose.rotate (turnAbout Vec.unitZ degrees)

/-- Turn about the left direction, the heading downwards. -/
def pitch (degrees : α) (pose : Pose α) : Pose α := pose.rotate (turnAbout Vec.unitY degrees)

/-- Turn about the heading, the up direction to the right. -/
def roll (degrees : α) (pose : Pose α) : Pose α := pose.rotate (turnAbout Vec.unitX degrees)

/-- Half a turn about the up direction. -/
def reverse (pose : Pose α) : Pose α := pose.rotate Rotation.reversal

end Pose

inductive Command (α : Type) where
  /-- Go forward and draw a segment. -/
  | draw
  /-- Go forward without drawing. -/
  | move
  | yaw (factor : α)
  | pitch (factor : α)
  | roll (factor : α)
  /-- Turn to the opposite heading. -/
  | reverse
  /-- Keep the pose for a later return. -/
  | save
  /-- Return to the pose kept last. -/
  | restore
  /-- Leave the symbol where the turtle stands. -/
  | mark (symbol : Symbol)
  deriving DecidableEq, Repr

/-- A symbol without a meaning of its own marks a place. -/
def Command.ofSymbol {α : Type} [Scalar α] : Symbol → Command α
  | 'F' => draw
  | 'f' => move
  | '+' => yaw 1
  | '-' => yaw (-1)
  | '&' => pitch 1
  | '^' => pitch (-1)
  | '\\' => roll 1
  | '/' => roll (-1)
  | '|' => reverse
  | '[' => save
  | ']' => restore
  | symbol => mark symbol

structure Settings (α : Type) where
  /-- The angle of a turn, in degrees. -/
  angle : α
  /-- The distance of a step. -/
  step : α
  deriving DecidableEq, Repr

/-- An eighth of a full turn and a step of one. -/
def Settings.standard {α : Type} [Scalar α] : Settings α := ⟨45.0, 1.0⟩

@[ext] structure Turtle (α : Type) where
  settings : Settings α
  pose : Pose α
  saved : List (Pose α)
  deriving DecidableEq, Repr

namespace Turtle

variable {α : Type}

/-- A turtle at home that has saved nothing. -/
def start [Scalar α] (settings : Settings α) : Turtle α := ⟨settings, Pose.home, []⟩

/-- Number of saved poses. -/
def depth (turtle : Turtle α) : Nat := turtle.saved.length

def changePose (change : Pose α → Pose α) (turtle : Turtle α) : Turtle α :=
  { turtle with pose := change turtle.pose }

def save (turtle : Turtle α) : Turtle α :=
  { turtle with saved := turtle.pose :: turtle.saved }

/-- Return to the pose saved last, which is then no longer kept. The position in
the word is for the fault that arises when there is none. -/
def restore (turtle : Turtle α) (position : Nat) : Except Fault (Turtle α) :=
  match turtle.saved with
  | [] => .error (.unmatchedBracket position)
  | pose :: rest => .ok { turtle with pose, saved := rest }

@[simp] theorem restore_save (turtle : Turtle α) (position : Nat) :
    turtle.save.restore position = .ok turtle := rfl

@[simp] theorem saved_changePose (turtle : Turtle α) (change : Pose α → Pose α) :
    (turtle.changePose change).saved = turtle.saved := rfl

@[simp] theorem pose_changePose (turtle : Turtle α) (change : Pose α → Pose α) :
    (turtle.changePose change).pose = change turtle.pose := rfl

@[simp] theorem settings_changePose (turtle : Turtle α) (change : Pose α → Pose α) :
    (turtle.changePose change).settings = turtle.settings := rfl

end Turtle
end PlantGrammar
