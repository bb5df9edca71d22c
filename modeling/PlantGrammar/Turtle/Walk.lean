import PlantGrammar.Report
import PlantGrammar.Skeleton.Extent
import PlantGrammar.Turtle.Basic

/-!
# Walks

A walk is a turtle together with the skeleton that it draws into. It obeys the
commands of a word in order. A bracket without a saved pose ends it, and what
was drawn before that bracket stays.
-/
namespace PlantGrammar

@[ext] structure Walk (α : Type) where
  turtle : Turtle α
  skeleton : Skeleton α
  deriving DecidableEq, Repr

/-- A walk after a word, with how it ended and what it reports. -/
structure Reading (α : Type) where
  walk : Walk α
  outcome : Except Fault Unit
  events : List Event

namespace Walk

variable {α : Type}

/-- Depth of the brackets that are open. -/
def depth (walk : Walk α) : Nat := walk.turtle.depth

def changePose (change : Pose α → Pose α) (walk : Walk α) : Walk α :=
  { walk with turtle := walk.turtle.changePose change }

variable [Scalar α]

/-- A fresh turtle that draws into a skeleton. -/
def start (settings : Settings α) (skeleton : Skeleton α) : Walk α :=
  ⟨Turtle.start settings, skeleton⟩

def move (walk : Walk α) : Walk α :=
  walk.changePose (Pose.advance walk.turtle.settings.step)

/-- The segment goes from the place before the step to the place after it. -/
def draw (walk : Walk α) : Walk α :=
  let start := walk.turtle.pose.position
  let moved := walk.move
  let segment := ⟨start, moved.turtle.pose.position⟩
  { moved with skeleton := moved.skeleton.addSegment segment }

def mark (symbol : Symbol) (walk : Walk α) : Walk α :=
  { walk with skeleton := walk.skeleton.addMarker ⟨walk.turtle.pose.position, symbol⟩ }

variable [Trigonometry α]

/-- Obey one command, which stands at this position of a word. A walk that meets
a fault stays as it was. -/
def obey (walk : Walk α) (position : Nat) : Command α → Walk α × Except Fault Unit
  | .draw => (walk.draw, .ok ())
  | .move => (walk.move, .ok ())
  | .yaw factor => (walk.changePose (Pose.yaw (walk.turtle.settings.angle * factor)), .ok ())
  | .pitch factor => (walk.changePose (Pose.pitch (walk.turtle.settings.angle * factor)), .ok ())
  | .roll factor => (walk.changePose (Pose.roll (walk.turtle.settings.angle * factor)), .ok ())
  | .reverse => (walk.changePose Pose.reverse, .ok ())
  | .save => ({ walk with turtle := walk.turtle.save }, .ok ())
  | .restore =>
      match walk.turtle.restore position with
      | .ok turtle => ({ walk with turtle }, .ok ())
      | .error fault => (walk, .error fault)
  | .mark symbol => (walk.mark symbol, .ok ())

/-- Obey the symbols of a word, the first of which stands at this position. -/
def follow (walk : Walk α) (position : Nat) : Word → Walk α × Except Fault Unit
  | [] => (walk, .ok ())
  | symbol :: rest =>
      match walk.obey position (Command.ofSymbol symbol) with
      | (walk, .ok ()) => walk.follow (position + 1) rest
      | (walk, .error fault) => (walk, .error fault)

/-- Read a whole word. A walk that comes to its end reports what it has added. -/
def read (walk : Walk α) (word : Word) : Reading α :=
  match walk.follow 0 word with
  | (last, .ok ()) =>
      let segments := last.skeleton.segments.size - walk.skeleton.segments.size
      let markers := last.skeleton.markers.size - walk.skeleton.markers.size
      ⟨last, .ok (), [.walked word.length segments markers last.depth]⟩
  | (last, .error fault) => ⟨last, .error fault, []⟩

@[simp] theorem follow_nil (walk : Walk α) (position : Nat) :
    walk.follow position [] = (walk, .ok ()) := rfl

theorem follow_cons (walk : Walk α) (position : Nat) (symbol : Symbol) (rest : Word) :
    walk.follow position (symbol :: rest) =
      match walk.obey position (Command.ofSymbol symbol) with
      | (walk, .ok ()) => walk.follow (position + 1) rest
      | (walk, .error fault) => (walk, .error fault) := rfl

end Walk
end PlantGrammar
