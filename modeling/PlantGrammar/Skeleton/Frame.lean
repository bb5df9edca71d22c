import PlantGrammar.Space.Basic

/-!
# Segments and their frames

A segment is what a turtle draws on one step. A solid branch is turned into place
by a frame whose forward axis follows the segment. The left axis is taken against
the second axis of space. A segment that nearly follows that axis takes its up
axis against the third one instead.
-/
namespace PlantGrammar

structure Segment (α : Type) where
  start : Vec α
  finish : Vec α
  deriving DecidableEq, Repr

structure Frame (α : Type) where
  left : Vec α
  up : Vec α
  forward : Vec α
  deriving DecidableEq, Repr

namespace Segment

variable {α : Type} [Scalar α]

/-- From start to finish, at its own length. -/
def span (segment : Segment α) : Vec α := segment.finish - segment.start

def length (segment : Segment α) : α := segment.span.length

/-- The left axis and the up axis for a forward axis, before they are brought to
unit length. -/
def sideAxes (forward : Vec α) : Vec α × Vec α :=
  let left := Vec.unitY.cross forward
  if left.length < 1e-4 then
    let up := forward.cross Vec.unitZ
    (up.cross forward, up)
  else (left, forward.cross left)

def frame (segment : Segment α) : Frame α :=
  let forward := segment.span.direction
  let sides := sideAxes forward
  ⟨sides.1.direction, sides.2.direction, forward⟩

end Segment
end PlantGrammar
