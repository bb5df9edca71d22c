import PlantGrammar.Skeleton.Frame
import PlantGrammar.Word

/-!
# Skeletons and their extent

A skeleton is what a walk leaves behind: segments and markers, each kind in the
order in which it was drawn. Solid branches and leaves are put on it elsewhere.

The extent is the box with edges along the axes that encloses every end of a
segment and every marker. An empty skeleton has none.
-/
namespace PlantGrammar

/-- A symbol left at a point, for a leaf or a flower. -/
structure Marker (α : Type) where
  position : Vec α
  symbol : Symbol
  deriving DecidableEq, Repr

@[ext] structure Skeleton (α : Type) where
  segments : Array (Segment α)
  markers : Array (Marker α)
  deriving DecidableEq, Repr

namespace Skeleton

variable {α : Type}

def empty : Skeleton α := ⟨#[], #[]⟩

def isEmpty (s : Skeleton α) : Bool := s.segments.isEmpty && s.markers.isEmpty

def addSegment (s : Skeleton α) (segment : Segment α) : Skeleton α :=
  { s with segments := s.segments.push segment }

def addMarker (s : Skeleton α) (marker : Marker α) : Skeleton α :=
  { s with markers := s.markers.push marker }

/-- Every end of a segment, and after these every point with a marker. -/
def points (s : Skeleton α) : List (Vec α) :=
  s.segments.toList.flatMap (fun segment => [segment.start, segment.finish]) ++
    s.markers.toList.map Marker.position

@[simp] theorem segments_addSegment (s : Skeleton α) (segment : Segment α) :
    (s.addSegment segment).segments = s.segments.push segment := rfl

@[simp] theorem markers_addSegment (s : Skeleton α) (segment : Segment α) :
    (s.addSegment segment).markers = s.markers := rfl

@[simp] theorem segments_addMarker (s : Skeleton α) (marker : Marker α) :
    (s.addMarker marker).segments = s.segments := rfl

@[simp] theorem markers_addMarker (s : Skeleton α) (marker : Marker α) :
    (s.addMarker marker).markers = s.markers.push marker := rfl

end Skeleton

structure Extent (α : Type) where
  low : Vec α
  high : Vec α
  deriving DecidableEq, Repr

namespace Extent

variable {α : Type} [Scalar α]

def ofPoint (p : Vec α) : Extent α := ⟨p, p⟩

def enclose (box : Extent α) (p : Vec α) : Extent α :=
  ⟨box.low.least p, box.high.greatest p⟩

def ofPoints? : List (Vec α) → Option (Extent α)
  | [] => none
  | p :: rest => some (rest.foldl Extent.enclose (ofPoint p))

end Extent

def Skeleton.extent? {α : Type} [Scalar α] (s : Skeleton α) : Option (Extent α) :=
  Extent.ofPoints? s.points

end PlantGrammar
