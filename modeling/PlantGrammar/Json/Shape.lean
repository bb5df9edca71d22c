import PlantGrammar.Json.Value
import PlantGrammar.Preset
import PlantGrammar.Skeleton.Extent
import PlantGrammar.Turtle.Basic

/-!
# JSON forms of settings, poses and skeletons

A record is written as an object. It is read from an object, in which other
names are passed over, or from an array of its fields in order. Only settings
may leave fields out. A vector is the array of its coordinates, as a list is the
array of its items.
-/
namespace PlantGrammar.Json

/-- A number that is not finite is written as null, which is not read back. -/
instance : Shape Float32 where
  write x :=
    match Number.ofFloat32? x with
    | some value => .number value
    | none => .null
  read?
    | .number value => value.toFloat32?
    | _ => none

instance : Shape Symbol where
  write symbol := .string (String.singleton symbol)
  read?
    | .string text =>
      match text.toList with
      | [symbol] => some symbol
      | _ => none
    | _ => none

instance : Shape (Vec Float32) := .ofItems Vec.coordinates Vec.ofCoordinates?

instance : Shape (Rotation Float32) := .ofItems Rotation.coordinates Rotation.ofCoordinates?

instance {β : Type} [Shape β] : Shape (Array β) :=
  .ofItems Array.toList fun items => some items.toArray

instance : Shape (Settings Float32) where
  write s := .object [("default_angle", Shape.write s.angle), ("default_step", Shape.write s.step)]
  read? value := do
    let fields ← value.fields? ["default_angle", "default_step"]
    let standard : Settings Float32 := Settings.standard
    return ⟨← fieldOr fields "default_angle" standard.angle,
      ← fieldOr fields "default_step" standard.step⟩

instance : Shape (Pose Float32) where
  write pose :=
    .object [("position", Shape.write pose.position), ("rotation", Shape.write pose.rotation)]
  read? value := do
    let fields ← value.fields? ["position", "rotation"]
    return ⟨← field? fields "position", ← field? fields "rotation"⟩

instance : Shape (Segment Float32) where
  write segment :=
    .object [("start", Shape.write segment.start), ("end", Shape.write segment.finish)]
  read? value := do
    let fields ← value.fields? ["start", "end"]
    return ⟨← field? fields "start", ← field? fields "end"⟩

instance : Shape (Frame Float32) where
  write frame :=
    .object [("left", Shape.write frame.left), ("up", Shape.write frame.up),
      ("forward", Shape.write frame.forward)]
  read? value := do
    let fields ← value.fields? ["left", "up", "forward"]
    return ⟨← field? fields "left", ← field? fields "up", ← field? fields "forward"⟩

instance : Shape (Marker Float32) where
  write marker :=
    .object [("position", Shape.write marker.position), ("symbol", Shape.write marker.symbol)]
  read? value := do
    let fields ← value.fields? ["position", "symbol"]
    return ⟨← field? fields "position", ← field? fields "symbol"⟩

instance : Shape (Skeleton Float32) where
  write s :=
    .object [("branches", Shape.write s.segments), ("geometry", Shape.write s.markers)]
  read? value := do
    let fields ← value.fields? ["branches", "geometry"]
    return ⟨← field? fields "branches", ← field? fields "geometry"⟩

/-- A built-in grammar is its title, or an object with that one name and null. -/
instance : Shape Preset where
  write preset := .string preset.title
  read?
    | .string text => Preset.ofTitle? text
    | .object [(text, .null)] => Preset.ofTitle? text
    | _ => none

end PlantGrammar.Json
