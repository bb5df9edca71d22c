import PlantGrammar.Json.Shape
import PlantGrammar.Proofs.Json.Forms
import PlantGrammar.Proofs.Json.Number

/-!
# Settings, poses and skeletons in all their forms

Vectors, rotations and lists are sequences, and the other types are records. A number is
finite, and the numbers that are rounded to it are its forms; among these is every one that
is equal to it, so that the exact decimal that is written is a form. A number that is not
finite is written as null, which no number is read from. All else follows part by part.
-/
namespace PlantGrammar.Json

/-- A finite number has the forms that are rounded to it. -/
instance : Form Float32 where
  floats x := [x]
  Encodes x v := x.isFinite = true ∧ ∃ n : Number, v = .number n ∧ n.toFloat32 = x
  Broken _ := False

theorem encodes_of_denotes {n : Number} {x : Float32} (h : n.Denotes x) :
    Form.Encodes x (.number n) :=
  ⟨h.isFinite, n, rfl, Number.toFloat32_of_denotes h⟩

instance : Faithful Float32 where
  read?_of_encodes := by
    rintro x _ ⟨finite, n, rfl, rfl⟩
    exact Number.toFloat32?_of_isFinite finite
  encodes_write := by
    intro x finite
    have proper := finite x List.mem_cons_self
    rw [← Number.isSome_ofFloat32?] at proper
    obtain ⟨n, hn⟩ := Option.isSome_iff_exists.1 proper
    have written : Shape.write x = .number n := by simp only [Shape.write, hn]
    rw [written]
    exact encodes_of_denotes (Number.denotes_of_ofFloat32? hn)
  read?_write := by
    rintro x ⟨a, ha, infinite⟩
    obtain rfl := List.mem_singleton.1 ha
    rw [← Number.isSome_ofFloat32?, Option.isSome_eq_false_iff, Option.isNone_iff_eq_none]
      at infinite
    simp only [Shape.write, Shape.read?, infinite]
  read?_of_broken := False.elim

instance : Form Symbol where
  floats _ := []
  Encodes symbol v := ∃ text : String, v = .string text ∧ text.toList = [symbol]
  Broken _ := False

instance : Faithful Symbol where
  read?_of_encodes := by
    rintro symbol _ ⟨text, rfl, single⟩
    simp only [Shape.read?, single]
  encodes_write := fun {symbol} _ => ⟨_, rfl, String.toList_singleton symbol⟩
  read?_write := by
    rintro _ ⟨_, ha, _⟩
    cases ha
  read?_of_broken := False.elim

theorem mapM_eq_some_iff {β : Type} {read : Value → Option β} {forms : List Value}
    {items : List β} : forms.mapM read = some items ↔
      List.Forall₂ (fun item form => read form = some item) items forms := by
  induction forms generalizing items with
  | nil => cases items <;> simp
  | cons form forms ih => cases items <;> simp [Option.bind_eq_some_iff, ih]

/-- A type is written and read by its items if each value is made of its own items alone. -/
theorem isSequence_ofItems {β γ : Type} [Shape β] {items : γ → List β}
    {make? : List β → Option γ} (made : ∀ list x, make? list = some x ↔ list = items x) :
    @IsSequence β γ _ (Shape.ofItems items make?) items := by
  let shape := Shape.ofItems items make?
  refine ⟨fun _ => rfl, fun v x => ?_⟩
  have opened : Shape.read? v = v.items?.bind make? := rfl
  rw [opened, Option.bind_eq_some_iff]
  simp only [made, exists_eq_right]
  cases v with
  | array forms =>
      simp only [Value.items?, mapM_eq_some_iff, Value.array.injEq, exists_eq_left']
  | _ => exact iff_of_false nofun nofun

instance : Form (Vec Float32) := .sequence Vec.coordinates

instance : Faithful (Vec Float32) := (isSequence_ofItems Vec.ofCoordinates?_eq_some_iff).faithful

instance : Form (Rotation Float32) := .sequence Rotation.coordinates

instance : Faithful (Rotation Float32) :=
  (isSequence_ofItems Rotation.ofCoordinates?_eq_some_iff).faithful

instance {β : Type} [Form β] : Form (Array β) := .sequence Array.toList

instance {β : Type} [Shape β] [Form β] [Faithful β] : Faithful (Array β) :=
  (isSequence_ofItems fun _ _ => Option.some_inj.trans List.toArray_eq_iff).faithful

/-- A type with two fields that is written and read field by field. -/
theorem isRecord_of_two {γ : Type} [Shape γ] {first second : Part γ}
    [Faithful first.Item] [Faithful second.Item] (make : first.Item → second.Item → γ)
    (names : first.name ≠ second.name)
    (make_eq_iff : ∀ a b x, make a b = x ↔ a = first.get x ∧ b = second.get x)
    (write_eq : ∀ x : γ, Shape.write x =
      .object [(first.name, Shape.write (first.get x)), (second.name, Shape.write (second.get x))])
    (read?_eq : ∀ v : Value, Shape.read? v =
      (v.fields? [first.name, second.name]).bind fun fields =>
        (first.read? fields).bind fun a => (second.read? fields).bind fun b => some (make a b)) :
    IsRecord [first, second] where
  nodup := by
    rw [List.map_cons, List.map_singleton, List.nodup_cons, List.mem_singleton]
    exact ⟨names, List.nodup_singleton _⟩
  known := List.forall_mem_cons.2 ⟨inferInstance, List.forall_mem_singleton.2 inferInstance⟩
  write_eq := write_eq
  read?_eq_some_iff v x := by
    simp only [read?_eq, Option.bind_eq_some_iff, Option.some.injEq, make_eq_iff,
      List.forall_mem_cons, List.map_cons, List.map_nil]
    refine exists_congr fun fields => and_congr_right fun _ => ?_
    constructor
    · rintro ⟨_, ha, _, hb, rfl, rfl⟩
      exact ⟨ha, hb, nofun⟩
    · rintro ⟨ha, hb, -⟩
      exact ⟨_, ha, _, hb, rfl, rfl⟩

def Settings.parts : List (Part (Settings Float32)) :=
  [⟨"default_angle", Settings.angle, some 45⟩, ⟨"default_step", Settings.step, some 1⟩]

def Pose.parts : List (Part (Pose Float32)) :=
  [⟨"position", Pose.position, none⟩, ⟨"rotation", Pose.rotation, none⟩]

def Segment.parts : List (Part (Segment Float32)) :=
  [⟨"start", Segment.start, none⟩, ⟨"end", Segment.finish, none⟩]

def Frame.parts : List (Part (Frame Float32)) :=
  [⟨"left", Frame.left, none⟩, ⟨"up", Frame.up, none⟩, ⟨"forward", Frame.forward, none⟩]

def Marker.parts : List (Part (Marker Float32)) :=
  [⟨"position", Marker.position, none⟩, ⟨"symbol", Marker.symbol, none⟩]

theorem isRecord_settings : IsRecord Settings.parts :=
  isRecord_of_two Settings.mk (by decide) (fun _ _ _ => Settings.mk.injEq .. ▸ Iff.rfl)
    (fun _ => rfl) (fun _ => rfl)

theorem isRecord_pose : IsRecord Pose.parts :=
  isRecord_of_two Pose.mk (by decide) (fun _ _ _ => Pose.mk.injEq .. ▸ Iff.rfl)
    (fun _ => rfl) (fun _ => rfl)

theorem isRecord_segment : IsRecord Segment.parts :=
  isRecord_of_two Segment.mk (by decide) (fun _ _ _ => Segment.mk.injEq .. ▸ Iff.rfl)
    (fun _ => rfl) (fun _ => rfl)

theorem isRecord_marker : IsRecord Marker.parts :=
  isRecord_of_two Marker.mk (by decide) (fun _ _ _ => Marker.mk.injEq .. ▸ Iff.rfl)
    (fun _ => rfl) (fun _ => rfl)

theorem isRecord_frame : IsRecord Frame.parts where
  nodup := by decide
  known := by
    simp only [Frame.parts, List.forall_mem_cons]
    exact ⟨inferInstance, inferInstance, inferInstance, nofun⟩
  write_eq _ := rfl
  read?_eq_some_iff v frame := by
    simp only [Shape.read?, Frame.parts, Option.pure_def, Option.bind_eq_bind,
      Option.bind_eq_some_iff, Option.some.injEq, List.forall_mem_cons, List.map_cons, List.map_nil]
    refine exists_congr fun fields => and_congr_right fun _ => ?_
    constructor
    · rintro ⟨_, hleft, _, hup, _, hforward, rfl⟩
      exact ⟨hleft, hup, hforward, nofun⟩
    · rintro ⟨hleft, hup, hforward, -⟩
      exact ⟨_, hleft, _, hup, _, hforward, rfl⟩

instance : Form (Settings Float32) := .record Settings.parts

instance : Faithful (Settings Float32) := isRecord_settings.faithful

instance : Form (Pose Float32) := .record Pose.parts

instance : Faithful (Pose Float32) := isRecord_pose.faithful

instance : Form (Segment Float32) := .record Segment.parts

instance : Faithful (Segment Float32) := isRecord_segment.faithful

instance : Form (Frame Float32) := .record Frame.parts

instance : Faithful (Frame Float32) := isRecord_frame.faithful

instance : Form (Marker Float32) := .record Marker.parts

instance : Faithful (Marker Float32) := isRecord_marker.faithful

def Skeleton.parts : List (Part (Skeleton Float32)) :=
  [⟨"branches", Skeleton.segments, none⟩, ⟨"geometry", Skeleton.markers, none⟩]

theorem isRecord_skeleton : IsRecord Skeleton.parts :=
  isRecord_of_two Skeleton.mk (by decide) (fun _ _ _ => Skeleton.mk.injEq .. ▸ Iff.rfl)
    (fun _ => rfl) (fun _ => rfl)

instance : Form (Skeleton Float32) := .record Skeleton.parts

instance : Faithful (Skeleton Float32) := isRecord_skeleton.faithful

/-- A value has many forms, as each record in it, at every depth, may be an object with its
fields in any order and among other names, or an array of its fields in order; the numbers in
it may be any that are equal to those of the value. All of these are read as the value, and
the form that is written is one of them unless some number is not finite, in which case it is
not read. Fields are understood in settings only; any other record that lacks a field, and an
array with too many items, at whatever depth it stands, is not read. -/
theorem forms_are_read_back :
    (∀ (n : Number) (x : Float32), n.Denotes x → Form.Encodes x (.number n)) ∧
      Faithful (Settings Float32) ∧ Faithful (Pose Float32) ∧ Faithful (Segment Float32) ∧
      Faithful (Frame Float32) ∧ Faithful (Marker Float32) ∧ Faithful (Skeleton Float32) :=
  ⟨fun _ _ => encodes_of_denotes, isRecord_settings.faithful, isRecord_pose.faithful,
    isRecord_segment.faithful, isRecord_frame.faithful, isRecord_marker.faithful,
    isRecord_skeleton.faithful⟩

/-- An array around an object with a name that is not known, and around another array. -/
theorem forms_are_read_back_through_mixed_shapes :
    let number := fun n : Int => Value.number (.whole n)
    let form : Value := .array [
      .array [.object [("end", .array [.number (.decimal false 1 (-1)), number 0, number 2]),
        ("color", .null), ("start", .array [number 0, number 0, .number (.decimal true 0 0)])]],
      .array [.array [.array [number (-3), number 0, number 2], .string "L"]]]
    let drawn : Skeleton Float32 := ⟨#[⟨⟨0, 0, -0⟩, ⟨0.1, 0, 2⟩⟩], #[⟨⟨-3, 0, 2⟩, 'L'⟩]⟩
    Form.Encodes drawn form ∧ Shape.read? form = some drawn := by
  intro number form drawn
  have point : ∀ (x y z : Number) (v : Vec Float32),
      (∀ a ∈ v.coordinates, a.isFinite = true) → [x, y, z].map Number.toFloat32 = v.coordinates →
      Form.Encodes v (.array [.number x, .number y, .number z]) := by
    intro x y z v finite same
    rw [← same] at finite
    simp only [List.map_cons, List.forall_mem_cons] at finite
    obtain ⟨hx, hy, hz, -⟩ := finite
    have coordinates : List.Forall₂ Form.Encodes ([x, y, z].map Number.toFloat32)
        [.number x, .number y, .number z] :=
      .cons ⟨hx, x, rfl, rfl⟩ (.cons ⟨hy, y, rfl, rfl⟩ (.cons ⟨hz, z, rfl, rfl⟩ .nil))
    exact ⟨_, rfl, same ▸ coordinates⟩
  have encoded : Form.Encodes drawn form := by
    refine .of_forall₂ (.cons ⟨_, rfl, .cons (.object ?_) .nil⟩
      (.cons ⟨_, rfl, .cons (.of_forall₂ (.cons ?_ (.cons ?_ .nil))) .nil⟩ .nil))
    · rintro _ (_ | ⟨_, _ | ⟨_, ⟨⟩⟩⟩)
      · refine .inl ⟨_, ⟨[_, _], [], rfl, by decide⟩, point _ _ _ _ ?_ ?_⟩ <;> decide +kernel
      · refine .inl ⟨_, ⟨[], [_, _], rfl, by decide⟩, point _ _ _ _ ?_ ?_⟩ <;> decide +kernel
    · exact point _ _ _ _ (by decide +kernel) (by decide +kernel)
    · exact ⟨_, rfl, by decide⟩
  exact ⟨encoded, forms_are_read_back.2.2.2.2.2.2.read?_of_encodes encoded⟩

end PlantGrammar.Json
