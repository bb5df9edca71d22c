import Mathlib.Data.List.Nodup
import PlantGrammar.Json.Value

/-!
# The JSON forms of a value

A value has more forms than the one that is written. Which ones they are is said here by the
structure of its type: a sequence is an array of forms of its items, and a record is an object
or an array of forms of its fields. The forms of the parts are free, so shapes mix at every
depth. If writing and reading keep to the forms of the parts, they keep to those of the whole.
For a sequence and for a record this is shown once, from what reading does with an array and
with the fields of an object. So a type is dealt with by naming its items or its fields.
-/
namespace PlantGrammar.Json

/-- What the JSON values of a type look like. Of sequences and records this is told by their
structure, without writing or reading them. Of a single number it is told by the rounding
that its reading does. -/
class Form (β : Type) where
  /-- The numbers that a value holds, at every depth. -/
  floats : β → List Float32
  /-- The JSON values that stand for a value. -/
  Encodes : β → Value → Prop
  /-- JSON values in which a record, at some depth, lacks a field or has items beyond its
  fields. -/
  Broken : Value → Prop

/-- Every form of a value is read as the value. Writing gives one of the forms if all
numbers are finite, and something that is not read otherwise. -/
class Faithful (β : Type) [Shape β] [Form β] : Prop where
  read?_of_encodes {x : β} {v : Value} : Form.Encodes x v → Shape.read? v = some x
  encodes_write {x : β} : (∀ a ∈ Form.floats x, a.isFinite = true) →
    Form.Encodes x (Shape.write x)
  read?_write {x : β} : (∃ a ∈ Form.floats x, a.isFinite = false) →
    (Shape.read? (Shape.write x) : Option β) = none
  read?_of_broken {v : Value} : Form.Broken β v → (Shape.read? v : Option β) = none

section Sequence

variable {β γ : Type}

/-- A sequence of items is an array of forms of these items. -/
@[reducible] def Form.sequence [Form β] (items : γ → List β) : Form γ where
  floats x := (items x).flatMap floats
  Encodes x v := ∃ forms, v = .array forms ∧ List.Forall₂ Encodes (items x) forms
  Broken v := ∃ forms, v = .array forms ∧ ∃ form ∈ forms, Broken β form

/-- A type is written and read by its items in order. -/
structure IsSequence [Shape β] [Shape γ] (items : γ → List β) : Prop where
  write_eq (x : γ) : Shape.write x = .array ((items x).map Shape.write)
  read?_eq_some_iff (v : Value) (x : γ) : Shape.read? v = some x ↔
    ∃ forms, v = .array forms ∧ List.Forall₂ (fun item form => Shape.read? form = some item)
      (items x) forms

theorem exists_of_mem_right {R : β → Value → Prop} {items : List β} {forms : List Value}
    (h : List.Forall₂ R items forms) {form : Value} (hform : form ∈ forms) :
    ∃ item ∈ items, R item form := by
  induction h with
  | nil => cases hform
  | cons first rest ih =>
      rcases List.mem_cons.1 hform with rfl | later
      · exact ⟨_, List.mem_cons_self, first⟩
      · obtain ⟨item, hitem, related⟩ := ih later
        exact ⟨item, List.mem_cons_of_mem _ hitem, related⟩

theorem IsSequence.faithful [Shape β] [Form β] [Faithful β] [Shape γ] {items : γ → List β}
    (h : IsSequence items) : @Faithful γ _ (Form.sequence items) := by
  let form := Form.sequence items
  constructor
  case read?_of_encodes =>
    rintro x _ ⟨forms, rfl, encoded⟩
    exact (h.read?_eq_some_iff _ x).2
      ⟨forms, rfl, encoded.imp fun _ _ => Faithful.read?_of_encodes⟩
  case encodes_write =>
    intro x finite
    refine ⟨_, h.write_eq x, ?_⟩
    rw [List.forall₂_map_right_iff, List.forall₂_same]
    intro item hitem
    exact Faithful.encodes_write fun a ha => finite a (List.mem_flatMap_of_mem hitem ha)
  case read?_write =>
    rintro x ⟨a, ha, infinite⟩
    obtain ⟨item, hitem, hfloat⟩ := List.mem_flatMap.1 ha
    refine Option.eq_none_iff_forall_ne_some.2 fun y read => ?_
    rw [h.write_eq, h.read?_eq_some_iff] at read
    obtain ⟨_, same, readings⟩ := read
    cases same
    obtain ⟨_, -, reading⟩ := exists_of_mem_right readings (List.mem_map_of_mem hitem)
    rw [Faithful.read?_write ⟨a, hfloat, infinite⟩] at reading
    cases reading
  case read?_of_broken =>
    rintro _ ⟨forms, rfl, form, hform, broken⟩
    refine Option.eq_none_iff_forall_ne_some.2 fun y read => ?_
    obtain ⟨_, same, readings⟩ := (h.read?_eq_some_iff _ y).1 read
    cases same
    obtain ⟨_, -, reading⟩ := exists_of_mem_right readings hform
    rw [Faithful.read?_of_broken broken] at reading
    cases reading

end Sequence

/-- A name is in an object once, at whatever place, and with this value. -/
def GivenOnce (fields : List (String × Value)) (name : String) (form : Value) : Prop :=
  ∃ before after, fields = before ++ (name, form) :: after ∧
    ∀ entry ∈ before ++ after, entry.1 ≠ name

theorem GivenOnce.lookup {fields : List (String × Value)} {name : String} {form : Value}
    (h : GivenOnce fields name form) : fields.lookup name = some form := by
  obtain ⟨before, after, rfl, once⟩ := h
  refine List.lookup_eq_some_iff.2 ⟨before, after, rfl, fun entry hentry => ?_⟩
  exact bne_iff_ne.2 (once entry (List.mem_append_left _ hentry)).symm

/-- A field of a record of type `γ`, with the value that is understood where it is left out.
A field without such a value must not be left out. -/
structure Part (γ : Type) where
  name : String
  {Item : Type}
  [shape : Shape Item]
  [form : Form Item]
  get : γ → Item
  standard? : Option Item

namespace Part

variable {γ : Type}

attribute [instance] Part.shape Part.form

/-- An object has a form of the field, or it leaves the field out as it may. -/
def GivenIn (part : Part γ) (x : γ) (fields : List (String × Value)) : Prop :=
  (∃ form, GivenOnce fields part.name form ∧ Form.Encodes (part.get x) form) ∨
    (∀ entry ∈ fields, entry.1 ≠ part.name) ∧ part.standard? = some (part.get x)

/-- The value of the field in an object. -/
def read? (part : Part γ) (fields : List (String × Value)) : Option part.Item :=
  match part.standard? with
  | none => field? fields part.name
  | some standard => fieldOr fields part.name standard

theorem read?_of_lookup {part : Part γ} {fields : List (String × Value)} {form : Value}
    (h : fields.lookup part.name = some form) : part.read? fields = Shape.read? form := by
  unfold read? field? fieldOr
  rw [h]
  cases part.standard? <;> rfl

theorem read?_of_lookup_eq_none {part : Part γ} {fields : List (String × Value)}
    (h : fields.lookup part.name = none) : part.read? fields = part.standard? := by
  unfold read? field? fieldOr
  rw [h]
  cases part.standard? <;> rfl

theorem lookup_eq_none {part : Part γ} {fields : List (String × Value)}
    (h : ∀ entry ∈ fields, entry.1 ≠ part.name) : fields.lookup part.name = none := by
  rw [List.lookup_eq_none_iff]
  exact fun entry hentry => bne_iff_ne.2 (h entry hentry).symm

theorem GivenIn.read? {part : Part γ} [Faithful part.Item] {x : γ}
    {fields : List (String × Value)} (h : part.GivenIn x fields) :
    part.read? fields = some (part.get x) := by
  rcases h with ⟨form, once, encoded⟩ | ⟨absent, standard⟩
  · rw [read?_of_lookup once.lookup, Faithful.read?_of_encodes encoded]
  · rw [read?_of_lookup_eq_none (lookup_eq_none absent), standard]

end Part

section Record

variable {γ : Type} {parts : List (Part γ)}

/-- A record is an object that has its fields in any order among other names, or an array of
its fields in their order, of which the last ones may be left out as they may be in an
object. -/
inductive EncodesRecord (parts : List (Part γ)) (x : γ) : Value → Prop
  | object {fields : List (String × Value)} (given : ∀ part ∈ parts, part.GivenIn x fields) :
      EncodesRecord parts x (.object fields)
  | array {items : List Value} (fits : items.length ≤ parts.length)
      (first : ∀ (i : ℕ) part item, parts[i]? = some part → items[i]? = some item →
        Form.Encodes (part.get x) item)
      (others : ∀ (i : ℕ) part, parts[i]? = some part → items.length ≤ i →
        part.standard? = some (part.get x)) : EncodesRecord parts x (.array items)

/-- An array of forms of all fields. -/
theorem EncodesRecord.of_forall₂ {x : γ} {items : List Value}
    (h : List.Forall₂ (fun part item => Form.Encodes (Part.get part x) item) parts items) :
    EncodesRecord parts x (.array items) := by
  obtain ⟨size, encoded⟩ := List.forall₂_iff_get.1 h
  have fits : items.length ≤ parts.length := Nat.le_of_eq size.symm
  refine .array fits (fun i part item hpart hitem => ?_) fun i part hpart beyond => ?_
  · obtain ⟨hi, rfl⟩ := List.getElem?_eq_some_iff.1 hpart
    obtain ⟨hi', rfl⟩ := List.getElem?_eq_some_iff.1 hitem
    exact encoded i hi hi'
  · rw [List.getElem?_eq_none (Nat.le_trans (Nat.le_of_eq size) beyond)] at hpart
    cases hpart

/-- A field that has to be there is left out, or an array has an item beyond the fields, or
the value of a field is broken itself. -/
inductive BrokenRecord (parts : List (Part γ)) : Value → Prop
  | missing {fields : List (String × Value)} {part : Part γ} (hpart : part ∈ parts)
      (absent : ∀ entry ∈ fields, entry.1 ≠ part.name) (needed : part.standard? = none) :
      BrokenRecord parts (.object fields)
  | short {items : List Value} {i : ℕ} {part : Part γ} (hpart : parts[i]? = some part)
      (beyond : items.length ≤ i) (needed : part.standard? = none) :
      BrokenRecord parts (.array items)
  | long {items : List Value} (beyond : parts.length < items.length) :
      BrokenRecord parts (.array items)
  | field {fields : List (String × Value)} {part : Part γ} {form : Value}
      (hpart : part ∈ parts) (found : fields.lookup part.name = some form)
      (broken : Form.Broken part.Item form) : BrokenRecord parts (.object fields)
  | item {items : List Value} {i : ℕ} {part : Part γ} {form : Value}
      (hpart : parts[i]? = some part) (hitem : items[i]? = some form)
      (broken : Form.Broken part.Item form) : BrokenRecord parts (.array items)

@[reducible] def Form.record (parts : List (Part γ)) : Form γ where
  floats x := parts.flatMap fun part => floats (part.get x)
  Encodes := EncodesRecord parts
  Broken := BrokenRecord parts

/-- A type is written as an object of its fields and read field by field, which are faithful
themselves. -/
structure IsRecord [Shape γ] (parts : List (Part γ)) : Prop where
  nodup : (parts.map Part.name).Nodup
  known : ∀ part ∈ parts, Faithful part.Item
  write_eq (x : γ) : Shape.write x =
    .object (parts.map fun part => (part.name, Shape.write (part.get x)))
  read?_eq_some_iff (v : Value) (x : γ) : Shape.read? v = some x ↔
    ∃ fields, v.fields? (parts.map Part.name) = some fields ∧
      ∀ part ∈ parts, part.read? fields = some (part.get x)

theorem fields?_array_eq_some_iff {names : List String} {items : List Value}
    {fields : List (String × Value)} : (Value.array items).fields? names = some fields ↔
      items.length ≤ names.length ∧ names.zip items = fields := by
  rw [Value.fields?, Option.ite_none_right_eq_some, Option.some.injEq]

theorem givenOnce_map (nodup : (parts.map Part.name).Nodup) (form : Part γ → Value)
    {part : Part γ} (h : part ∈ parts) :
    GivenOnce (parts.map fun part => (part.name, form part)) part.name (form part) := by
  obtain ⟨before, after, rfl⟩ := List.append_of_mem h
  rw [List.map_append, List.map_cons, List.nodup_middle, List.nodup_cons, ← List.map_append]
    at nodup
  refine ⟨_, _, by rw [List.map_append, List.map_cons], fun entry hentry => ?_⟩
  rw [← List.map_append] at hentry
  obtain ⟨other, hother, rfl⟩ := List.mem_map.1 hentry
  intro same
  exact nodup.1 (List.mem_map.2 ⟨other, hother, same⟩)

/-- An array is read as the object that gives its items the names in order. -/
theorem lookup_zip (nodup : (parts.map Part.name).Nodup) (items : List Value) {i : ℕ}
    {part : Part γ} (h : parts[i]? = some part) :
    ((parts.map Part.name).zip items).lookup part.name = items[i]? := by
  induction parts generalizing items i with
  | nil => cases h
  | cons first rest ih =>
      obtain ⟨fresh, others⟩ := List.nodup_cons.1 nodup
      cases items with
      | nil => rfl
      | cons item items =>
          rw [List.map_cons, List.zip_cons_cons, List.lookup_cons]
          cases i with
          | zero =>
              cases h
              rw [beq_self_eq_true, List.getElem?_cons_zero]
          | succ i =>
              have different : part.name ≠ first.name := fun same =>
                fresh (same ▸ List.mem_map_of_mem (List.mem_of_getElem? h))
              rw [beq_eq_false_iff_ne.2 different, List.getElem?_cons_succ]
              exact ih others items h

/-- In every form of a record its fields are found. -/
theorem EncodesRecord.fields?_eq_some (nodup : (parts.map Part.name).Nodup)
    (faithful : ∀ part ∈ parts, Faithful part.Item) {x : γ} {v : Value}
    (h : EncodesRecord parts x v) :
    ∃ fields, v.fields? (parts.map Part.name) = some fields ∧
      ∀ part ∈ parts, part.read? fields = some (part.get x) := by
  cases h with
  | object given =>
      refine ⟨_, rfl, fun part hpart => ?_⟩
      have := faithful part hpart
      exact (given part hpart).read?
  | @array items fits first others =>
      rw [← List.length_map Part.name] at fits
      refine ⟨_, if_pos fits, fun part hpart => ?_⟩
      obtain ⟨i, hi⟩ := List.mem_iff_getElem?.1 hpart
      have place := lookup_zip nodup items hi
      cases hitem : items[i]? with
      | some item =>
        have := faithful part hpart
        rw [Part.read?_of_lookup (place.trans hitem),
          Faithful.read?_of_encodes (first i part item hi hitem)]
      | none =>
        rw [Part.read?_of_lookup_eq_none (place.trans hitem),
          others i part hi (List.getElem?_eq_none_iff.1 hitem)]

/-- In no broken record all fields are found. -/
theorem BrokenRecord.exists_read?_eq_none (nodup : (parts.map Part.name).Nodup)
    (faithful : ∀ part ∈ parts, Faithful part.Item) {v : Value} (h : BrokenRecord parts v)
    {fields : List (String × Value)} (opened : v.fields? (parts.map Part.name) = some fields) :
    ∃ part ∈ parts, part.read? fields = none := by
  cases h with
  | missing hpart absent needed =>
      cases opened
      exact ⟨_, hpart, (Part.read?_of_lookup_eq_none (Part.lookup_eq_none absent)).trans needed⟩
  | short hpart beyond needed =>
      obtain ⟨-, rfl⟩ := fields?_array_eq_some_iff.1 opened
      have place := (lookup_zip nodup _ hpart).trans (List.getElem?_eq_none beyond)
      exact ⟨_, List.mem_of_getElem? hpart,
        (Part.read?_of_lookup_eq_none place).trans needed⟩
  | long beyond =>
      have fits := (fields?_array_eq_some_iff.1 opened).1
      rw [List.length_map] at fits
      exact absurd fits (Nat.not_le.2 beyond)
  | field hpart found broken =>
      cases opened
      have := faithful _ hpart
      exact ⟨_, hpart, (Part.read?_of_lookup found).trans (Faithful.read?_of_broken broken)⟩
  | item hi hitem broken =>
      obtain ⟨-, rfl⟩ := fields?_array_eq_some_iff.1 opened
      have hpart := List.mem_of_getElem? hi
      have := faithful _ hpart
      have place := (lookup_zip nodup _ hi).trans hitem
      exact ⟨_, hpart, (Part.read?_of_lookup place).trans (Faithful.read?_of_broken broken)⟩

theorem IsRecord.faithful [Shape γ] (h : IsRecord parts) :
    @Faithful γ _ (Form.record parts) := by
  let form := Form.record parts
  constructor
  case read?_of_encodes =>
    intro x v encoded
    exact (h.read?_eq_some_iff v x).2 (encoded.fields?_eq_some h.nodup h.known)
  case encodes_write =>
    intro x finite
    rw [h.write_eq]
    refine .object fun part hpart => .inl ⟨_, givenOnce_map h.nodup _ hpart, ?_⟩
    have := h.known part hpart
    exact Faithful.encodes_write fun a ha => finite a (List.mem_flatMap_of_mem hpart ha)
  case read?_write =>
    rintro x ⟨a, ha, infinite⟩
    obtain ⟨part, hpart, hfloat⟩ := List.mem_flatMap.1 ha
    have := h.known part hpart
    refine Option.eq_none_iff_forall_ne_some.2 fun y read => ?_
    rw [h.write_eq, h.read?_eq_some_iff] at read
    obtain ⟨_, opened, readings⟩ := read
    cases opened
    have reading := readings part hpart
    rw [Part.read?_of_lookup (givenOnce_map h.nodup _ hpart).lookup,
      Faithful.read?_write ⟨a, hfloat, infinite⟩] at reading
    cases reading
  case read?_of_broken =>
    intro v broken
    refine Option.eq_none_iff_forall_ne_some.2 fun y read => ?_
    obtain ⟨fields, opened, readings⟩ := (h.read?_eq_some_iff v y).1 read
    obtain ⟨part, hpart, unread⟩ := broken.exists_read?_eq_none h.nodup h.known opened
    rw [readings part hpart] at unread
    cases unread

end Record

end PlantGrammar.Json
