/-!
# Numbers, points and rotations

The geometry is written once, for any numbers with the operations of `Scalar`.
Single precision is what drawings are made with; each operation rounds, so the
order of operations in this module is part of their meaning.

A vector is a point or a direction. A rotation is written as a quaternion with
vector part `x y z` and real part `w`. Nothing keeps it at unit length but
`normalized`.
-/
namespace PlantGrammar

class Scalar (α : Type) extends
    Zero α, One α, Add α, Sub α, Mul α, Div α, Neg α, OfScientific α, LT α where
  sqrt : α → α
  isFinite : α → Bool
  decideLess : ∀ a b : α, Decidable (a < b)

instance Scalar.decidableLess {α : Type} [Scalar α] (a b : α) : Decidable (a < b) :=
  Scalar.decideLess a b

/-- Angles: sine and cosine of an angle in radians, half a turn, and one degree. -/
class Trigonometry (α : Type) where
  sin : α → α
  cos : α → α
  halfTurn : α
  degree : α

namespace Scalar

/-- The lesser of two, and the second where they do not compare. -/
def least {α : Type} [Scalar α] (a b : α) : α := if a < b then a else b

/-- The greater of two, and the second where they do not compare. -/
def greatest {α : Type} [Scalar α] (a b : α) : α := if b < a then a else b

end Scalar

instance : Scalar Float32 where
  zero := 0
  one := 1
  sqrt := Float32.sqrt
  isFinite := Float32.isFinite
  decideLess := inferInstance

/-- Half a turn and one degree are the nearest single-precision numbers to `π` and
`π / 180`. -/
instance : Trigonometry Float32 where
  sin := Float32.sin
  cos := Float32.cos
  halfTurn := Float32.ofBits 0x40490fdb
  degree := Float32.ofBits 0x3c8efa35

@[ext] structure Vec (α : Type) where
  x : α
  y : α
  z : α
  deriving DecidableEq, Repr

namespace Vec

variable {α : Type}

/-- The coordinates in order. -/
def coordinates (v : Vec α) : List α := [v.x, v.y, v.z]

/-- The vector with these coordinates, if they are as many as it has. -/
def ofCoordinates? : List α → Option (Vec α)
  | [x, y, z] => some ⟨x, y, z⟩
  | _ => none

theorem ofCoordinates?_eq_some_iff (list : List α) (v : Vec α) :
    ofCoordinates? list = some v ↔ list = v.coordinates := by
  constructor
  · intro h
    unfold ofCoordinates? at h
    split at h <;> cases h
    rfl
  · rintro rfl
    rfl

variable [Scalar α]

def zero : Vec α := ⟨0, 0, 0⟩

def unitX : Vec α := ⟨1, 0, 0⟩

def unitY : Vec α := ⟨0, 1, 0⟩

def unitZ : Vec α := ⟨0, 0, 1⟩

instance : Add (Vec α) := ⟨fun a b => ⟨a.x + b.x, a.y + b.y, a.z + b.z⟩⟩

instance : Sub (Vec α) := ⟨fun a b => ⟨a.x - b.x, a.y - b.y, a.z - b.z⟩⟩

def scale (v : Vec α) (k : α) : Vec α := ⟨v.x * k, v.y * k, v.z * k⟩

def dot (a b : Vec α) : α := a.x * b.x + a.y * b.y + a.z * b.z

def cross (a b : Vec α) : Vec α :=
  ⟨a.y * b.z - b.y * a.z, a.z * b.x - b.z * a.x, a.x * b.y - b.x * a.y⟩

def length (v : Vec α) : α := Scalar.sqrt (v.dot v)

/-- The direction of a vector, or zero for a vector that has none: one without
length, or one whose length or its inverse is no finite number. -/
def direction (v : Vec α) : Vec α :=
  let k := 1 / v.length
  if Scalar.isFinite k ∧ 0 < k then v.scale k else zero

def least (a b : Vec α) : Vec α :=
  ⟨Scalar.least a.x b.x, Scalar.least a.y b.y, Scalar.least a.z b.z⟩

def greatest (a b : Vec α) : Vec α :=
  ⟨Scalar.greatest a.x b.x, Scalar.greatest a.y b.y, Scalar.greatest a.z b.z⟩

@[simp] theorem add_x (a b : Vec α) : (a + b).x = a.x + b.x := rfl

@[simp] theorem add_y (a b : Vec α) : (a + b).y = a.y + b.y := rfl

@[simp] theorem add_z (a b : Vec α) : (a + b).z = a.z + b.z := rfl

@[simp] theorem sub_x (a b : Vec α) : (a - b).x = a.x - b.x := rfl

@[simp] theorem sub_y (a b : Vec α) : (a - b).y = a.y - b.y := rfl

@[simp] theorem sub_z (a b : Vec α) : (a - b).z = a.z - b.z := rfl

end Vec

@[ext] structure Rotation (α : Type) where
  x : α
  y : α
  z : α
  w : α
  deriving DecidableEq, Repr

namespace Rotation

variable {α : Type}

/-- The coordinates in order, the real part last. -/
def coordinates (q : Rotation α) : List α := [q.x, q.y, q.z, q.w]

/-- The rotation with these coordinates, if they are as many as it has. -/
def ofCoordinates? : List α → Option (Rotation α)
  | [x, y, z, w] => some ⟨x, y, z, w⟩
  | _ => none

theorem ofCoordinates?_eq_some_iff (list : List α) (q : Rotation α) :
    ofCoordinates? list = some q ↔ list = q.coordinates := by
  constructor
  · intro h
    unfold ofCoordinates? at h
    split at h <;> cases h
    rfl
  · rintro rfl
    rfl

variable [Scalar α]

def identity : Rotation α := ⟨0, 0, 0, 1⟩

/-- The rotation that performs `b` and then `a`, both about fixed axes. -/
def compose (a b : Rotation α) : Rotation α where
  x := (a.w * b.x + a.x * b.w) + (a.y * b.z - a.z * b.y)
  y := (a.w * b.y - a.x * b.z) + (a.y * b.w + a.z * b.x)
  z := (a.w * b.z + a.x * b.y) + (a.z * b.w - a.y * b.x)
  w := (a.w * b.w - a.x * b.x) + (-(a.y * b.y) - a.z * b.z)

def normalized (q : Rotation α) : Rotation α :=
  let length := Scalar.sqrt ((q.x * q.x + q.z * q.z) + (q.y * q.y + q.w * q.w))
  ⟨q.x / length, q.y / length, q.z / length, q.w / length⟩

def axisPart (q : Rotation α) : Vec α := ⟨q.x, q.y, q.z⟩

/-- Where a rotation takes a vector. -/
def apply (q : Rotation α) (v : Vec α) : Vec α :=
  let b := q.axisPart
  let k := q.w * q.w - b.dot b
  let d := v.dot b * 2.0
  let c := b.cross v
  let s := q.w * 2.0
  ⟨(v.x * k + b.x * d) + c.x * s, (v.y * k + b.y * d) + c.y * s, (v.z * k + b.z * d) + c.z * s⟩

variable [Trigonometry α]

/-- The rotation about an axis of unit length by an angle in radians. -/
def about (axis : Vec α) (angle : α) : Rotation α :=
  let half := angle * 0.5
  let s := Trigonometry.sin half
  ⟨axis.x * s, axis.y * s, axis.z * s, Trigonometry.cos half⟩

/-- Half a turn about the third axis. -/
def reversal : Rotation α :=
  let half : α := Trigonometry.halfTurn * 0.5
  ⟨0, 0, Trigonometry.sin half, Trigonometry.cos half⟩

end Rotation

end PlantGrammar
