import PlantGrammar.Binary.Rounding

/-!
# JSON values and the numbers in them

A number is a whole number or a decimal. A decimal has a sign of its own, so
that there are two zeros. It becomes a double-precision number first and then a
single-precision one; a whole number is rounded once. A decimal beyond the range
of double precision is not read.

An object is a list of named values. Its names are taken to differ; a look-up
finds the first of a name.
-/
namespace PlantGrammar.Json

open Binary

inductive Number where
  /-- A number written with digits only that fits into 64 bits. -/
  | whole (value : Int)
  /-- The number `digits * 10 ^ exponent`, or its negative. -/
  | decimal (negative : Bool) (digits : Nat) (exponent : Int)
  deriving DecidableEq, Repr

namespace Number

/-- The single-precision number with a sign and a magnitude word. -/
def signed (negative : Bool) (magnitude : Nat) : Float32 :=
  Float32.ofBits (UInt32.ofNat (if negative then magnitude + 0x80000000 else magnitude))

/-- The double-precision magnitude word nearest to `digits * 10 ^ exponent`.
Numbers far out of range are settled before the powers are worked out. -/
def nearestDouble (digits : Nat) (exponent : Int) : Nat :=
  if digits = 0 ∨ exponent + digits.log2 < -400 then 0
  else if 400 < exponent then Format.binary64.infinity
  else
    Format.binary64.nearestWord (digits * Nat.pow 10 exponent.toNat)
      (Nat.pow 10 (-exponent).toNat)

def toFloat32 : Number → Float32
  | whole value => signed (value < 0) (Format.binary32.nearestWord value.natAbs 1)
  | decimal negative digits exponent =>
      signed negative
        (Format.binary32.convertWord Format.binary64 (nearestDouble digits exponent))

/-- Whether the number is within the range of the precision it becomes first. -/
def inRange : Number → Bool
  | whole _ => true
  | decimal _ digits exponent => nearestDouble digits exponent < Format.binary64.infinity

/-- The number that is read. -/
def toFloat32? (n : Number) : Option Float32 := if n.inRange then some n.toFloat32 else none

/-- The magnitude word of a single-precision number. -/
def magnitude (x : Float32) : Nat := x.toBits.toNat % 0x80000000

/-- The decimal that is exactly a single-precision number. An infinite number and
a number that is none have no decimal. -/
def ofFloat32? (x : Float32) : Option Number :=
  if Format.binary32.infinity ≤ magnitude x then none
  else
    let value := Format.binary32.valueOf (magnitude x)
    let digits := value.numerator * Nat.pow 5 (-value.exponent).toNat
    some (.decimal (0x80000000 ≤ x.toBits.toNat) digits (min value.exponent 0))

end Number

inductive Value where
  | null
  | bool (value : Bool)
  | number (value : Number)
  | string (text : String)
  | array (items : List Value)
  | object (fields : List (String × Value))
  deriving Repr

/-- The fields of a record. An array is read as the object that gives its items
the names of the record in order; it has at most as many items as names. -/
def Value.fields? (names : List String) : Value → Option (List (String × Value))
  | .object fields => some fields
  | .array items => if items.length ≤ names.length then some (names.zip items) else none
  | _ => none

/-- A type whose values have a JSON form. -/
class Shape (β : Type) where
  write : β → Value
  read? : Value → Option β

/-- The items of an array, if all of them are read. -/
def Value.items? {β : Type} [Shape β] : Value → Option (List β)
  | .array items => items.mapM Shape.read?
  | _ => none

/-- The shape of a type whose values are made of items in order. -/
@[reducible] def Shape.ofItems {β γ : Type} [Shape β] (items : γ → List β)
    (make? : List β → Option γ) : Shape γ where
  write x := .array ((items x).map Shape.write)
  read? value := value.items?.bind make?

/-- The value of a field that has to be there. -/
def field? {β : Type} [Shape β] (fields : List (String × Value)) (name : String) : Option β :=
  (fields.lookup name).bind Shape.read?

/-- The value of a field, which may be left out. -/
def fieldOr {β : Type} [Shape β] (fields : List (String × Value)) (name : String)
    (otherwise : β) : Option β :=
  match fields.lookup name with
  | none => some otherwise
  | some value => Shape.read? value

end PlantGrammar.Json
