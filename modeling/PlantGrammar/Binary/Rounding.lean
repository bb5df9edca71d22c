/-!
# Rounding to binary floating-point numbers

A format holds numbers `m * 2 ^ e` with a bounded number of significant bits
and a least exponent. All work is done on natural numbers, so nothing is lost
before the one rounding step. That step goes to the nearest value, and from the
middle to the even one.
-/
namespace PlantGrammar.Binary

/-- The whole number nearest to `num / den`, the even one from the middle. -/
def roundQuotient (num den : Nat) : Nat :=
  let quotient := num / den
  let rest := num % den
  if den < 2 * rest ∨ (2 * rest = den ∧ quotient % 2 = 1) then quotient + 1 else quotient

/-- The number of at most `precision` significant bits that is nearest to `n`. -/
def roundSignificant (precision n : Nat) : Nat :=
  let unit := 1 <<< (n.log2 + 1 - precision)
  roundQuotient n unit * unit

/-- The greatest `e` with `2 ^ e ≤ num / den`, for positive numbers. -/
def ratioExponent (num den : Nat) : Int :=
  let e : Int := (num.log2 : Int) - den.log2
  if num <<< (-e).toNat < den <<< e.toNat then e - 1 else e

/-- The number `mantissa * 2 ^ exponent`. -/
structure Dyadic where
  mantissa : Nat
  exponent : Int
  deriving DecidableEq, Repr

namespace Dyadic

def numerator (d : Dyadic) : Nat := d.mantissa <<< d.exponent.toNat

def denominator (d : Dyadic) : Nat := 1 <<< (-d.exponent).toNat

end Dyadic

/-- A format is given by its significant bits, the exponent of its least
positive number, and the magnitude word of infinity. -/
structure Format where
  precision : Nat
  leastExponent : Int
  infinity : Nat
  deriving DecidableEq, Repr

namespace Format

def binary32 : Format := ⟨24, -149, 0x7f800000⟩

def binary64 : Format := ⟨53, -1074, 0x7ff0000000000000⟩

/-- Exponent of the last place of the numbers near `num / den`. Zero has the
least one. -/
def unitExponent (format : Format) (num den : Nat) : Int :=
  if num = 0 then format.leastExponent
  else max format.leastExponent (ratioExponent num den - (format.precision - 1))

/-- The magnitude word of the number nearest to `num / den`. The exponent field
counts last places from the least one, so a carry out of the fraction needs no
care, and a number too large for the format becomes infinite. -/
def nearestWord (format : Format) (num den : Nat) : Nat :=
  let e := format.unitExponent num den
  let m := roundQuotient (num <<< (-e).toNat) (den <<< e.toNat)
  min format.infinity (m + (e - format.leastExponent).toNat <<< (format.precision - 1))

/-- The number that a finite magnitude word stands for. -/
def valueOf (format : Format) (word : Nat) : Dyadic :=
  let hidden := 1 <<< (format.precision - 1)
  let field := word / hidden
  if field = 0 then ⟨word, format.leastExponent⟩
  else ⟨word % hidden + hidden, format.leastExponent + (field - 1 : Nat)⟩

/-- The magnitude word in this format that is nearest to a word of another. -/
def convertWord (target source : Format) (word : Nat) : Nat :=
  if source.infinity ≤ word then target.infinity
  else
    let value := source.valueOf word
    target.nearestWord value.numerator value.denominator

end Format
end PlantGrammar.Binary
