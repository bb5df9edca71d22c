import PlantGrammar.Proofs.Binary.Single

/-!
# Special values and signs in single precision

An operation works on the parts of its operands and packs its result into a word. What
is not finite stays so when it is packed, and a number stays a number, though it may
become an infinite one. So special values can be followed through a formula without a
look at the digits: a sum of squares is not finite unless all its terms are, and then
the inverse of its root is zero or not finite either. The sign has a bit of its own in
the word, and the digits are rounded without it, so a minus sign may go from one factor
of a product to the other.
-/
namespace PlantGrammar.Single

open Float.Model (UnpackedFloat Format)
open Float.Model.UnpackedFloat

/-- The word that a result is packed into. -/
def packed (u : UnpackedFloat) : Float32 := .ofModel (.pack u)

theorem add_eq (a b : Float32) :
    a + b = packed (add Format.binary32 (unpacked a) (unpacked b)) := rfl

theorem mul_eq (a b : Float32) :
    a * b = packed (mul Format.binary32 (unpacked a) (unpacked b)) := rfl

theorem div_eq (a b : Float32) :
    a / b = packed (div Format.binary32 (unpacked a) (unpacked b)) := rfl

theorem sqrt_eq (a : Float32) : a.sqrt = packed (sqrt Format.binary32 (unpacked a)) := rfl

theorem isFinite_unpacked (a : Float32) : (unpacked a).isFinite = a.isFinite := rfl

theorem isFinite_of_special {a : Float32} (h : a.isNaN = true ∨ a.isInf = true) :
    a.isFinite = false := by
  rw [← isFinite_unpacked]
  rw [← isNaN_unpacked, show a.isInf = (unpacked a).isInf from rfl] at h
  cases hu : unpacked a with
  | infinity | notANumber => rfl
  | zero | finite => rw [hu] at h; rcases h with h | h <;> cases h

theorem unpacked_packed_notANumber : unpacked (packed .notANumber) = .notANumber := rfl

theorem unpacked_packed_infinity (sign : Sign) :
    unpacked (packed (.infinity sign)) = .infinity sign := by
  cases sign <;> rfl

theorem isFinite_packed {u : UnpackedFloat} (h : u.isFinite = false) :
    (packed u).isFinite = false := by
  rw [← isFinite_unpacked]
  cases u with
  | infinity sign => rw [unpacked_packed_infinity, h]
  | notANumber => rw [unpacked_packed_notANumber, h]
  | zero | finite => cases h

/-- Nothing but the greatest exponent makes a word one that is no number. -/
theorem isNaN_unpack (sign : Sign) (exponent : BitVec 8) (mantissa : BitVec 23)
    (infinite : exponent = -1#8 → mantissa = 0#23) :
    (unpack Format.binary32 (packComponents Format.binary32 sign exponent mantissa)).isNaN =
      false := by
  unfold Float.Model.UnpackedFloat.unpack
  simp only [unpackMantissa_packComponents, unpackExponent_packComponents,
    unpackSign_packComponents, Sign.ofBitVec_toBitVec]
  split
  · rename_i greatest
    rw [if_pos (infinite greatest)]
    rfl
  · split
    · split <;> rfl
    · rfl

/-- A number whose exponent does not fit becomes infinite. Any other has an exponent that
is not the greatest one. -/
theorem isNaN_packed {u : UnpackedFloat} (h : u.isNaN = false) : (packed u).isNaN = false := by
  show (unpack Format.binary32 (pack Format.binary32 u)).isNaN = false
  fun_cases pack Format.binary32 u with
  | case1 => cases h
  | case2 sign => cases sign <;> rfl
  | case3 sign => cases sign <;> rfl
  | case4 sign => cases sign <;> rfl
  | case5 sign mantissa exponent _ bits biased small =>
    refine isNaN_unpack sign _ _ fun greatest => ?_
    have all : biased % 256 = 255 := congrArg BitVec.toNat greatest
    have fits : ¬ 256 ≤ biased + 1 := small
    omega
  | case6 sign => exact isNaN_unpack sign 0#8 _ (fun greatest => absurd greatest (by decide))

theorem isNaN_roundWithAccuracy (spec : Format) (sign : Sign) (mantissa : ℕ) (exponent : ℤ)
    (accuracy : Accuracy) :
    (roundWithAccuracy spec sign mantissa exponent accuracy).isNaN = false := by
  unfold roundWithAccuracy
  dsimp only
  split <;> rfl

theorem isFinite_mul_self {a : Float32} (h : a.isFinite = false) : (a * a).isFinite = false := by
  rw [mul_eq]
  apply isFinite_packed
  rw [← isFinite_unpacked] at h
  cases hu : unpacked a with
  | infinity | notANumber => rfl
  | zero | finite => rw [hu] at h; cases h

/-- Infinite numbers of opposite signs do not make up for each other. -/
theorem isFinite_add_infinity (spec : Format) (s t : Sign) :
    (add spec (.infinity s) (.infinity t)).isFinite = false := by
  cases s <;> cases t <;> rfl

theorem isFinite_add_left (spec : Format) {u : UnpackedFloat} (h : u.isFinite = false)
    (v : UnpackedFloat) : (add spec u v).isFinite = false := by
  cases u with
  | infinity s =>
    cases v with
    | infinity t => exact isFinite_add_infinity spec s t
    | notANumber | zero | finite => rfl
  | notANumber => rfl
  | zero | finite => cases h

theorem isFinite_add_right (spec : Format) (u : UnpackedFloat) {v : UnpackedFloat}
    (h : v.isFinite = false) : (add spec u v).isFinite = false := by
  cases v with
  | infinity t =>
    cases u with
    | infinity s => exact isFinite_add_infinity spec s t
    | notANumber | zero | finite => rfl
  | notANumber => cases u <;> rfl
  | zero | finite => cases h

theorem isFinite_add {a b : Float32} (h : a.isFinite = false ∨ b.isFinite = false) :
    (a + b).isFinite = false := by
  rw [add_eq]
  apply isFinite_packed
  rcases h with h | h
  · exact isFinite_add_left _ h _
  · exact isFinite_add_right _ _ h

theorem isNaN_mul {a b : Float32} (ha : a.isFinite = true) (hb : b.isFinite = true) :
    (a * b).isNaN = false := by
  rw [mul_eq]
  apply isNaN_packed
  rw [← isFinite_unpacked] at ha hb
  revert ha hb
  cases unpacked a with
  | infinity | notANumber => exact nofun
  | zero => cases unpacked b <;> first | exact fun _ _ => rfl | exact nofun
  | finite =>
    cases unpacked b with
    | infinity | notANumber => exact nofun
    | zero => exact fun _ _ => rfl
    | finite => exact fun _ _ => isNaN_roundWithAccuracy ..

/-- The root of what is not finite is infinite or no number. -/
theorem inverse_sqrt {a : Float32} (h : a.isFinite = false) :
    1 / a.sqrt = 0 ∨ (1 / a.sqrt).isFinite = false := by
  rw [div_eq, sqrt_eq]
  rw [← isFinite_unpacked] at h
  cases hu : unpacked a with
  | infinity sign =>
    cases sign with
    | positive => exact .inl (by decide +kernel)
    | negative => exact .inr (by decide +kernel)
  | notANumber => exact .inr (by decide +kernel)
  | zero | finite => rw [hu] at h; cases h

/-- Negation changes the bit of the sign and nothing else. -/
theorem neg_unpack (word : BitVec Format.binary32.numBits) :
    (unpack Format.binary32 word).neg =
      unpack Format.binary32 (packComponents Format.binary32 (-Sign.ofBitVec (unpackSign word))
        (unpackExponent word) (unpackMantissa word)) := by
  unfold Float.Model.UnpackedFloat.unpack
  simp only [unpackMantissa_packComponents, unpackExponent_packComponents,
    unpackSign_packComponents, Sign.ofBitVec_toBitVec]
  split
  · split <;> rfl
  · split
    · split <;> rfl
    · rfl

theorem unpack_pack_unpack (word : BitVec Format.binary32.numBits) :
    unpack Format.binary32 (pack Format.binary32 (unpack Format.binary32 word)) =
      unpack Format.binary32 word := by
  rw [pack_unpack word]
  split
  · rename_i special
    obtain ⟨exponent, mantissa⟩ := of_decide_eq_true special
    rw [unpack_packedNaN, unpack, if_pos exponent, if_neg mantissa]
  · rfl

theorem unpacked_neg (a : Float32) : unpacked (-a) = (unpacked a).neg := by
  show unpack _ (pack Format.binary32 (unpack Format.binary32 _).neg) =
    (unpack Format.binary32 _).neg
  rw [neg_unpack, unpack_pack_unpack]

protected theorem neg_mul_comm (a b : Float32) : -a * b = a * -b := by
  have signs : ∀ s t : Sign, -s * t = s * -t := by rintro (_ | _) (_ | _) <;> rfl
  rw [mul_eq, mul_eq, unpacked_neg, unpacked_neg]
  congr 1
  cases unpacked a <;> cases unpacked b <;> simp only [neg, mul, signs]

protected theorem neg_mul_neg (a b : Float32) : -a * -b = a * b := by
  have signs : ∀ s t : Sign, -s * -t = s * t := by rintro (_ | _) (_ | _) <;> rfl
  rw [mul_eq, mul_eq, unpacked_neg, unpacked_neg]
  congr 1
  cases unpacked a <;> cases unpacked b <;> simp only [neg, mul, signs]

end PlantGrammar.Single
