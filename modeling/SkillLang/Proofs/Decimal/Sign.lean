import Mathlib.Tactic.Common
import SkillLang.Decimal.Style

/-!
# Signs of doubles

A number below zero has its sign bit set, and its negation does not.  So a number and its
negation are never both below zero.  A zero is not below zero, also if its sign bit is set, so
that an integer below zero is equal to a negative one.
-/

namespace SkillLang.Decimal

open Float.Model Float.Model.UnpackedFloat

theorem unpackSign_packComponents
    {format : Format} (sign : Sign) (exponent : BitVec format.exponentBits)
    (mantissa : BitVec format.mantissaBitsWithoutImplicit) :
    unpackSign (packComponents format sign exponent mantissa) = sign.toBitVec := by
  ext i hi
  obtain rfl : i = 0 := by omega
  change (BitVec.cast _ (BitVec.extractLsb _ _ (sign.toBitVec ++ exponent ++ mantissa)))[0] = _
  simp [BitVec.getLsbD_eq_getElem, BitVec.getLsbD_append, BitVec.getElem_append]

theorem lt_zero_iff
    (x : Float) :
    x < 0 ↔ x.toModel.unpack.lt (.zero .positive) = true := by
  have hzero : (0 : Float).toModel.unpack = .zero .positive := rfl
  change x.lt 0 = true ↔ _
  rw [Float.lt, decide_eq_true_iff, ← hzero]
  rfl

/-- Without a sign bit nothing is below zero. -/
theorem not_lt_zero_of_unpackSign
    {bits : BitVec Format.binary64.numBits}
    (hsign : unpackSign bits = 0#1) :
    (UnpackedFloat.unpack Format.binary64 bits).lt (.zero .positive) = false := by
  have hpositive : Sign.ofBitVec (unpackSign bits) = .positive := by
    rw [hsign]
    rfl
  unfold UnpackedFloat.unpack
  dsimp only
  rw [hpositive]
  apply iteInduction (motive := fun x : UnpackedFloat => x.lt (.zero .positive) = false)
  · intro _
    apply iteInduction (motive := fun x : UnpackedFloat => x.lt (.zero .positive) = false)
    all_goals exact fun _ => rfl
  · intro _
    apply iteInduction (motive := fun x : UnpackedFloat => x.lt (.zero .positive) = false)
    · intro _
      by_cases hmantissa : unpackMantissa bits = 0#_
      · rw [dif_pos hmantissa]
        rfl
      · rw [dif_neg hmantissa]
        rfl
    · exact fun _ => rfl

theorem unpackSign_pack_neg
    {x : UnpackedFloat} (hx : x.lt (.zero .positive) = true) :
    unpackSign (UnpackedFloat.pack Format.binary64 x.neg) = 0#1 := by
  cases x with
  | notANumber => cases hx
  | zero sign => cases sign <;> cases hx
  | infinity sign =>
      cases sign with
      | positive => cases hx
      | negative => exact unpackSign_packComponents _ _ _
  | finite sign mantissa exponent hmantissa =>
      cases sign with
      | positive => cases hx
      | negative =>
          change unpackSign (UnpackedFloat.pack Format.binary64
            (.finite .positive mantissa exponent hmantissa)) = 0#1
          delta UnpackedFloat.pack
          dsimp only
          split_ifs
          all_goals exact unpackSign_packComponents _ _ _

theorem not_neg_lt_zero
    {x : Float} (hx : x < 0) :
    ¬ -x < 0 := by
  rw [lt_zero_iff] at hx ⊢
  have hsign := unpackSign_pack_neg hx
  have hnonneg := not_lt_zero_of_unpackSign hsign
  have hneg : (-x).toModel.unpack =
      UnpackedFloat.unpack Format.binary64
        (UnpackedFloat.pack Format.binary64 x.toModel.unpack.neg) := rfl
  rw [hneg, hnonneg]
  exact Bool.false_ne_true

/-! ## Integers below zero -/

section Bits

variable (bits : BitVec Format.binary64.numBits)

theorem toNat_unpackSign :
    (unpackSign bits).toNat = bits.toNat / Nat.pow 2 63 % 2 := by
  change (BitVec.cast _ (BitVec.extractLsb 63 63 bits)).toNat = _
  rw [BitVec.toNat_cast, BitVec.extractLsb_toNat, Nat.shiftRight_eq_div_pow]

theorem toNat_unpackExponent :
    (unpackExponent bits).toNat = bits.toNat / Nat.pow 2 52 % Nat.pow 2 11 := by
  change (BitVec.cast _ (BitVec.extractLsb 62 52 bits)).toNat = _
  rw [BitVec.toNat_cast, BitVec.extractLsb_toNat, Nat.shiftRight_eq_div_pow]

theorem toNat_unpackMantissa :
    (unpackMantissa bits).toNat = bits.toNat % Nat.pow 2 52 := by
  change (BitVec.cast _ (BitVec.extractLsb 51 0 bits)).toNat = _
  rw [BitVec.toNat_cast, BitVec.extractLsb_toNat, Nat.shiftRight_eq_div_pow, Nat.pow_zero,
    Nat.div_one]

end Bits

/-- A zero is not below zero, whatever its sign bit is. -/
theorem not_lt_zero_of_unpackMantissa
    {bits : BitVec Format.binary64.numBits}
    (hexponent : unpackExponent bits = 0#_) (hmantissa : unpackMantissa bits = 0#_) :
    (UnpackedFloat.unpack Format.binary64 bits).lt (.zero .positive) = false := by
  unfold UnpackedFloat.unpack
  dsimp only
  rw [hexponent, if_neg (by decide), if_pos rfl, dif_pos hmantissa]
  rfl

theorem isNegative_of_lt_zero
    {x : Float} (hx : x < 0) :
    isNegative x = true := by
  rw [lt_zero_iff] at hx
  have hsign : @unpackSign Format.binary64 x.toBits.toBitVec ≠ 0#1 := by
    intro hsign
    exact Bool.false_ne_true ((not_lt_zero_of_unpackSign hsign).symm.trans hx)
  have hbit : x.toBits.toBitVec.toNat / Nat.pow 2 63 % 2 ≠ 0 := by
    rw [← toNat_unpackSign]
    intro hzero
    exact hsign (BitVec.eq_of_toNat_eq hzero)
  have hsize : x.toBits.toNat < 2 ^ 64 := UInt64.toNat_lt _
  rw [isNegative, beq_iff_eq]
  change x.toBits.toNat / 2 ^ 63 % 2 ≠ 0 at hbit
  change x.toBits.toNat / 2 ^ 63 = 1
  omega

theorem mantissa_pos_of_lt_zero
    {x : Float} (hx : x < 0) :
    0 < (Binary.ofBits x.toBits).mantissa := by
  rw [lt_zero_iff] at hx
  rw [Binary.ofBits]
  split
  next hexponent =>
      rw [Nat.pos_iff_ne_zero]
      intro hfraction
      refine Bool.false_ne_true ((not_lt_zero_of_unpackMantissa ?_ ?_).symm.trans hx)
      · exact BitVec.eq_of_toNat_eq ((toNat_unpackExponent _).trans hexponent)
      · exact BitVec.eq_of_toNat_eq ((toNat_unpackMantissa _).trans hfraction)
  next => exact Nat.add_pos_left (Nat.pow_pos (by decide)) _

theorem lt_zero_of_exactInt?
    {x : Float} {n : Int} (hx : x < 0) (h : exactInt? x = some n) :
    n < 0 := by
  rw [exactInt?] at h
  dsimp only at h
  split at h
  next hexact =>
      rw [isNegative_of_lt_zero hx, if_pos rfl] at h
      cases h
      rw [Bool.and_eq_true, beq_iff_eq] at hexact
      have hnumerator : 0 < (Binary.ofBits x.toBits).numerator :=
        Nat.mul_pos (mantissa_pos_of_lt_zero hx) (Nat.pow_pos (by decide))
      have hquotient := Nat.div_pos (Nat.le_of_dvd hnumerator (Nat.dvd_of_mod_eq_zero hexact.2))
        (Nat.pow_pos (by decide))
      have hint : (0 : Int) < ((Binary.ofBits x.toBits).numerator /
        (Binary.ofBits x.toBits).denominator : Nat) := Int.natCast_pos.mpr hquotient
      exact Int.neg_neg_of_pos hint
  next => cases h

end SkillLang.Decimal
