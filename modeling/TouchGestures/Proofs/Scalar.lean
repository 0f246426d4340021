import Mathlib
import TouchGestures.Scalar

namespace TouchGestures.Scalar

open Float.Model (Format UnpackedFloat totalExponent)
open Float.Model.UnpackedFloat

section Stored

variable {b : BitVec Format.binary32.numBits} {sign : Sign} {mantissa : Nat} {exponent : Int}
  {hpos : 0 < mantissa}

-- How mantissa and exponent of a finite number are stored: the mantissa fills its bits,
-- unless the exponent is the least one.
def IsStored (mantissa : Nat) (exponent : Int) : Prop :=
  -149 ≤ exponent ∧ mantissa.log2 = 23 ∨ exponent = -149 ∧ mantissa.log2 < 23

theorem log2_toNat_lt {mantissa : BitVec 23} (h : mantissa ≠ 0#23) : mantissa.toNat.log2 < 23 := by
  have hne : mantissa.toNat ≠ 0 := by simpa [BitVec.toNat_eq] using h
  exact (Nat.log2_lt hne).mpr mantissa.isLt

theorem log2_one_append (mantissa : BitVec 23) : (1#1 ++ mantissa).toNat.log2 = 23 := by
  have hlt := mantissa.isLt
  have happend : (1#1 ++ mantissa).toNat = 2 ^ 23 + mantissa.toNat := by
    rw [BitVec.toNat_append, ← Nat.shiftLeft_add_eq_or_of_lt mantissa.isLt]
    rfl
  rw [Nat.log2_eq_iff (by rw [happend]; omega), happend]
  omega

-- The parts of a finite number are as they are stored.
theorem isStored_of_unpack (h : unpack .binary32 b = .finite sign mantissa exponent hpos) :
    IsStored mantissa exponent := by
  simp only [unpack] at h
  split at h
  · split at h <;> cases h
  · split at h
    · split at h
      · cases h
      · next hzero hmantissa =>
        injection h with _ hm he
        refine .inr ⟨?_, hm ▸ log2_toNat_lt hmantissa⟩
        rw [← he, hzero]
        decide
    · next hzero =>
      have hbias : (Format.binary32.exponentBias : Int) = 127 := rfl
      have hne : (unpackExponent b).toNat ≠ 0 := fun heq =>
        hzero (BitVec.eq_of_toNat_eq heq)
      injection h with _ hm he
      refine .inl ⟨?_, hm ▸ log2_one_append _⟩
      rw [← he, hbias]
      omega

-- Putting the parts of a number together gives the number.
theorem ofModel_pack_unpack (a : Scalar) : Float32.ofModel (.pack a.toModel.unpack) = a := by
  obtain ⟨⟨bits, hvalid⟩⟩ := a
  simp only [Float32.Model.pack, Float32.Model.unpack]
  congr
  exact pack_unpack_of_valid hvalid

end Stored

section Compare

variable {a b : Scalar}

-- What equals a positive number numerically is that number.
theorem eq_of_beq (hpos : 0 < b) (heq : (a == b) = true) : a = b := by
  obtain ⟨-, -, hsame | ⟨-, rfl⟩ | ⟨-, rfl⟩⟩ := Float32.beq_iff_ne_nan_and_eq.mp heq
  · exact hsame
  · exact absurd hpos (by decide +kernel)
  · exact absurd hpos (by decide +kernel)

-- A positive number equals itself, so it is not NaN.
theorem beq_self_of_pos (hpos : 0 < a) : (a == a) = true := by
  refine Float32.beq_self_iff.mpr ?_
  rintro rfl
  exact absurd hpos (by decide +kernel)

end Compare

section Arithmetic

variable {sign : Sign} {mantissa : Nat} {exponent : Int}

theorem shiftToTargetExponent_of_isStored (h : IsStored mantissa exponent) :
    shiftToTargetExponent .binary32 mantissa exponent .exact =
      (⟨mantissa, false, false⟩, exponent) := by
  have htarget : Format.binary32.targetExponent (totalExponent mantissa exponent) = exponent := by
    simp only [Format.targetExponent, totalExponent, Format.minExponent, Format.mantissaBits]
    unfold IsStored at h
    omega
  simp only [shiftToTargetExponent, htarget, shiftToExponent, Int.sub_self]
  exact Prod.ext rfl (by simp)

theorem roundWithAccuracy_of_isStored (hpos : 0 < mantissa) (h : IsStored mantissa exponent) :
    roundWithAccuracy .binary32 sign mantissa exponent .exact =
      .finite sign mantissa exponent hpos := by
  have hround : (ExtendedMantissa.mk mantissa false false).roundedMantissa = mantissa := rfl
  simp only [roundWithAccuracy, shiftToTargetExponent_of_isStored h, hround]
  rw [dif_neg (Nat.pos_iff_ne_zero.mp hpos)]

-- A mantissa with a zero too many is cut back to its size.
theorem roundWithAccuracy_two_mul (hpos : 0 < mantissa) (hlog : mantissa.log2 = 23)
    (hexponent : -149 < exponent) :
    roundWithAccuracy .binary32 sign (2 * mantissa) (exponent - 1) .exact =
      .finite sign mantissa exponent hpos := by
  have htarget :
      Format.binary32.targetExponent (totalExponent (2 * mantissa) (exponent - 1)) = exponent := by
    simp only [Format.targetExponent, totalExponent, Format.minExponent, Format.mantissaBits,
      Nat.log2_two_mul (Nat.pos_iff_ne_zero.mp hpos), hlog]
    omega
  have hone : (exponent - (exponent - 1)).toNat = 1 := by omega
  have hcut : shiftToTargetExponent .binary32 (2 * mantissa) (exponent - 1) .exact =
      (⟨mantissa, false, false⟩, exponent) := by
    simp only [shiftToTargetExponent, htarget, shiftToExponent, hone]
    refine Prod.ext ?_ (by simp)
    change ExtendedMantissa.shiftRightOne ⟨2 * mantissa, false, false⟩ = ⟨mantissa, false, false⟩
    simp [ExtendedMantissa.shiftRightOne]
  have hround : (ExtendedMantissa.mk mantissa false false).roundedMantissa = mantissa := rfl
  have hstored : IsStored mantissa exponent := .inl ⟨by omega, hlog⟩
  simp only [roundWithAccuracy, hcut, hround, shiftToTargetExponent_of_isStored hstored]
  rw [dif_neg (Nat.pos_iff_ne_zero.mp hpos)]

-- Dividing by one lengthens a mantissa by a zero if the exponent leaves room for that.
theorem divCore_one (h : IsStored mantissa exponent) :
    divCore .binary32 mantissa exponent (2 ^ 23) (-23) =
      if -149 < exponent then (2 * mantissa, exponent - 1, .exact)
      else (mantissa, exponent, .exact) := by
  have hlog : (2 ^ 23).log2 = 23 := Nat.log2_two_pow
  have htarget : min (exponent - -23) (Format.binary32.targetExponent
      (totalExponent mantissa exponent - totalExponent (2 ^ 23) (-23))) =
      if -149 < exponent then exponent - 1 else exponent := by
    simp only [Format.targetExponent, totalExponent, Format.minExponent, Format.mantissaBits, hlog]
    unfold IsStored at h
    grind
  simp only [divCore, htarget, Nat.shiftLeft_eq]
  split
  · next hroom =>
    have hshift : (exponent - -23 - (exponent - 1)).toNat = 24 := by omega
    have hproduct : mantissa * 2 ^ 24 = 2 ^ 23 * (2 * mantissa) := by omega
    rw [hshift, hproduct, Nat.mul_div_cancel_left _ (by decide), Nat.mul_mod_right]
    rfl
  · next hroom =>
    have hshift : (exponent - -23 - exponent).toNat = 23 := by omega
    rw [hshift, Nat.mul_div_cancel _ (by decide), Nat.mul_mod_left]
    rfl

theorem div_one_finite (hpos : 0 < mantissa) (h : IsStored mantissa exponent) :
    UnpackedFloat.div .binary32 (.finite sign mantissa exponent hpos)
        (.finite .positive (2 ^ 23) (-23) (by decide)) =
      .finite sign mantissa exponent hpos := by
  have hsign : sign / .positive = sign := by cases sign <;> rfl
  simp only [UnpackedFloat.div, hsign, divCore_one h]
  obtain ⟨hleast, hlog⟩ | ⟨hleast, -⟩ := id h
  · split
    · next hroom => exact roundWithAccuracy_two_mul hpos hlog hroom
    · next hroom => exact roundWithAccuracy_of_isStored hpos h
  · rw [if_neg (by omega)]
    exact roundWithAccuracy_of_isStored hpos h

end Arithmetic

theorem div_one (a : Scalar) : a / (1 : Nat).toFloat32 = a := by
  have hdiv : UnpackedFloat.div .binary32 a.toModel.unpack
      (.finite .positive (2 ^ 23) (-23) (by decide)) = a.toModel.unpack := by
    cases ha : a.toModel.unpack with
    | notANumber => rfl
    | infinity sign | zero sign => cases sign <;> rfl
    | finite sign mantissa exponent hpos => exact div_one_finite hpos (isStored_of_unpack ha)
  have hquotient : a / (1 : Nat).toFloat32 = Float32.ofModel (.pack (UnpackedFloat.div .binary32
    a.toModel.unpack (.finite .positive (2 ^ 23) (-23) (by decide)))) := rfl
  rw [hquotient, hdiv, ofModel_pack_unpack]

section Zero

variable {a b : Scalar}

def IsNegativeZero (a : Scalar) : Prop := a.toModel.unpack = .zero .negative

-- Adding zero changes nothing but the sign of zero.
theorem zero_add_cases (a : Scalar) :
    ¬a.IsNegativeZero ∧ 0 + a = a ∨ a.IsNegativeZero ∧ 0 + a = 0 := by
  have hsum : 0 + a = Float32.ofModel
    (.pack (UnpackedFloat.add .binary32 (.zero .positive) a.toModel.unpack)) := rfl
  by_cases hzero : a.IsNegativeZero
  · refine .inr ⟨hzero, ?_⟩
    rw [hsum, hzero]
    rfl
  · refine .inl ⟨hzero, ?_⟩
    have hadd : UnpackedFloat.add .binary32 (.zero .positive) a.toModel.unpack =
        a.toModel.unpack := by
      unfold IsNegativeZero at hzero
      cases ha : a.toModel.unpack with
      | notANumber | infinity | finite => rfl
      | zero sign =>
        cases sign with
        | negative => exact absurd ha hzero
        | positive => rfl
    rw [hsum, hadd, ofModel_pack_unpack]

theorem not_isNegativeZero_zero_add (a : Scalar) : ¬(0 + a).IsNegativeZero := by
  obtain ⟨hzero, hsum⟩ | ⟨-, hsum⟩ := zero_add_cases a
  · rwa [hsum]
  · rw [hsum]
    exact nofun

-- Which zero is taken away makes no difference, unless it is taken from a negative zero.
theorem sub_isNegativeZero (ha : ¬a.IsNegativeZero) (hb : b.IsNegativeZero) : a - b = a - 0 := by
  have hdifference (x : UnpackedFloat) (c : Scalar) (hc : c.toModel.unpack = x) :
      a - c = Float32.ofModel (.pack (UnpackedFloat.sub .binary32 a.toModel.unpack x)) := by
    rw [← hc]
    rfl
  rw [hdifference _ b hb, hdifference (.zero .positive) 0 rfl]
  unfold IsNegativeZero at ha
  cases hx : a.toModel.unpack with
  | notANumber | infinity | finite => rfl
  | zero sign =>
    cases sign with
    | negative => exact absurd hx ha
    | positive => rfl

-- A sum that starts from zero can be compared with the sum or with the summand.
theorem zero_add_sub_zero_add (a b : Scalar) : (0 + a) - (0 + b) = (0 + a) - b := by
  obtain ⟨-, hsum⟩ | ⟨hzero, hsum⟩ := zero_add_cases b
  · rw [hsum]
  · rw [hsum, sub_isNegativeZero (not_isNegativeZero_zero_add a) hzero]

end Zero

end TouchGestures.Scalar
