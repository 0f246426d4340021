import TouchGestures.Proofs.Scalar
import TouchGestures.Proofs.Scalar.Order
import TouchGestures.Time

namespace TouchGestures.Scalar

open Float.Model (Format UnpackedFloat totalExponent)
open Float.Model.UnpackedFloat

-- A positive number whose mantissa fills its bits and whose exponent is not below `least`, or
-- infinity.
inductive Normal (least : Int) : UnpackedFloat → Prop
  | infinity : Normal least (.infinity .positive)
  | finite {mantissa : Nat} {exponent : Int} (hpos : 0 < mantissa) (hlog : mantissa.log2 = 23)
    (hleast : least ≤ exponent) : Normal least (.finite .positive mantissa exponent hpos)

section Round

variable {mantissa : Nat} {exponent least : Int}

theorem mantissa_shiftRight (em : ExtendedMantissa) (n : Nat) :
    (em >>> n).mantissa = em.mantissa / 2 ^ n := by
  change (n.repeat ExtendedMantissa.shiftRightOne em).mantissa = em.mantissa / 2 ^ n
  induction n with
  | zero => simp [Nat.repeat]
  | succ n ih =>
    rw [Nat.repeat, ExtendedMantissa.shiftRightOne, ih, Nat.div_div_eq_div_mul, Nat.pow_succ]

-- Rounding adds one to a mantissa at most.
theorem roundedMantissa_bounds (em : ExtendedMantissa) :
    em.mantissa ≤ em.roundedMantissa ∧ em.roundedMantissa ≤ em.mantissa + 1 := by
  obtain ⟨mantissa, roundBit, stickyBit⟩ := em
  cases roundBit <;> cases stickyBit <;>
    simp only [ExtendedMantissa.roundedMantissa, ExtendedMantissa.accuracy,
      Accuracy.roundToNearestEven] <;> omega

theorem log2_eq_iff_bounds : mantissa.log2 = 23 ↔ 2 ^ 23 ≤ mantissa ∧ mantissa < 2 ^ 24 := by
  constructor
  · intro h
    have hne : mantissa ≠ 0 := by rintro rfl; simp at h
    exact (Nat.log2_eq_iff hne).mp h
  · rintro ⟨hle, hlt⟩
    exact (Nat.log2_eq_iff (by omega)).mpr ⟨hle, hlt⟩

theorem log2_mul_two_pow (h : mantissa ≠ 0) (n : Nat) :
    (mantissa * 2 ^ n).log2 = mantissa.log2 + n := by
  induction n with
  | zero => simp
  | succ n ih =>
    have hne : mantissa * 2 ^ n ≠ 0 := Nat.mul_ne_zero h (Nat.two_pow_pos n).ne'
    rw [Nat.pow_succ, ← Nat.mul_assoc, Nat.mul_comm, Nat.log2_two_mul hne, ih, Nat.add_assoc]

-- A mantissa that is long enough is cut to the bits that there are.
theorem shiftToTargetExponent_of_long (exponent : Int) (accuracy : Accuracy)
    (hlog : 23 ≤ mantissa.log2) (hleast : -149 ≤ mantissa.log2 + exponent - 23) :
    ∃ em : ExtendedMantissa, shiftToTargetExponent .binary32 mantissa exponent accuracy =
      (em, mantissa.log2 + exponent - 23) ∧ em.mantissa.log2 = 23 := by
  have htarget : Format.binary32.targetExponent (totalExponent mantissa exponent) =
      mantissa.log2 + exponent - 23 := by
    simp only [Format.targetExponent, totalExponent, Format.minExponent, Format.mantissaBits]
    omega
  have hshift : (mantissa.log2 + exponent - 23 - exponent).toNat = mantissa.log2 - 23 := by omega
  simp only [shiftToTargetExponent, htarget, shiftToExponent, hshift]
  refine ⟨_, Prod.ext rfl (by dsimp only; omega), ?_⟩
  have hinitial :
      (ExtendedMantissa.ofMantissaAndAccuracy mantissa accuracy).mantissa = mantissa := by
    unfold ExtendedMantissa.ofMantissaAndAccuracy
    split <;> rfl
  rw [mantissa_shiftRight, hinitial, log2_eq_iff_bounds]
  have hne : mantissa ≠ 0 := by rintro rfl; simp at hlog
  obtain ⟨hle, hlt⟩ := (Nat.log2_eq_iff hne).mp rfl
  have hsplit : mantissa.log2 = 23 + (mantissa.log2 - 23) := by omega
  rw [Nat.le_div_iff_mul_le (Nat.two_pow_pos _), Nat.div_lt_iff_lt_mul (Nat.two_pow_pos _),
    ← Nat.pow_add, ← Nat.pow_add, ← hsplit]
  refine ⟨hle, ?_⟩
  have hsucc : 24 + (mantissa.log2 - 23) = mantissa.log2 + 1 := by omega
  rw [hsucc]
  exact hlt

theorem normal_roundWithAccuracy (accuracy : Accuracy) (hmin : -149 ≤ least)
    (hlog : 23 ≤ mantissa.log2) (hleast : least ≤ mantissa.log2 + exponent - 23) :
    Normal least (roundWithAccuracy .binary32 .positive mantissa exponent accuracy) := by
  obtain ⟨em, hcut, hem⟩ := shiftToTargetExponent_of_long exponent accuracy hlog
    (hmin.trans hleast)
  have hrounded : 2 ^ 23 ≤ em.roundedMantissa :=
    (log2_eq_iff_bounds.mp hem).1.trans (roundedMantissa_bounds em).1
  have hlong : 23 ≤ em.roundedMantissa.log2 := (Nat.le_log2 (by omega)).mpr hrounded
  -- Rounding may have made the mantissa too long by a bit, so it is cut once more.
  obtain ⟨em', hcut', hem'⟩ :=
    shiftToTargetExponent_of_long (mantissa.log2 + exponent - 23) .exact hlong (by omega)
  have hpos : 0 < em'.mantissa := lt_of_lt_of_le (by decide) (log2_eq_iff_bounds.mp hem').1
  simp only [roundWithAccuracy, hcut, hcut']
  rw [dif_neg hpos.ne']
  exact .finite hpos hem' (by omega)

theorem normal_round (hmin : -149 ≤ least) (hpos : 0 < mantissa)
    (hleast : least ≤ mantissa.log2 + exponent - 23) :
    Normal least (UnpackedFloat.round .binary32 .positive mantissa exponent) := by
  have htarget : Format.binary32.targetExponent (totalExponent mantissa exponent) =
      mantissa.log2 + exponent - 23 := by
    simp only [Format.targetExponent, totalExponent, Format.minExponent, Format.mantissaBits]
    omega
  have hshift : (exponent - (mantissa.log2 + exponent - 23)).toNat = 23 - mantissa.log2 := by omega
  simp only [UnpackedFloat.round, htarget, decreaseExponent, hshift]
  -- A mantissa that is too short is lengthened first.
  have hlog : (mantissa <<< (23 - mantissa.log2)).log2 = mantissa.log2 + (23 - mantissa.log2) := by
    rw [Nat.shiftLeft_eq, log2_mul_two_pow hpos.ne']
  exact normal_roundWithAccuracy .exact hmin (by omega) (by omega)

end Round

section Pack

variable {least : Int} {x : UnpackedFloat} {a : Scalar}

theorem unpackSign_packComponents {sign : Sign} {exponent : BitVec 8} {mantissa : BitVec 23} :
    unpackSign (packComponents .binary32 sign exponent mantissa) = sign.toBitVec := by
  have hlast : (sign.toBitVec ++ exponent ++ mantissa).getLsbD 31 = sign.toBitVec[0] := by
    rw [BitVec.getLsbD_append, BitVec.getLsbD_append]
    rfl
  ext i hi
  obtain rfl : i = 0 := by omega
  rw [← hlast]
  simp only [unpackSign, packComponents, BitVec.getElem_cast]
  exact BitVec.getElem_extract _

-- A number with full bits is stored with its exponent, and it is infinity if that is too great.
theorem Normal.unpack_pack (h : Normal least x) (hmin : -149 ≤ least) :
    Normal least (unpack .binary32 (pack .binary32 x)) := by
  cases h with
  | infinity => exact .infinity
  | @finite mantissa exponent hpos hlog hleast =>
    have hbias : (Format.binary32.exponentBias : Int) = 127 := rfl
    obtain ⟨biased, hbiased⟩ : ∃ biased : Nat, exponent + 150 = biased :=
      ⟨(exponent + 150).toNat, by omega⟩
    have hstored :
        (exponent + (Format.binary32.exponentBias : Int) + (23 : Nat)).toNat = biased := by
      omega
    simp only [pack, hlog, hstored]
    split
    · exact .infinity
    · next hfits =>
      have hfull : 23 + 1 = Format.binary32.mantissaBits := rfl
      have hexponent : (BitVec.ofNat 8 biased).toNat = biased := by
        rw [BitVec.toNat_ofNat]
        omega
      have hordinary : BitVec.ofNat 8 biased ≠ -1#8 ∧ BitVec.ofNat 8 biased ≠ 0#8 := by
        simp only [ne_eq, BitVec.toNat_eq, hexponent]
        refine ⟨?_, ?_⟩
        · change biased ≠ 255
          omega
        · change biased ≠ 0
          omega
      rw [if_pos hfull]
      simp only [unpack, unpackExponent_packComponents, unpackMantissa_packComponents,
        unpackSign_packComponents]
      rw [if_neg hordinary.1, if_neg hordinary.2]
      refine .finite _ (log2_one_append _) ?_
      rw [hexponent]
      omega

theorem Normal.lt (h : Normal least a.toModel.unpack) : 0 < a := by
  have hzero : rank? (0 : Scalar).toModel.unpack = some (toLex (0, toLex (0, 0))) := rfl
  refine lt_iff_rank?.mpr ⟨_, hzero, ?_⟩
  generalize a.toModel.unpack = x at h
  cases h with
  | infinity => exact ⟨_, rfl, by decide⟩
  | finite hpos => exact ⟨_, rfl, Prod.Lex.toLex_lt_toLex.mpr (.inl Int.zero_lt_one)⟩

end Pack

section Arithmetic

variable {least : Int} {x y : UnpackedFloat} {n : Nat}

theorem normal_ofNat (h : 0 < n) : Normal (-23) (UnpackedFloat.ofNat .binary32 n) := by
  have hcompare : compare (n : Int) 0 = .gt := Int.compare_eq_gt.mpr (by omega)
  have hround : UnpackedFloat.ofNat .binary32 n = UnpackedFloat.round .binary32 .positive n 0 := by
    simp only [UnpackedFloat.ofNat, UnpackedFloat.ofInt, UnpackedFloat.normalize, hcompare,
      Int.toNat_natCast]
  rw [hround]
  exact normal_round (by decide) h (by omega)

-- A small number is taken times one as it is converted, a great one is rounded at once.
theorem normal_toFloat32 (h : 0 < n) : Normal (-23) n.toFloat32.toModel.unpack := by
  have hdef : n.toFloat32 = Float32.ofScientific n false 0 := rfl
  rw [hdef, Float32.ofScientific]
  split
  · next hsmall =>
    have hvalue : n.toUInt64.toNat = n := Nat.mod_eq_of_lt (by omega)
    have hunpacked : Normal (-23) n.toUInt64.toFloat32.toModel.unpack := by
      refine Normal.unpack_pack ?_ (by decide)
      rw [UnpackedFloat.ofUInt64, hvalue]
      exact normal_ofNat h
    have hproduct : Normal (-23) (UnpackedFloat.mul .binary32 n.toUInt64.toFloat32.toModel.unpack
        (.finite .positive (2 ^ 23) (-23) (by decide))) := by
      generalize n.toUInt64.toFloat32.toModel.unpack = x at hunpacked
      cases hunpacked with
      | infinity => exact .infinity
      | finite hpos hlog hleast =>
        have hlong := log2_mul_two_pow hpos.ne' 23
        exact normal_roundWithAccuracy .exact (by decide) (by omega) (by omega)
    have hone : (Float32.exactlyRepresentablePowersOfTen[0]).toModel.unpack =
        .finite .positive (2 ^ 23) (-23) (by decide) := by
      rfl
    rw [← hone] at hproduct
    exact hproduct.unpack_pack (by decide)
  · have hproduct : Normal (-23) (UnpackedFloat.ofScientific .binary32 n 0) := by
      have hpower : (2 : Int) ^ Format.binary32.exponentBits = 256 := rfl
      rw [UnpackedFloat.ofScientific, dif_neg h.ne', if_neg (by omega), if_neg (by omega),
        if_pos (by decide)]
      have hbits : Format.binary32.mantissaBits = 24 := rfl
      simp only [UnpackedFloat.mul, hbits, Int.toNat_zero, Nat.pow_zero, Nat.mul_one]
      have hlong : (n <<< 24).log2 = n.log2 + 24 := by
        rw [Nat.shiftLeft_eq, log2_mul_two_pow h.ne']
      exact normal_roundWithAccuracy .exact (by decide) (by omega) (by omega)
    exact hproduct.unpack_pack (by decide)

-- A number that is not too small stays one when it is divided by a billion.
theorem Normal.div (h : Normal (-23) x) :
    Normal (-53) (x.div .binary32 (.finite .positive 15625000 6 (by decide))) := by
  cases h with
  | infinity => exact .infinity
  | @finite mantissa exponent hpos hlog hleast =>
    have hlog' : (15625000 : Nat).log2 = 23 := by decide
    have htarget : min (exponent - 6) (Format.binary32.targetExponent
        (totalExponent mantissa exponent - totalExponent 15625000 6)) = exponent - 30 := by
      simp only [Format.targetExponent, totalExponent, Format.minExponent, Format.mantissaBits,
        hlog, hlog']
      omega
    have hshift : (exponent - 6 - (exponent - 30)).toNat = 24 := by omega
    simp only [UnpackedFloat.div, divCore, htarget, hshift, Nat.shiftLeft_eq]
    have hbounds := log2_eq_iff_bounds.mp hlog
    have hlong : 23 ≤ (mantissa * 2 ^ 24 / 15625000).log2 := by
      rw [Nat.le_log2 (by omega)]
      omega
    exact normal_roundWithAccuracy _ (by decide) hlong (by omega)

theorem Normal.add (hx : Normal least x) (hy : Normal least y) (hmin : -149 ≤ least) :
    Normal least (x.add .binary32 y) := by
  cases hx with
  | infinity => cases hy <;> exact .infinity
  | @finite mantissa exponent hpos hlog hleast =>
    cases hy with
    | infinity => exact .infinity
    | @finite mantissa' exponent' hpos' hlog' hleast' =>
      obtain ⟨k, hk⟩ : ∃ k, (exponent - min exponent exponent').toNat = k := ⟨_, rfl⟩
      obtain ⟨k', hk'⟩ : ∃ k, (exponent' - min exponent exponent').toNat = k := ⟨_, rfl⟩
      -- The sum has at least as many bits as the first mantissa, once that is shifted.
      have hmore : 2 ^ (23 + k) ≤ mantissa <<< k + mantissa' <<< k' := by
        have hshifted : 2 ^ 23 * 2 ^ k ≤ mantissa * 2 ^ k :=
          Nat.mul_le_mul_right _ (log2_eq_iff_bounds.mp hlog).1
        rw [← Nat.shiftLeft_eq mantissa, ← Nat.pow_add] at hshifted
        exact hshifted.trans (Nat.le_add_right _ _)
      have hpositive : 0 < mantissa <<< k + mantissa' <<< k' :=
        lt_of_lt_of_le (Nat.two_pow_pos _) hmore
      have hlong : 23 + k ≤ (mantissa <<< k + mantissa' <<< k').log2 :=
        (Nat.le_log2 hpositive.ne').mpr hmore
      have hsum : (0 : Int) < (mantissa <<< k : Nat) + (mantissa' <<< k' : Nat) := by omega
      have htoNat : (((mantissa <<< k : Nat) : Int) + (mantissa' <<< k' : Nat)).toNat =
          mantissa <<< k + mantissa' <<< k' := by omega
      simp only [UnpackedFloat.add, decreaseExponent, Sign.apply, hk, hk', UnpackedFloat.normalize,
        Int.compare_eq_gt.mpr hsum, htoNat]
      exact normal_round hmin hpositive (by omega)

theorem Normal.add_zero (h : Normal least x) : x.add .binary32 (.zero .positive) = x := by
  cases h <;> rfl

theorem Normal.zero_add (h : Normal least x) : (zero .positive).add .binary32 x = x := by
  cases h <;> rfl

theorem Normal.mono {lower : Int} (h : Normal least x) (hle : lower ≤ least) : Normal lower x := by
  cases h with
  | infinity => exact .infinity
  | finite hpos hlog hleast => exact .finite hpos hlog (hle.trans hleast)

end Arithmetic

end TouchGestures.Scalar

namespace TouchGestures.Duration

open Scalar (Normal normal_toFloat32)
open Float.Model.UnpackedFloat

-- A length of time is positive in seconds just if it is one.
theorem seconds_pos_iff {d : Nat} : 0 < seconds d ↔ 0 < d := by
  constructor
  · intro h
    by_contra hzero
    obtain rfl : d = 0 := by omega
    exact absurd h (by decide +kernel)
  · intro h
    have hsum : (seconds d).toModel.unpack = unpack .binary32 (pack .binary32
        ((d / 1000000000).toFloat32.toModel.unpack.add .binary32
          ((d % 1000000000).toFloat32 / (1000000000 : Nat).toFloat32).toModel.unpack)) := rfl
    have hdivisor : (1000000000 : Nat).toFloat32.toModel.unpack =
        .finite .positive 15625000 6 (by decide) := rfl
    have hzero : (0 : Nat).toFloat32.toModel.unpack = .zero .positive := rfl
    have hnothing : ((0 : Nat).toFloat32 / (1000000000 : Nat).toFloat32).toModel.unpack =
        .zero .positive := rfl
    have hrest : 0 < d % 1000000000 → Normal (-53)
        ((d % 1000000000).toFloat32 / (1000000000 : Nat).toFloat32).toModel.unpack := by
      intro hpos
      have hnormal := (normal_toFloat32 hpos).div
      rw [← hdivisor] at hnormal
      exact hnormal.unpack_pack (by decide)
    have hwhole : 0 < d / 1000000000 → Normal (-53) (d / 1000000000).toFloat32.toModel.unpack :=
      fun hpos => (normal_toFloat32 hpos).mono (by decide)
    suffices hnormal : Normal (-53) (seconds d).toModel.unpack from hnormal.lt
    rw [hsum]
    refine Normal.unpack_pack ?_ (by decide)
    obtain hw | hw := Nat.eq_zero_or_pos (d / 1000000000)
    · have hpos : 0 < d % 1000000000 := by omega
      rw [hw, hzero, (hrest hpos).zero_add]
      exact hrest hpos
    · obtain hr | hr := Nat.eq_zero_or_pos (d % 1000000000)
      · rw [hr, hnothing, (hwhole hw).add_zero]
        exact hwhole hw
      · exact (hwhole hw).add (hrest hr) (by decide)

end TouchGestures.Duration
