import Mathlib
import TouchGestures.Scalar

namespace TouchGestures.Scalar

open Float.Model (UnpackedFloat)

section Rank

variable {x y : UnpackedFloat} {o : Ordering}

-- Where a number stands among the others: first by its sign and whether it is finite, then
-- by exponent, then by mantissa. NaN stands nowhere.
def rank? : UnpackedFloat → Option (Int ×ₗ Int ×ₗ Int)
  | .notANumber => none
  | .infinity .negative => some (toLex (-2, toLex (0, 0)))
  | .finite .negative mantissa exponent _ => some (toLex (-1, toLex (-exponent, -mantissa)))
  | .zero _ => some (toLex (0, toLex (0, 0)))
  | .finite .positive mantissa exponent _ => some (toLex (1, toLex (exponent, mantissa)))
  | .infinity .positive => some (toLex (2, toLex (0, 0)))

theorem rank?_eq_none_iff : rank? x = none ↔ x = .notANumber := by
  cases x with
  | notANumber => simp [rank?]
  | infinity sign | finite sign => cases sign <;> simp [rank?]
  | zero sign => simp [rank?]

-- Two finite numbers compare as their ranks do.
theorem compare_finite_eq_some_iff {s t : UnpackedFloat.Sign} {m n : Nat} {e f : Int}
    {hm : 0 < m} {hn : 0 < n} :
    (UnpackedFloat.finite s m e hm).compare (.finite t n f hn) = some o ↔
      ∃ a ∈ rank? (.finite s m e hm), ∃ b ∈ rank? (.finite t n f hn), o.Compares a b := by
  have hcomm : f = e ↔ e = f := eq_comm
  cases s <;> cases t <;> cases o <;>
    simp [rank?, UnpackedFloat.compare, Ordering.Compares, Prod.Lex.toLex_lt_toLex,
      Ordering.then_eq_lt, Ordering.then_eq_gt, compare_lt_iff_lt, compare_gt_iff_gt, hcomm]

-- Two numbers compare as their ranks do, and NaN does not compare.
theorem compare_eq_some_iff :
    x.compare y = some o ↔ ∃ a ∈ rank? x, ∃ b ∈ rank? y, o.Compares a b := by
  cases x with
  | notANumber => simp [rank?, UnpackedFloat.compare]
  | infinity s | zero s =>
    cases s <;> cases y with
    | notANumber => simp [rank?, UnpackedFloat.compare]
    | infinity t | zero t | finite t =>
      cases t <;> cases o <;>
        simp [rank?, UnpackedFloat.compare, Ordering.Compares, Prod.Lex.toLex_lt_toLex] <;>
        decide
  | finite s =>
    cases y with
    | notANumber => cases s <;> simp [rank?, UnpackedFloat.compare]
    | infinity t | zero t =>
      cases s <;> cases t <;> cases o <;>
        simp [rank?, UnpackedFloat.compare, Ordering.Compares, Prod.Lex.toLex_lt_toLex]
    | finite t => exact compare_finite_eq_some_iff

end Rank

section Compare

variable {a b c : Scalar}

theorem lt_iff_rank? : a < b ↔
    ∃ p ∈ rank? a.toModel.unpack, ∃ q ∈ rank? b.toModel.unpack, p < q := by
  have hlt : a < b ↔ a.toModel.unpack.lt b.toModel.unpack = true := decide_eq_true_iff
  rw [hlt, UnpackedFloat.lt, beq_iff_eq]
  exact compare_eq_some_iff

theorem le_iff_rank? : a ≤ b ↔
    ∃ p ∈ rank? a.toModel.unpack, ∃ q ∈ rank? b.toModel.unpack, p ≤ q := by
  have hle : a ≤ b ↔ a.toModel.unpack.le b.toModel.unpack = true := decide_eq_true_iff
  have hcases (o : Option Ordering) :
      o.any (·.isLE) = true ↔ o = some .lt ∨ o = some .eq := by
    obtain _ | _ | _ | _ := o <;> decide
  rw [hle, UnpackedFloat.le, hcases, compare_eq_some_iff, compare_eq_some_iff]
  constructor
  · rintro (⟨p, hp, q, hq, hlt⟩ | ⟨p, hp, q, hq, heq⟩)
    · exact ⟨p, hp, q, hq, le_of_lt hlt⟩
    · exact ⟨p, hp, q, hq, le_of_eq heq⟩
  · rintro ⟨p, hp, q, hq, hle⟩
    obtain hlt | heq := lt_or_eq_of_le hle
    · exact .inl ⟨p, hp, q, hq, hlt⟩
    · exact .inr ⟨p, hp, q, hq, heq⟩

theorem exists_rank?_of_isNaN_eq_false (h : a.isNaN = false) :
    ∃ p, rank? a.toModel.unpack = some p := by
  refine Option.ne_none_iff_exists'.mp fun hnone => ?_
  have hnan : a.isNaN = a.toModel.unpack.isNaN := rfl
  rw [rank?_eq_none_iff.mp hnone] at hnan
  rw [h] at hnan
  cases hnan

theorem isNaN_eq_false_of_rank? {p : Int ×ₗ Int ×ₗ Int} (h : p ∈ rank? a.toModel.unpack) :
    a.isNaN = false := by
  change a.toModel.unpack.isNaN = false
  cases hx : a.toModel.unpack with
  | notANumber =>
    rw [hx] at h
    cases h
  | infinity | zero | finite => rfl

-- Only numbers are less or greater than another.
theorem isNaN_eq_false_of_lt (h : a < b) : a.isNaN = false ∧ b.isNaN = false := by
  obtain ⟨p, hp, q, hq, -⟩ := lt_iff_rank?.mp h
  exact ⟨isNaN_eq_false_of_rank? hp, isNaN_eq_false_of_rank? hq⟩

theorem lt_irrefl : ¬a < a := by
  intro h
  obtain ⟨p, hp, q, hq, hpq⟩ := lt_iff_rank?.mp h
  obtain rfl : p = q := Option.mem_unique hp hq
  exact hpq.false

theorem lt_trans (hab : a < b) (hbc : b < c) : a < c := by
  obtain ⟨p, hp, q, hq, hpq⟩ := lt_iff_rank?.mp hab
  obtain ⟨q', hq', r, hr, hqr⟩ := lt_iff_rank?.mp hbc
  obtain rfl : q = q' := Option.mem_unique hq hq'
  exact lt_iff_rank?.mpr ⟨p, hp, r, hr, hpq.trans hqr⟩

theorem lt_of_le_of_lt (hab : a ≤ b) (hbc : b < c) : a < c := by
  obtain ⟨p, hp, q, hq, hpq⟩ := le_iff_rank?.mp hab
  obtain ⟨q', hq', r, hr, hqr⟩ := lt_iff_rank?.mp hbc
  obtain rfl : q = q' := Option.mem_unique hq hq'
  exact lt_iff_rank?.mpr ⟨p, hp, r, hr, hpq.trans_lt hqr⟩

-- Any two numbers compare.
theorem le_of_not_lt (ha : a.isNaN = false) (hb : b.isNaN = false) (h : ¬b < a) : a ≤ b := by
  obtain ⟨p, hp⟩ := exists_rank?_of_isNaN_eq_false ha
  obtain ⟨q, hq⟩ := exists_rank?_of_isNaN_eq_false hb
  refine le_iff_rank?.mpr ⟨p, hp, q, hq, ?_⟩
  by_contra hnot
  exact h (lt_iff_rank?.mpr ⟨q, hq, p, hp, lt_of_not_ge hnot⟩)

end Compare

end TouchGestures.Scalar
