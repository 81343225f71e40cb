import FormValidation.Condition.Function
import Mathlib

/-!
# Integer arithmetic is exact, but for one remainder

Integers have 64 bits and a sign.  Sums, differences, products, negations and absolute values are
those of the whole numbers wherever the result fits into 64 bits, and an overflow elsewhere
(`IsExact`).

The remainder of `m` by `n` is `m - n * ⌊m / n⌋`, which lies between zero and the divisor and so
always fits.  It is not computed in this way: the division cuts its quotient toward zero and leaves
a rest with the sign of `m`, to which the divisor is added if the signs differ.  This file says that
the addition never overflows (`Arithmetic.toInt_withSignOf`) and that the sum is the remainder of
the whole numbers (`sub_mul_floor`).  But the division itself has no result where its quotient does
not fit, although its rest does: the remainder of the least integer by `-1` is zero and is reported
as an overflow.  It is the only remainder that is.
-/

namespace FormValidation

/-- The number fits into an integer of 64 bits with a sign. -/
def FitsInt (z : Int) : Prop := -2 ^ 63 ≤ z ∧ z < 2 ^ 63

/-- The outcome is the number, or an overflow exactly if the number does not fit. -/
def IsExact (outcome : Except Fault Value) (z : Int) : Prop :=
  (FitsInt z → ∃ word : Int64, word.toInt = z ∧ outcome = .ok (.int word)) ∧
    (¬ FitsInt z → outcome = .error .overflow)

lemma isExact_ofInt (z : Int) : IsExact (Value.ofInt z) z := by
  have hrange : (Int64.minValue.toInt ≤ z ∧ z ≤ Int64.maxValue.toInt) ↔ FitsInt z := by
    rw [Int64.toInt_minValue, Int64.toInt_maxValue, FitsInt]
    omega
  constructor
  · intro hfits
    refine ⟨Int64.ofInt z, Int64.toInt_ofInt_of_le hfits.1 hfits.2, ?_⟩
    rw [Value.ofInt, int64?, if_pos (hrange.2 hfits)]
  · intro hlarge
    rw [Value.ofInt, int64?, if_neg (mt hrange.1 hlarge)]

/-! ## The remainder -/

/-- The number lies between zero and the divisor, and may be zero. -/
def IsRest (divisor rest : Int) : Prop :=
  (0 < divisor → 0 ≤ rest ∧ rest < divisor) ∧ (divisor < 0 → divisor < rest ∧ rest ≤ 0)

/-- Whatever multiple of the divisor leaves a rest, it is the multiple by the floor of the
quotient. -/
lemma sub_mul_floor {m n q rest : Int} (hn : n ≠ 0) (hq : m - n * q = rest)
    (hrest : IsRest n rest) : m - n * ⌊(m / n : ℚ)⌋ = rest := by
  have hquotient : (m / n : ℚ) = q + rest / n := by
    have hcast : (n : ℚ) ≠ 0 := Int.cast_ne_zero.2 hn
    rw [← hq]
    push_cast
    field_simp
    ring
  have hpart : 0 ≤ (rest / n : ℚ) ∧ (rest / n : ℚ) < 1 := by
    rcases lt_or_gt_of_ne hn with h | h
    · have hcast : (n : ℚ) < 0 := Int.cast_lt_zero.2 h
      obtain ⟨hlow, hhigh⟩ := hrest.2 h
      exact ⟨div_nonneg_of_nonpos (Int.cast_nonpos.2 hhigh) hcast.le,
        (div_lt_one_of_neg hcast).2 (Int.cast_lt.2 hlow)⟩
    · have hcast : (0 : ℚ) < n := Int.cast_pos.2 h
      obtain ⟨hlow, hhigh⟩ := hrest.1 h
      exact ⟨div_nonneg (Int.cast_nonneg hlow) hcast.le,
        (div_lt_one hcast).2 (Int.cast_lt.2 hhigh)⟩
  have hfloor : ⌊(m / n : ℚ)⌋ = q := by
    rw [Int.floor_eq_iff, hquotient]
    constructor <;> linarith [hpart.1, hpart.2]
  rw [hfloor, hq]

namespace Arithmetic

lemma toInt_ne_zero {n : Int64} (hn : n ≠ 0) : n.toInt ≠ 0 := fun h =>
  hn (Int64.toInt_inj.1 (h.trans Int64.toInt_zero.symm))

/-- Adding the divisor to a smaller rest of the other sign does not overflow. -/
lemma toInt_withSignOf (n : Int64) {rest : Int64} (h : rest.toInt.natAbs < n.toInt.natAbs) :
    (withSignOf n rest).toInt = rest.toInt +
      if rest.toInt ≠ 0 ∧ (rest.toInt < 0 ↔ 0 ≤ n.toInt) then n.toInt else 0 := by
  have hcondition : (rest != 0 && (decide (rest < 0) != decide (n < 0))) = true ↔
      rest.toInt ≠ 0 ∧ (rest.toInt < 0 ↔ 0 ≤ n.toInt) := by
    rw [Bool.and_eq_true, bne_iff_ne, bne_iff_ne, ne_eq, ← Int64.toInt_inj]
    simp only [Int64.lt_iff_toInt_lt, Int64.toInt_zero, ne_eq, decide_eq_decide]
    omega
  rw [withSignOf]
  by_cases hcorrect : rest.toInt ≠ 0 ∧ (rest.toInt < 0 ↔ 0 ≤ n.toInt)
  · have hlow := n.le_toInt
    have hhigh := n.toInt_lt
    rw [if_pos (hcondition.2 hcorrect), if_pos hcorrect, Int64.toInt_add]
    apply Int.bmod_eq_of_le <;> omega
  · rw [if_neg (mt hcondition.1 hcorrect), if_neg hcorrect, add_zero]

/-- The rest of the division that cuts its quotient, brought to the sign of the divisor, is the
remainder of the whole numbers. -/
lemma toInt_withSignOf_mod (m : Int64) {n : Int64} (hn : n ≠ 0) :
    (withSignOf n (m % n)).toInt = m.toInt - n.toInt * ⌊(m.toInt / n.toInt : ℚ)⌋ ∧
      IsRest n.toInt (withSignOf n (m % n)).toInt := by
  have hzero := toInt_ne_zero hn
  have hdivision : m.toInt - n.toInt * m.toInt.tdiv n.toInt = (m % n).toInt := by
    rw [Int64.toInt_mod, Int.tmod_def]
  have hsmall : (m % n).toInt.natAbs < n.toInt.natAbs := by
    rw [Int64.toInt_mod, Int.natAbs_tmod]
    exact Nat.mod_lt _ (Int.natAbs_pos.2 hzero)
  have hsum := toInt_withSignOf n hsmall
  have hrest : IsRest n.toInt (withSignOf n (m % n)).toInt := by
    rw [hsum]
    unfold IsRest
    split <;> omega
  refine ⟨?_, hrest⟩
  by_cases hcorrect : (m % n).toInt ≠ 0 ∧ ((m % n).toInt < 0 ↔ 0 ≤ n.toInt)
  · have hmultiple : m.toInt - n.toInt * (m.toInt.tdiv n.toInt - 1) =
        (withSignOf n (m % n)).toInt := by
      rw [hsum, if_pos hcorrect, ← hdivision]
      ring
    exact (sub_mul_floor hzero hmultiple hrest).symm
  · have hmultiple : m.toInt - n.toInt * m.toInt.tdiv n.toInt =
        (withSignOf n (m % n)).toInt := by
      rw [hsum, if_neg hcorrect, hdivision, add_zero]
    exact (sub_mul_floor hzero hmultiple hrest).symm

/-- **Integer arithmetic is exact**, but for one remainder.  Sums, differences, products, negations
and absolute values are those of the whole numbers, or an overflow exactly if these do not fit.  A
remainder by zero is a division by zero.  Every other remainder is `m - n * ⌊m / n⌋`, between zero
and the divisor, which always fits: all are found but that of the least integer by `-1`, which is
reported as an overflow. -/
theorem onInts_exact (m n : Int64) :
    IsExact (onInts .add m n) (m.toInt + n.toInt) ∧
    IsExact (onInts .sub m n) (m.toInt - n.toInt) ∧
    IsExact (onInts .mul m n) (m.toInt * n.toInt) ∧
    onInts .rem m 0 = .error .divisionByZero ∧
    (n ≠ 0 →
      ∃ rest : Int64, rest.toInt = m.toInt - n.toInt * ⌊(m.toInt / n.toInt : ℚ)⌋ ∧
        IsRest n.toInt rest.toInt ∧
        onInts .rem m n =
          if m = Int64.minValue ∧ n = -1 then .error .overflow else .ok (.int rest)) ∧
    IsExact (Value.negate (.int m)) (-m.toInt) ∧
    IsExact (callFunction "abs" [.int m]) |m.toInt| := by
  refine ⟨isExact_ofInt _, isExact_ofInt _, isExact_ofInt _, rfl, fun hn => ?_,
    isExact_ofInt _, ?_⟩
  · obtain ⟨hfloor, hrest⟩ := toInt_withSignOf_mod m hn
    refine ⟨withSignOf n (m % n), hfloor, hrest, ?_⟩
    rw [onInts, intRemainder, if_neg hn, truncatedRemainder?]
    by_cases hleast : m = Int64.minValue ∧ n = -1
    · rw [if_pos (.inr hleast), if_pos hleast]
    · rw [if_neg (not_or.2 ⟨hn, hleast⟩), if_neg hleast]
  · rw [Int.abs_eq_natAbs]
    exact isExact_ofInt _

/-- The least integer by `-3`: the quotient is cut to a number that fits, and the signs agree. -/
theorem onInts_exact_least :
    (-3 : Int64) ≠ 0 ∧
      ∃ rest : Int64, rest.toInt = -2 ^ 63 - -3 * ⌊(-2 ^ 63 / -3 : ℚ)⌋ ∧
        IsRest (-3) rest.toInt ∧ onInts .rem Int64.minValue (-3) = .ok (.int rest) := by
  have hne : (-3 : Int64) ≠ 0 := by decide
  obtain ⟨-, -, -, -, hrem, -, -⟩ := onInts_exact Int64.minValue (-3)
  obtain ⟨rest, hfloor, hrest, hvalue⟩ := hrem hne
  have hleast : Int64.minValue.toInt = -2 ^ 63 := Int64.toInt_minValue
  have hthree : (-3 : Int64).toInt = -3 := by decide
  rw [hleast, hthree] at hfloor
  rw [hthree] at hrest
  rw [if_neg (by decide)] at hvalue
  refine ⟨hne, rest, ?_, hrest, hvalue⟩
  rw [hfloor]
  norm_num

/-- The remainder of the least integer by `-1` is zero, and is reported as an overflow. -/
theorem overflow_of_least_remainder :
    onInts .rem Int64.minValue (-1) = .error .overflow ∧
      Int64.minValue.toInt -
        (-1 : Int64).toInt * ⌊(Int64.minValue.toInt / (-1 : Int64).toInt : ℚ)⌋ =
          (0 : Int64).toInt := by
  have hleast : Int64.minValue.toInt = -2 ^ 63 := Int64.toInt_minValue
  have hone : (-1 : Int64).toInt = -1 := by decide
  refine ⟨rfl, ?_⟩
  rw [hleast, hone, Int64.toInt_zero]
  norm_num

end Arithmetic

end FormValidation
