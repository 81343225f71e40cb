import FormValidation.Number.Decimal
import Mathlib

/-!
# Whole numbers of moderate size have finite doubles

A decimal number that is too large overflows to an infinity when the nearest double is taken.  This
file says that the whole numbers of 128 bits do not (`Decimal.isFinite_toFloat`).  How they are
rounded does not matter for this: shifting a significand raises its exponent by at most the number of
its bits, this happens twice, and the result is far from the greatest exponent that there is
(`Double.moderate_round`).
-/

namespace FormValidation

namespace Double

open Float.Model (Format UnpackedFloat)
open Float.Model.UnpackedFloat

/-- A zero, or a number whose exponent is well below the greatest one. -/
inductive Moderate : UnpackedFloat → Prop
  | zero (sign : Sign) : Moderate (.zero sign)
  | finite (sign : Sign) (mantissa : Nat) {exponent : Int} (hpos : 0 < mantissa)
      (h : exponent ≤ 900) : Moderate (.finite sign mantissa exponent hpos)

/-- Packing a number of moderate exponent does not overflow. -/
lemma isFinite_pack {x : UnpackedFloat} (h : Moderate x) :
    (Float.Model.pack x).isFinite = true := by
  show (unpack Format.binary64 (UnpackedFloat.pack Format.binary64 x)).isFinite = true
  cases h with
  | zero sign => cases sign <;> decide
  | @finite sign mantissa exponent hpos hle =>
      have hroom : ¬ 2 ^ Format.binary64.exponentBits ≤ (exponent + Format.binary64.exponentBias +
          Format.binary64.mantissaBitsWithoutImplicit).toNat + 1 := by
        change ¬ 2048 ≤ (exponent + 1023 + 52).toNat + 1
        omega
      have hunpack : ∀ (biased : BitVec 11) (fraction : BitVec 52), biased ≠ -1#11 →
          (unpack Format.binary64 (packComponents Format.binary64 sign biased fraction)).isFinite =
            true := by
        intro biased fraction hbiased
        rw [unpack]
        simp only [unpackExponent_packComponents, unpackMantissa_packComponents, if_neg hbiased]
        split
        · split <;> rfl
        · rfl
      rw [UnpackedFloat.pack, if_neg hroom]
      split
      · refine hunpack _ _ fun heq => hroom ?_
        have hbits := congrArg BitVec.toNat heq
        rw [BitVec.toNat_ofNat] at hbits
        change _ % 2048 = 2047 at hbits
        change 2048 ≤ _ + 1
        omega
      · exact hunpack _ _ (by decide)

lemma mantissa_shiftRight_le (em : ExtendedMantissa) (n : Nat) :
    (em >>> n).mantissa ≤ em.mantissa := by
  induction n with
  | zero => exact le_refl _
  | succ n ih =>
      have hstep : em >>> (n + 1) = (em >>> n).shiftRightOne := rfl
      rw [hstep]
      exact (Nat.div_le_self _ 2).trans ih

lemma roundedMantissa_le (em : ExtendedMantissa) : em.roundedMantissa ≤ em.mantissa + 1 := by
  have hround : ∀ accuracy : Accuracy,
      accuracy.roundToNearestEven em.mantissa ≤ em.mantissa + 1 := by
    intro accuracy
    unfold Accuracy.roundToNearestEven
    split <;> omega
  exact hround em.accuracy

/-- A shift does not raise the significand, and the exponent by no more than the number of bits of
the significand. -/
lemma shiftToTargetExponent_le (accuracy : Accuracy) {mantissa bits : Nat} {exponent bound : Int}
    (hmantissa : mantissa < 2 ^ bits) (hexponent : exponent ≤ bound) (hbound : 0 ≤ bound) :
    let shifted := shiftToTargetExponent Format.binary64 mantissa exponent accuracy
    shifted.1.mantissa ≤ mantissa ∧ shifted.2 ≤ bound + bits := by
  have hlog : mantissa.log2 ≤ bits := by
    rcases Nat.eq_zero_or_pos mantissa with rfl | hpos
    · exact Nat.zero_le _
    · exact ((Nat.log2_lt hpos.ne').2 hmantissa).le
  constructor
  · refine (mantissa_shiftRight_le _ _).trans (le_of_eq ?_)
    unfold ExtendedMantissa.ofMantissaAndAccuracy
    split <;> rfl
  · change exponent + (((max ((mantissa.log2 : Int) + 1 + exponent - 53) (-1074)) -
      exponent).toNat : Int) ≤ bound + bits
    omega

/-- **Rounding** a significand of moderate size gives a number of moderate exponent. -/
lemma moderate_round (sign : Sign) {mantissa : Nat} {exponent : Int}
    (hmantissa : mantissa < 2 ^ 256) (hexponent : exponent ≤ 0) :
    Moderate (roundWithAccuracy Format.binary64 sign mantissa exponent .exact) := by
  obtain ⟨hfirst, hfirst'⟩ := shiftToTargetExponent_le .exact hmantissa hexponent (le_refl 0)
  have hrounded := ((roundedMantissa_le _).trans (Nat.succ_le_succ hfirst)).trans_lt
    (show mantissa + 1 < 2 ^ 257 by omega)
  obtain ⟨-, hsecond⟩ := shiftToTargetExponent_le .exact hrounded hfirst' (by omega)
  rw [roundWithAccuracy]
  dsimp only
  split
  · exact .zero sign
  · refine .finite sign _ _ (hsecond.trans ?_)
    norm_num

end Double

namespace Decimal

/-- A whole number is rounded from a significand with room for more digits. -/
lemma ofScientific_eq {n : Nat} (h : n ≠ 0) :
    Float.Model.UnpackedFloat.ofScientific Float.Model.Format.binary64 n 0 =
      Float.Model.UnpackedFloat.roundWithAccuracy Float.Model.Format.binary64 (.positive * .positive)
        (n <<< 53 * 1) (-53 + 0) .exact := by
  have hsmall : ¬ (0 : Int) < -(2 ^ 11 + (n.log2 : Int)) := by omega
  rw [Float.Model.UnpackedFloat.ofScientific, dif_neg h, if_neg (by decide), if_neg hsmall,
    if_pos (le_refl 0)]
  rfl

lemma isFinite_ofScientific {n : Nat} (hlow : 2 ^ 53 ≤ n) (hhigh : n < 2 ^ 128) :
    (Float.ofScientific n false 0).isFinite = true := by
  have hmodel : Float.ofScientific n false 0 = ⟨Float.Model.ofScientific n 0⟩ := by
    rw [Float.ofScientific, dif_neg (by omega)]
    rfl
  have hmantissa : n <<< 53 * 1 < 2 ^ 256 := by
    rw [Nat.shiftLeft_eq]
    omega
  have hmoderate := Double.moderate_round (.positive * .positive) hmantissa
    (show (-53 + 0 : Int) ≤ 0 by decide)
  rw [← ofScientific_eq (by omega)] at hmoderate
  rw [hmodel]
  exact Double.isFinite_pack hmoderate

/-- **A whole number of 128 bits** that is no smaller than the significands has a finite double. -/
lemma isFinite_toFloat {n : Nat} (hlow : 2 ^ 53 ≤ n) (hhigh : n < 2 ^ 128) :
    (Decimal.toFloat ⟨false, n, 0⟩).isFinite = true := by
  have hlength : (Numeral.ofNat n).length ≤ 39 :=
    (Nat.length_toDigits_le_iff (by decide) (by decide)).2 (by omega)
  have hsmall : ¬ (n = 0 ∨ ((Numeral.ofNat n).length : Int) + 0 < -400) := by omega
  have hlarge : ¬ 400 < ((Numeral.ofNat n).length : Int) + 0 := by omega
  have hfloat : Decimal.toFloat ⟨false, n, 0⟩ = Float.ofScientific n false 0 := by
    rw [toFloat]
    dsimp only
    rw [if_neg hsmall, if_neg hlarge]
    rfl
  rw [hfloat]
  exact isFinite_ofScientific hlow hhigh

end Decimal

end FormValidation
