import FormValidation.Condition.Basic
import FormValidation.Proofs.Condition.RoundTrip

/-!
# Integers as conditions

An integer in decimal is a condition: its digits, or a minus sign and the digits behind it.  The
sign is an operator, so the digits are read as an integer of their own and must fit by themselves.
This file says that every integer but the least one can be written so and then has itself as its
value (`Condition.value_of_written`), while `int` reads the sign and the digits as one number and so
takes back what `str` writes for every integer.

The digits of the least integer are one more than fits.  Its text is no condition
(`Condition.least_integer_unwritten`).
-/

namespace FormValidation

/-- An integer in decimal, behind a minus sign if it is negative. -/
def decimal (n : Int64) : String := String.ofList (Numeral.ofInt n.toInt)

/-! ## Reading integers back -/

namespace Value

lemma trim_ofInt (z : Int) : Text.trim (Numeral.ofInt z) = Numeral.ofInt z := by
  have hdigits : ∀ c ∈ Numeral.ofNat z.natAbs, Text.isBlank c = false := fun _ hc =>
    Text.isBlank_of_isDigit (Numeral.isDigit_of_mem_ofNat hc)
  apply Text.trim_eq_self
  rw [Numeral.ofInt]
  split
  · exact List.forall_mem_cons.2 ⟨rfl, hdigits⟩
  · exact hdigits

/-- **What is written of an integer is read back as the integer.** -/
lemma toInteger_decimal (n : Int64) : toInteger (.text (decimal n)) = .ok (.int n) := by
  have hread : (Numeral.int? (Text.trim (decimal n).toList)).bind int64? = some n := by
    rw [decimal, String.toList_ofList, trim_ofInt, Numeral.int?_ofInt, Option.bind_some,
      int64?_toInt]
  rw [toInteger, hread]

end Value

lemma callFunction_str (n : Int64) : callFunction "str" [.int n] = .ok (.text (decimal n)) := rfl

lemma callFunction_int (n : Int64) : callFunction "int" [.text (decimal n)] = .ok (.int n) := by
  have hcall : ∀ v, callFunction "int" [v] = v.toInteger := fun _ => rfl
  rw [hcall, Value.toInteger_decimal]

/-! ## Integers as conditions -/

namespace Condition

/-- The tree that an integer in decimal is read as. -/
def ofInt (n : Int64) : Expr :=
  if n.toInt < 0 then .neg (.literal (.int (-n))) else .literal (.int n)

lemma spells_minus {s : String} {ts : List Token} (h : SpellsBefore EndsNumber s ts) :
    SpellsBefore EndsNumber ("-" ++ s) (.minus :: ts) :=
  SpellsBefore.append (p := fun _ => True)
    (.of_reads ⟨'-', [], rfl, rfl, fun _ _ _ => rfl⟩) h fun _ _ => trivial

/-- What is left of an integer without its sign fits, but for the least one. -/
lemma toInt_neg {n : Int64} (h : n ≠ Int64.minValue) : (-n).toInt = -n.toInt := by
  have hlow := n.le_toInt
  have hhigh := n.toInt_lt
  have hleast : n.toInt ≠ -2 ^ 63 := fun heq =>
    h (Int64.toInt_inj.1 (heq.trans Int64.toInt_minValue.symm))
  rw [Int64.toInt_neg]
  apply Int.bmod_eq_of_le <;> omega

lemma utf8ByteSize_decimal_le (n : Int64) : (decimal n).utf8ByteSize ≤ maxConditionBytes := by
  have hlow := n.le_toInt
  have hhigh := n.toInt_lt
  have hlength : (Numeral.ofNat n.toInt.natAbs).length ≤ 19 :=
    (Nat.length_toDigits_le_iff (by decide) (by decide)).2 (by omega)
  have hdigits : (String.ofList (Numeral.ofNat n.toInt.natAbs)).utf8ByteSize =
      (Numeral.ofNat n.toInt.natAbs).length :=
    utf8ByteSize_eq_length fun c hc => utf8Size_of_isDigit (Numeral.isDigit_of_mem_ofNat hc)
  have hminus : '-'.utf8Size = 1 := rfl
  rw [decimal, Numeral.ofInt, maxConditionBytes]
  split
  · rw [utf8ByteSize_ofList_cons, hdigits, hminus]
    omega
  · omega

/-- **An integer in decimal is read as itself**, behind a sign if it is negative. -/
lemma parse_decimal {n : Int64} (h : n ≠ Int64.minValue) : parse (decimal n) = .ok (ofInt n) := by
  have hend : EndsNumber [] := fun _ h => nomatch h
  have hsize := utf8ByteSize_decimal_le n
  by_cases hneg : n.toInt < 0
  · have habs := toInt_neg h
    have hdigits := derives_digits (n := -n) (by omega)
    have hminus : decimal n = "-" ++ String.ofList (Numeral.ofNat (-n).toInt.natAbs) := by
      rw [decimal, Numeral.ofInt, if_pos hneg, habs, Int.natAbs_neg, String.ofList_cons]
      rfl
    have hread := reaches_parse (spells_minus (spells_ofNat (-n).toInt.natAbs)) hend
      (derives_disjunction_of_sum
        (derives_sum_of_signed (.minus (derives_signed_of_primary hdigits))))
      (hminus ▸ hsize)
    rw [hminus, ofInt, if_pos hneg]
    exact hread
  · have hdigits := derives_digits (n := n) (by omega)
    have hplain : decimal n = String.ofList (Numeral.ofNat n.toInt.natAbs) := by
      rw [decimal, Numeral.ofInt, if_neg hneg]
    have hread := reaches_parse (spells_ofNat n.toInt.natAbs) hend
      (derives_disjunction_of_sum (derives_sum_of_signed (derives_signed_of_primary hdigits)))
      (hplain ▸ hsize)
    rw [hplain, ofInt, if_neg hneg]
    exact hread

lemma eval_ofInt {n : Int64} (h : n ≠ Int64.minValue) (context : Context) :
    (ofInt n).eval context = .ok (.int n) := by
  rw [ofInt]
  split
  · show Value.ofInt (-(-n).toInt) = _
    rw [toInt_neg h, neg_neg, Value.ofInt, int64?_toInt]
  · rfl

/-- A call of a function on one argument. -/
lemma eval_call_single {context : Context} {argument : Expr} {v : Value}
    (h : argument.eval context = .ok v) (function : String) :
    (Expr.call function [argument]).eval context = callFunction function [v] := by
  rw [Expr.eval, Expr.evalAll, h]
  rfl

/-- The text of the least integer is no condition, since its digits do not fit. -/
lemma parse_decimal_minValue : parse (decimal Int64.minValue) =
    .error (.invalidNumber "9223372036854775808" 1) := by
  have hfault : (match parse (decimal Int64.minValue) with
      | .error fault => some fault
      | .ok _ => none) = some (.invalidNumber "9223372036854775808" 1) := by decide +kernel
  split at hfault
  · rename_i fault hparse
    rw [hparse, Option.some.inj hfault]
  · cases hfault

/-- **Every integer but the least one can be written.**  In decimal it is a condition that has the
integer as its value in every context, and the text of the least integer is no condition.  `str`
writes every integer in decimal, and `int` takes every integer back from there. -/
theorem value_of_written (n : Int64) :
    callFunction "str" [.int n] = .ok (.text (decimal n)) ∧
    callFunction "int" [.text (decimal n)] = .ok (.int n) ∧
    ∀ context : Context,
      (Expr.call "int" [.call "str" [.literal (.int n)]]).eval context = .ok (.int n) ∧
      (do
        let c ← read (decimal n)
        c.evaluate context) =
        if n = Int64.minValue then .error (.invalidNumber "9223372036854775808" 1)
        else .ok (.int n) := by
  refine ⟨callFunction_str n, callFunction_int n, fun context => ⟨?_, ?_⟩⟩
  · have hstr : (Expr.call "str" [.literal (.int n)]).eval context = .ok (.text (decimal n)) :=
      (eval_call_single rfl "str").trans (callFunction_str n)
    rw [eval_call_single hstr, callFunction_int]
  by_cases h : n = Int64.minValue
  · subst h
    rw [if_pos rfl, read, parse_decimal_minValue]
    rfl
  · rw [if_neg h, read, parse_decimal h]
    exact eval_ofInt h context

/-- The text of the least integer is no condition, although `int` takes the integer back from it. -/
theorem least_integer_unwritten :
    callFunction "str" [.int Int64.minValue] = .ok (.text "-9223372036854775808") ∧
      callFunction "int" [.text "-9223372036854775808"] = .ok (.int Int64.minValue) ∧
      read "-9223372036854775808" = .error (.invalidNumber "9223372036854775808" 1) := by
  have htext : decimal Int64.minValue = "-9223372036854775808" := by decide +kernel
  rw [← htext]
  refine ⟨callFunction_str Int64.minValue, callFunction_int Int64.minValue, ?_⟩
  rw [read, parse_decimal_minValue]
  rfl

end Condition

end FormValidation
