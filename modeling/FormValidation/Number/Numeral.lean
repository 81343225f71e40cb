/-!
# Decimal numerals

Natural numbers and integers as text in base ten, and the integers of 64 bits.

`Numeral.nat?` reads digits alone and `Numeral.int?` one optional sign before them; white space,
separators and empty texts are refused. `Numeral.ofInt` is the usual spelling, and reading it
back gives the number (`Numeral.nat?_ofNat`, `Numeral.int?_ofInt`); so does reading it with leading
zeros (`Numeral.nat?_padded`). `int64?` keeps an integer that 64 bits with a sign can hold.
-/

namespace FormValidation

/-- The integer as a word of 64 bits, if it fits. -/
def int64? (n : Int) : Option Int64 :=
  if Int64.minValue.toInt ≤ n ∧ n ≤ Int64.maxValue.toInt then some (Int64.ofInt n) else none

/-- A word is kept unchanged. -/
theorem int64?_toInt (n : Int64) : int64? n.toInt = some n := by
  rw [int64?, if_pos ⟨Int64.le_iff_toInt_le.1 (Int64.minValue_le n),
    Int64.le_iff_toInt_le.1 (Int64.le_maxValue n)⟩, Int64.ofInt_toInt]

namespace Numeral

/-- Reads a non-empty run of decimal digits, leading zeros included. -/
def nat? (cs : List Char) : Option Nat :=
  if !cs.isEmpty && cs.all Char.isDigit then some (Nat.ofDigitChars 10 cs 0) else none

/-- Reads digits behind at most one sign. -/
def int? : List Char → Option Int
  | '-' :: cs => (nat? cs).map (fun n : Nat => -(n : Int))
  | '+' :: cs => (nat? cs).map (fun n : Nat => (n : Int))
  | cs => (nat? cs).map (fun n : Nat => (n : Int))

/-- The digits of a natural number, without leading zeros. -/
def ofNat (n : Nat) : List Char := Nat.toDigits 10 n

/-- The digits of an integer, behind a minus sign if it is negative. -/
def ofInt (n : Int) : List Char := if n < 0 then '-' :: ofNat n.natAbs else ofNat n.natAbs

/-- The digits of a natural number, with leading zeros up to the given width. -/
def padded (width n : Nat) : List Char :=
  List.replicate (width - (ofNat n).length) '0' ++ ofNat n

theorem isDigit_of_mem_ofNat {n : Nat} {c : Char} (h : c ∈ ofNat n) : c.isDigit :=
  Nat.isDigit_of_mem_toDigits (by decide) (by decide) h

theorem ofNat_ne_nil (n : Nat) : ofNat n ≠ [] := Nat.toDigits_ne_nil

theorem nat?_ofNat (n : Nat) : nat? (ofNat n) = some n := by
  have hall : (ofNat n).all Char.isDigit = true :=
    List.all_eq_true.2 fun _ hc => isDigit_of_mem_ofNat hc
  have hne : (ofNat n).isEmpty = false := by
    simpa using ofNat_ne_nil n
  simp only [nat?, hall, hne, Bool.not_false, Bool.and_self, if_true]
  exact congrArg some Nat.ofDigitChars_ten_toDigits

/-! ## Leading zeros -/

theorem padded_ne_nil (width n : Nat) : padded width n ≠ [] :=
  List.append_ne_nil_of_right_ne_nil _ (ofNat_ne_nil n)

theorem isDigit_of_mem_padded {width n : Nat} {c : Char} (h : c ∈ padded width n) : c.isDigit := by
  rcases List.mem_append.1 h with h | h
  · rw [(List.mem_replicate.1 h).2]
    decide
  · exact isDigit_of_mem_ofNat h

/-- A number that has at most so many digits gets exactly so many. -/
theorem length_padded {width n : Nat} (h : (ofNat n).length ≤ width) :
    (padded width n).length = width := by
  rw [padded, List.length_append, List.length_replicate]
  omega

theorem ofDigitChars_zeros (count : Nat) :
    Nat.ofDigitChars 10 (List.replicate count '0') 0 = 0 := by
  induction count with
  | zero => rfl
  | succ count ih =>
    rw [List.replicate_succ, Nat.ofDigitChars_cons]
    exact ih

theorem ofDigitChars_padded (width n : Nat) : Nat.ofDigitChars 10 (padded width n) 0 = n := by
  rw [padded, Nat.ofDigitChars_append, ofDigitChars_zeros]
  exact Nat.ofDigitChars_ten_toDigits

theorem nat?_padded (width n : Nat) : nat? (padded width n) = some n := by
  have hall : (padded width n).all Char.isDigit = true :=
    List.all_eq_true.2 fun _ hc => isDigit_of_mem_padded hc
  have hne : (padded width n).isEmpty = false := by
    simpa using padded_ne_nil width n
  simp only [nat?, hall, hne, ofDigitChars_padded, Bool.not_false, Bool.and_self, if_true]

/-! ## Signs -/

theorem int?_eq_of_digit {c : Char} {cs : List Char} (h : c.isDigit) :
    int? (c :: cs) = (nat? (c :: cs)).map (fun n : Nat => (n : Int)) := by
  unfold int?
  split
  next heq => injection heq with h1 h2; subst h1; exact absurd h (by decide)
  next heq => injection heq with h1 h2; subst h1; exact absurd h (by decide)
  next => rfl

theorem int?_ofNat (n : Nat) : int? (ofNat n) = some (n : Int) := by
  have hread := nat?_ofNat n
  have hdigit : ∀ c ∈ ofNat n, c.isDigit := fun _ => isDigit_of_mem_ofNat
  match hcs : ofNat n with
  | [] => exact absurd hcs (ofNat_ne_nil n)
  | c :: cs =>
    rw [hcs] at hread hdigit
    rw [int?_eq_of_digit (hdigit c List.mem_cons_self), hread]
    rfl

theorem int?_ofInt (n : Int) : int? (ofInt n) = some n := by
  rw [ofInt]
  split
  next h =>
    have hneg : -((n.natAbs : Nat) : Int) = n := by omega
    exact (congrArg (Option.map fun k : Nat => -(k : Int)) (nat?_ofNat n.natAbs)).trans
      (congrArg some hneg)
  next h => rw [int?_ofNat]; congr 1; omega

end Numeral

end FormValidation
