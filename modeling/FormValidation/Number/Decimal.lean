import FormValidation.Number.Numeral
import FormValidation.Number.Double

/-!
# Decimal fractions and doubles

`Decimal` is a natural number of units of a power of ten, with a sign. `Decimal.read?` reads the
usual notation with point and exponent; `Decimal.toFloat` is the nearest double, an even
significand deciding a tie. In the other direction `Decimal.shortest?` is the decimal with the
fewest digits that is still read back as the given double, the nearest of those, and the upper
one of two equally near.
-/

namespace FormValidation

/-- A decimal fraction: so many units of a power of ten. -/
structure Decimal where
  /-- Whether a minus sign stands in front. -/
  negative : Bool
  /-- How many units. -/
  units : Nat
  /-- The unit is ten to this power. -/
  exponent : Int
  deriving DecidableEq

namespace Decimal

/-! ## Reading -/

/-- The exponent part of a number: absent, or a mark with at least one digit. -/
def readExponent? : List Char → Option Int
  | [] => some 0
  | c :: cs => if c = 'e' ∨ c = 'E' then Numeral.int? cs else none

/-- Reads digits with an optional point among, before or behind them and an optional exponent;
at least one digit must stand before the exponent. -/
def readUnsigned? (cs : List Char) : Option Decimal :=
  let whole := cs.takeWhile Char.isDigit
  let rest := cs.dropWhile Char.isDigit
  let (fraction, rest) := match rest with
    | '.' :: rest => (rest.takeWhile Char.isDigit, rest.dropWhile Char.isDigit)
    | rest => ([], rest)
  if whole.isEmpty && fraction.isEmpty then none
  else (readExponent? rest).map fun exponent =>
    ⟨false, Nat.ofDigitChars 10 (whole ++ fraction) 0, exponent - fraction.length⟩

/-- Reads a number behind at most one sign. -/
def read? : List Char → Option Decimal
  | '-' :: cs => (readUnsigned? cs).map ({ · with negative := true })
  | '+' :: cs => readUnsigned? cs
  | cs => readUnsigned? cs

/-- The nearest double. Beyond ten to the 400th either way the answer is an infinity or a zero
without looking at the digits. -/
def toFloat (d : Decimal) : Float :=
  let size := (Numeral.ofNat d.units).length + d.exponent
  let magnitude :=
    if d.units = 0 ∨ size < -400 then Float.ofBits 0
    else if 400 < size then Float.ofBits 0x7ff0000000000000
    else Float.ofScientific d.units (d.exponent < 0) d.exponent.natAbs
  if d.negative then -magnitude else magnitude

/-- Reads an infinity, in a short or a long spelling, or a non-number, in letters of any case. -/
def readSpecial? (cs : List Char) : Option Float :=
  let word := cs.map Char.toLower
  if word = "inf".toList ∨ word = "infinity".toList then some (Float.ofBits 0x7ff0000000000000)
  else if word = "nan".toList then some (Float.ofBits 0x7ff8000000000000)
  else none

/-- Reads a double: a number or a special value behind at most one sign. -/
def readFloat? (cs : List Char) : Option Float :=
  match read? cs with
  | some d => some d.toFloat
  | none =>
    match cs with
    | '-' :: cs => (readSpecial? cs).map (-·)
    | '+' :: cs => readSpecial? cs
    | cs => readSpecial? cs

/-! ## The fewest digits that read back -/

/-- Compares a multiple of a power of ten with a multiple of a power of two. -/
def compareScaled (a : Nat) (i : Int) (b : Nat) (j : Int) : Ordering :=
  compare ((a * Nat.pow 10 i.toNat) <<< (-j).toNat) ((b * Nat.pow 10 (-i).toNat) <<< j.toNat)

/-- Whether `a` times ten to the `i` lies among the numbers that round to the double with
significand `m` and exponent `q`. The interval reaches half way to both neighbours, and its ends
belong to it when `m` is even; below a power of two the lower neighbour is half as far. -/
def roundsTo (m : Nat) (q : Int) (a : Nat) (i : Int) : Bool :=
  let lower := if m = Double.leadingBit ∧ -1074 < q then 4 * m - 1 else 4 * m - 2
  let upper := 4 * m + 2
  let above := compareScaled a i lower (q - 2)
  let below := compareScaled a i upper (q - 2)
  if m % 2 = 0 then above != .lt && below != .gt else above == .gt && below == .lt

/-- The power of ten of the leading digit, plus one: the least `k` with `m * 2 ^ q < 10 ^ k`,
for a positive `m`. -/
def magnitude (m : Nat) (q : Int) : Int :=
  let log := (Nat.log2 m : Int) + q
  let guess := log * 30103 / 100000 - 1
  let steps := (List.range 4).find? fun s : Nat => compareScaled 1 (guess + s) m q == .gt
  guess + (steps.getD 4 : Nat)

/-- Of the two multiples of ten to the `i` around the double, the one that is read back, and the
nearer one if both are; the upper one of two equally near. -/
def nearestOn (m : Nat) (q : Int) (i : Int) : Option Nat :=
  let down := ((m * Nat.pow 10 (-i).toNat) <<< q.toNat) / (Nat.pow 10 i.toNat <<< (-q).toNat)
  let up := down + 1
  match roundsTo m q down i, roundsTo m q up i with
  | true, true => if compareScaled (2 * down + 1) i (2 * m) q == .gt then some down else some up
  | true, false => some down
  | false, true => some up
  | false, false => none

/-- Moves trailing zeros of the units into the exponent; `fuel` bounds how many. -/
def stripZeros : (fuel : Nat) → Nat → Int → Nat × Int
  | 0, a, i => (a, i)
  | fuel + 1, a, i => if a ≠ 0 ∧ a % 10 = 0 then stripZeros fuel (a / 10) (i + 1) else (a, i)

/-- The units and the exponent of the shortest decimal that is read back as the double with
significand `m` and exponent `q`. Seventeen digits always suffice. -/
def shortest (m : Nat) (q : Int) : Nat × Int :=
  if m = 0 then (0, 0)
  else
    let top := magnitude m q
    let found := (List.range 17).findSome? fun n : Nat =>
      (nearestOn m q (top - (n + 1))).map fun a => (a, top - (n + 1))
    let (a, i) := found.getD ((m * Nat.pow 5 (-q).toNat) <<< q.toNat, min q 0)
    stripZeros 20 a i

/-! ## Writing -/

/-- Positional notation: units of ten to the `i` without an exponent, and with a point only if
there is a fraction. -/
def positional (units : Nat) (i : Int) : List Char :=
  let digits := Numeral.ofNat units
  if 0 ≤ i then digits ++ List.replicate i.toNat '0'
  else
    let places := (-i).toNat
    let digits := List.replicate (places + 1 - digits.length) '0' ++ digits
    digits.take (digits.length - places) ++ '.' :: digits.drop (digits.length - places)

/-- The text of a double: an integral number with the fraction `.0`, any other number with the
fewest digits that read back, never with an exponent. -/
def text (x : Float) : List Char :=
  match Double.ofFloat x with
  | .nan => "NaN".toList
  | .infinite negative => (if negative then "-inf" else "inf").toList
  | .finite negative m q =>
    let sign := if negative then ['-'] else []
    if (Double.finite negative m q).isIntegral then
      sign ++ Numeral.ofNat (Double.scaled m q) ++ ['.', '0']
    else
      let (units, i) := shortest m q
      sign ++ positional units i

end Decimal

end FormValidation
