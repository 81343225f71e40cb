/-!
# What a double stands for

A floating point number of 64 bits is not a number, an infinity, or a natural significand times
a power of two with a sign. `Double.ofFloat` reads this off the bits and `Double.toFloat` puts a
representable number back into bits. Truncation and remainder are exact on this reading, so
they need no rounding: `Double.trunc?` is the integer part, `Double.remainder` the part of the
first number that no whole multiple of the second covers, with the sign of the first.
-/

namespace FormValidation

/-- The number that a word of 64 bits stands for as a double. -/
inductive Double where
  | nan
  | infinite (negative : Bool)
  /-- The significand times two to the exponent; a zero keeps its sign. -/
  | finite (negative : Bool) (significand : Nat) (exponent : Int)
  deriving DecidableEq

namespace Double

/-- The bit that is set in the word of a negative number. -/
def signBit : Nat := 0x8000000000000000

/-- The leading bit of a significand, which a word leaves out unless the exponent is the least. -/
def leadingBit : Nat := 0x10000000000000

/-- So many times a power of two, cut to a whole number. -/
def scaled (significand : Nat) (exponent : Int) : Nat :=
  significand <<< exponent.toNat >>> (-exponent).toNat

/-- The reading of a double's bits: one sign, eleven bits of exponent, 52 of fraction. -/
def ofFloat (x : Float) : Double :=
  let bits := x.toBits.toNat
  let negative := decide (signBit ≤ bits)
  let exponent := (bits >>> 52) % 2048
  let fraction := bits % leadingBit
  if exponent = 2047 then
    if fraction = 0 then .infinite negative else .nan
  else if exponent = 0 then .finite negative fraction (-1074)
  else .finite negative (leadingBit + fraction) ((exponent : Int) - 1075)

/-- The double of a number that has one: the significand is shifted to 53 bits, or to as many
as the least exponent leaves. -/
def toFloat : Double → Float
  | .nan => Float.ofBits 0x7ff8000000000000
  | .infinite negative =>
    if negative then Float.ofBits 0xfff0000000000000 else Float.ofBits 0x7ff0000000000000
  | .finite negative significand exponent =>
    let sign := if negative then signBit else 0
    let target := max (exponent + (Nat.log2 significand : Int) - 52) (-1074)
    let shifted := scaled significand (exponent - target)
    let magnitude :=
      if shifted < leadingBit then shifted
      else (target + 1075).toNat * leadingBit + (shifted - leadingBit)
    Float.ofBits (UInt64.ofNat (sign + magnitude))

/-- The integer part, cut toward zero; infinities and non-numbers have none. -/
def trunc? : Double → Option Int
  | .finite negative significand exponent =>
    let magnitude := scaled significand exponent
    some (if negative then -(magnitude : Int) else magnitude)
  | _ => none

/-- Whether the number is finite and has no fraction. -/
def isIntegral : Double → Bool
  | .finite _ significand exponent =>
    significand >>> (-exponent).toNat <<< (-exponent).toNat == significand
  | _ => false

/-- The remainder of a division whose quotient is cut toward zero. -/
def remainder : Double → Double → Double
  | .finite negative m p, .finite _ n q =>
    if n = 0 then .nan
    else
      let unit := min p q
      .finite negative (scaled m (p - unit) % scaled n (q - unit)) unit
  | .finite negative m p, .infinite _ => .finite negative m p
  | _, _ => .nan

end Double

end FormValidation
