import FormValidation.Value.Basic
import FormValidation.Calendar.Written

/-!
# Equality of values

Two equalities. `Value.same` holds between values of one type with the same content; moments
count as the same when they are the same instant, and doubles as the hardware compares them.
`Value.looseEq` also compares integers with doubles, and dates and moments with texts that spell
them, inside lists and maps as well.
-/

namespace FormValidation

/-- The order of two doubles; none if one of them is no number. -/
def compareFloats (x y : Float) : Option Ordering :=
  if x < y then some .lt else if x == y then some .eq else if y < x then some .gt else none

namespace Value

/-- The order of two numbers. Two integers compare exactly; with a double, an integer counts as
the nearest double. Other values have none. -/
def compareNumbers : Value → Value → Option Ordering
  | .int m, .int n => some (compare m.toInt n.toInt)
  | .int m, .float y => compareFloats m.toFloat y
  | .float x, .int n => compareFloats x n.toFloat
  | .float x, .float y => compareFloats x y
  | _, _ => none

/-- Whether a text spells the date. -/
def spellsDate (s : String) (d : Date) : Bool := Date.read? s.toList == some d

/-- Whether a text spells the instant of the moment. -/
def spellsMoment (s : String) (m : Moment) : Bool :=
  match Moment.read? s.toList with
  | some read => read.same m
  | none => false

/-! ## Strict equality -/

mutual

/-- Same type and same content. -/
def same : Value → Value → Bool
  | .null, .null => true
  | .bool a, .bool b => a == b
  | .int m, .int n => m == n
  | .float x, .float y => x == y
  | .text s, .text t => s == t
  | .list xs, .list ys => sameItems xs ys
  | .map xs, .map ys => sameEntries xs ys
  | .date a, .date b => a == b
  | .moment a, .moment b => a.same b
  | .clock a, .clock b => a.now.same b.now
  | _, _ => false

/-- The same items in the same order. -/
def sameItems : List Value → List Value → Bool
  | [], [] => true
  | x :: xs, y :: ys => same x y && sameItems xs ys
  | _, _ => false

/-- The same keys with the same values. -/
def sameEntries : List (String × Value) → List (String × Value) → Bool
  | [], [] => true
  | (k, x) :: xs, (l, y) :: ys => k == l && same x y && sameEntries xs ys
  | _, _ => false

end

/-! ## Loose equality -/

mutual

/-- Equality across the types of numbers, and between dates or moments and their texts. -/
def looseEq : Value → Value → Bool
  | .int m, .int n => compareNumbers (.int m) (.int n) == some .eq
  | .int m, .float y => compareNumbers (.int m) (.float y) == some .eq
  | .float x, .int n => compareNumbers (.float x) (.int n) == some .eq
  | .float x, .float y => compareNumbers (.float x) (.float y) == some .eq
  | .date d, .text s => spellsDate s d
  | .text s, .date d => spellsDate s d
  | .moment m, .text s => spellsMoment s m
  | .text s, .moment m => spellsMoment s m
  | .list xs, .list ys => looseEqItems xs ys
  | .map xs, .map ys => xs.length == ys.length && looseEqEntries xs ys
  | a, b => same a b

/-- As many items, each loosely equal to its counterpart. -/
def looseEqItems : List Value → List Value → Bool
  | [], [] => true
  | x :: xs, y :: ys => looseEq x y && looseEqItems xs ys
  | _, _ => false

/-- Every entry on the left has a loosely equal value under its key on the right. -/
def looseEqEntries : List (String × Value) → List (String × Value) → Bool
  | [], _ => true
  | (k, x) :: xs, ys =>
    (match Entries.find? k ys with
      | some y => looseEq x y
      | none => false) && looseEqEntries xs ys

end

end Value

end FormValidation
