import FormValidation.Value.Order

/-!
# Arithmetic of values

Integers are added, subtracted and multiplied exactly, or overflow; their remainder takes the sign
of the divisor, and their quotient is a double. Texts and lists can be joined, and dates and
moments subtracted from each other. With a double every number counts as one.
-/

namespace FormValidation

namespace Value

/-- The value of an integer that may be too large for one. -/
def ofInt (n : Int) : Except Fault Value :=
  match int64? n with
  | some word => .ok (.int word)
  | none => .error .overflow

/-- A number as a double. -/
def asFloat? : Value → Option Float
  | .int n => some n.toFloat
  | .float x => some x
  | _ => none

/-- Minus the value, for numbers. -/
def negate : Value → Except Fault Value
  | .int n => ofInt (-n.toInt)
  | .float x => .ok (.float (-x))
  | v => .error (.argument (.noNegative v.kind))

end Value

namespace Arithmetic

/-- The remainder of doubles, with the sign of the divisor. -/
def floatRemainder (x y : Float) : Float :=
  let rest := ((Double.ofFloat x).remainder (Double.ofFloat y)).toFloat
  if rest != 0.0 && (decide (rest < 0.0) != decide (y < 0.0)) then rest + y else rest

/-- An operator on doubles. -/
def onFloats (op : Arithmetic) (x y : Float) : Except Fault Value :=
  match op with
  | .add => .ok (.float (x + y))
  | .sub => .ok (.float (x - y))
  | .mul => .ok (.float (x * y))
  | .div => if y == 0.0 then .error .divisionByZero else .ok (.float (x / y))
  | .rem => if y == 0.0 then .error .divisionByZero else .ok (.float (floatRemainder x y))

/-- The remainder of a division whose quotient is cut toward zero; none if the divisor is zero or
the quotient overflows. -/
def truncatedRemainder? (m n : Int64) : Option Int64 :=
  if n = 0 ∨ m = Int64.minValue ∧ n = -1 then none else some (m % n)

/-- A remainder brought to the sign of the divisor. -/
def withSignOf (divisor rest : Int64) : Int64 :=
  if rest != 0 && (decide (rest < 0) != decide (divisor < 0)) then rest + divisor else rest

/-- The remainder of integers, with the sign of the divisor. It overflows when the quotient cut
toward zero does. -/
def intRemainder (m n : Int64) : Except Fault Value :=
  if n = 0 then .error .divisionByZero
  else
    match truncatedRemainder? m n with
    | some rest => .ok (.int (withSignOf n rest))
    | none => .error .overflow

/-- An operator on integers. -/
def onInts (op : Arithmetic) (m n : Int64) : Except Fault Value :=
  match op with
  | .add => Value.ofInt (m.toInt + n.toInt)
  | .sub => Value.ofInt (m.toInt - n.toInt)
  | .mul => Value.ofInt (m.toInt * n.toInt)
  | .div => onFloats .div m.toFloat n.toFloat
  | .rem => intRemainder m n

/-- An operator on values. -/
def apply (op : Arithmetic) (left right : Value) : Except Fault Value :=
  match op, left, right with
  | op, .int m, .int n => onInts op m n
  | .add, .text s, .text t => .ok (.text (s ++ t))
  | .add, .list xs, .list ys => .ok (.list (xs ++ ys))
  | .sub, .date a, .date b => .ok (.int (Int64.ofInt (a.dayNumber - b.dayNumber)))
  | .sub, .moment a, .moment b => .ok (.float (a.secondsSince b))
  | op, left, right =>
    match left.asFloat?, right.asFloat? with
    | some x, some y => onFloats op x y
    | _, _ => .error (Value.mismatch (.arithmetic op) left right)

end Arithmetic

namespace Comparison

/-- Whether a comparison holds between two values. -/
def holds (op : Comparison) (left right : Value) : Except Fault Bool :=
  match op with
  | .eq => .ok (left.looseEq right)
  | .notEq => .ok (!left.looseEq right)
  | .lt => (left.compare right).map (· == .lt)
  | .le => (left.compare right).map (· != .gt)
  | .gt => (left.compare right).map (· == .gt)
  | .ge => (left.compare right).map (· != .lt)
  | .isIn => right.contains left
  | .notIn => (right.contains left).map (!·)
  | .same => .ok (left.same right)
  | .notSame => .ok (!left.same right)

end Comparison

end FormValidation
