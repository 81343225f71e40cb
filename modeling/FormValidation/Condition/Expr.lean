import FormValidation.Value.Basic
import FormValidation.Condition.Operator

/-!
# Condition trees

The tree of a condition. It has no node that reaches outside: a name is looked up among the
bindings that the condition is given, and calls name one of a fixed set of functions and methods.
-/

namespace FormValidation

/-- A condition as a tree. -/
inductive Expr where
  | literal (value : Value)
  | list (items : List Expr)
  | name (name : String)
  | not (operand : Expr)
  | neg (operand : Expr)
  | arithmetic (op : Arithmetic) (left right : Expr)
  /-- A chain of one connective, of at least two operands. -/
  | chain (op : Connective) (operands : List Expr)
  /-- A chain of comparisons, each with the operand to its right. -/
  | comparison (first : Expr) (rest : List (Comparison × Expr))
  | subscript (target index : Expr)
  | member (target : Expr) (name : String)
  | call (function : String) (arguments : List Expr)
  | method (target : Expr) (name : String) (arguments : List Expr)

instance : Inhabited Expr := ⟨.literal .null⟩

end FormValidation
