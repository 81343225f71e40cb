import FormValidation.Condition.Access
import FormValidation.Condition.Expr
import FormValidation.Condition.Method
import FormValidation.KeyMap

/-!
# The value of a condition

A condition has a value in a context, which binds the names that it may use, or a fault.
`Expr.eval` follows the tree: operands are evaluated from left to right, chains of connectives
stop at the operand that decides and have its value, and chains of comparisons stop at the first
one that does not hold.
-/

namespace FormValidation

/-- The names that a condition may use. -/
abbrev Context := KeyMap Value

/-- Whether an operand decides a chain of the connective. -/
def Connective.decides (op : Connective) (v : Value) : Bool :=
  match op with
  | .and => !v.isTruthy
  | .or => v.isTruthy

namespace Expr

mutual

/-- The value of a tree. -/
def eval (context : Context) : Expr → Except Fault Value
  | .literal v => .ok v
  | .list items => (evalAll context items).map .list
  | .name x =>
    match context.find? x with
    | some v => .ok v
    | none => .error (.unknownName x)
  | .not operand => (eval context operand).map fun v => .bool (!v.isTruthy)
  | .neg operand => eval context operand >>= Value.negate
  | .arithmetic op left right => do
    let l ← eval context left
    let r ← eval context right
    op.apply l r
  | .chain op operands => evalChain context op .null operands
  | .comparison first rest => do
    let v ← eval context first
    evalComparisons context v rest
  | .subscript target index => do
    let t ← eval context target
    let i ← eval context index
    t.subscript i
  | .member target field => do
    let t ← eval context target
    t.member field
  | .call function arguments => do
    let vs ← evalAll context arguments
    callFunction function vs
  | .method target function arguments => do
    let t ← eval context target
    let vs ← evalAll context arguments
    t.callMethod function vs

/-- The values of several trees, from the left. -/
def evalAll (context : Context) : List Expr → Except Fault (List Value)
  | [] => .ok []
  | e :: rest => do
    let v ← eval context e
    let vs ← evalAll context rest
    .ok (v :: vs)

/-- The value of the operand that decides a chain, or of the last one; `last` is the value of the
operand before. -/
def evalChain (context : Context) (op : Connective) (last : Value) :
    List Expr → Except Fault Value
  | [] => .ok last
  | e :: rest => do
    let v ← eval context e
    if op.decides v then .ok v else evalChain context op v rest

/-- Whether all comparisons of a chain hold, given the value of the operand on the left. -/
def evalComparisons (context : Context) (left : Value) :
    List (Comparison × Expr) → Except Fault Value
  | [] => .ok (.bool true)
  | (op, e) :: rest => do
    let right ← eval context e
    let holds ← op.holds left right
    if holds then evalComparisons context right rest else .ok (.bool false)

end

end Expr

end FormValidation
