import FormValidation.Condition.Eval
import Mathlib.Tactic.Lemma

/-!
# Chains of comparisons are conjunctions

A chain of comparisons, such as `0 < x < limit`, is evaluated by a loop of its own: it carries the
value of the operand on the left along, so that no operand is evaluated twice, and it gives `true`
or `false`.  A conjunction is evaluated by another loop, which evaluates its operands in full and
gives the value of the one that decides.  This file says that the first is the second on the single
comparisons of neighbours (`Expr.links`), in every context and with every fault.

The two loops are compared behind an operand whose value is known (`Expr.evalChain_links`).  What
makes them agree is that a single comparison that holds has the value `true`, so `true` is both what
the conjunction has come to and what the chain gives where nothing is left to compare.
-/

namespace FormValidation

namespace Expr

/-- The single comparisons of neighbours in a chain of comparisons, from the left. -/
def links : Expr → List (Comparison × Expr) → List Expr
  | _, [] => []
  | left, (op, right) :: rest => .comparison left [(op, right)] :: links right rest

variable {c : Context}

/-- A fault on the left is a fault of every comparison. -/
lemma eval_comparison_of_error {left : Expr} {fault : Fault} (h : left.eval c = .error fault)
    (rest : List (Comparison × Expr)) : (comparison left rest).eval c = .error fault := by
  rw [eval, h]
  rfl

/-- A single comparison evaluates the operand on the right and then compares. -/
lemma eval_comparison_single {left : Expr} {v : Value} (h : left.eval c = .ok v) (op : Comparison)
    (right : Expr) :
    (comparison left [(op, right)]).eval c = (do
      let w ← right.eval c
      let holds ← op.holds v w
      .ok (.bool holds)) := by
  rw [eval, h]
  show evalComparisons c v [(op, right)] = _
  rw [evalComparisons]
  cases right.eval c with
  | error fault => rfl
  | ok w =>
      show (op.holds v w >>= fun holds => _) = (op.holds v w >>= fun holds => _)
      cases op.holds v w with
      | error fault => rfl
      | ok holds => cases holds <;> rfl

/-- **The two loops agree** behind an operand whose value is known, if the conjunction has come to
`true` so far. -/
lemma evalChain_links {left : Expr} {v : Value} (h : left.eval c = .ok v)
    (rest : List (Comparison × Expr)) :
    evalChain c .and (.bool true) (links left rest) = evalComparisons c v rest := by
  induction rest generalizing left v with
  | nil => rfl
  | cons link rest ih =>
      obtain ⟨op, right⟩ := link
      rw [links, evalChain, evalComparisons, eval_comparison_single h]
      cases hright : right.eval c with
      | error fault => rfl
      | ok w =>
          show (op.holds v w >>= fun holds => Except.ok (Value.bool holds)) >>= _ =
            op.holds v w >>= _
          cases op.holds v w with
          | error fault => rfl
          | ok holds =>
              cases holds with
              | false => rfl
              | true => exact ih hright

/-- **A chain of comparisons means the conjunction of its links.**  In every context the chain
`x₀ op₁ x₁ op₂ x₂ … opₙ xₙ`, of one comparison or more, has the same value or the same fault as
`x₀ op₁ x₁ and x₁ op₂ x₂ and … and xₙ₋₁ opₙ xₙ`. -/
theorem eval_comparison_eq_links (c : Context) (first second : Expr) (op : Comparison)
    (rest : List (Comparison × Expr)) :
    (comparison first ((op, second) :: rest)).eval c =
      (chain .and (links first ((op, second) :: rest))).eval c := by
  cases hfirst : first.eval c with
  | error fault =>
      rw [eval_comparison_of_error hfirst, eval, links, evalChain,
        eval_comparison_of_error hfirst]
      rfl
  | ok v =>
      -- What a conjunction has come to does not matter before its first operand.
      have hstart : evalChain c .and .null (links first ((op, second) :: rest)) =
          evalChain c .and (.bool true) (links first ((op, second) :: rest)) := rfl
      rw [eval, eval, hfirst, hstart, evalChain_links hfirst]
      rfl

example (x y z : Expr) : links x [(.lt, y), (.isIn, z)] =
    [comparison x [(.lt, y)], comparison y [(.isIn, z)]] := rfl

end Expr

end FormValidation
