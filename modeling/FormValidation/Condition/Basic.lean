import FormValidation.Condition.Eval
import FormValidation.Condition.Reader

/-!
# Conditions

A condition is a text together with its tree. It is tested against a context; a condition that has
no value there does not hold, and neither does a text that is no condition.
-/

namespace FormValidation

/-- A condition that has been read. -/
structure Condition where
  /-- The text of the condition. -/
  source : String
  /-- Its tree. -/
  root : Expr

namespace Condition

/-- Reads a condition. -/
def read (source : String) : Except Fault Condition :=
  (parse source).map fun root => ⟨source, root⟩

/-- The value of a condition. -/
def evaluate (c : Condition) (context : Context) : Except Fault Value := c.root.eval context

/-- Whether the value of a condition counts as true. -/
def check (c : Condition) (context : Context) : Except Fault Bool :=
  (c.evaluate context).map Value.isTruthy

/-- Whether a condition holds; a fault means that it does not. -/
def test (c : Condition) (context : Context) : Bool :=
  match c.check context with
  | .ok b => b
  | .error _ => false

/-- Reads a text and checks it. -/
def checkText (source : String) (context : Context) : Except Fault Bool := do
  let c ← read source
  c.check context

/-- Whether a text is a condition that holds. -/
def decideText (source : String) (context : Context) : Bool :=
  match checkText source context with
  | .ok b => b
  | .error _ => false

/-- Deciding a text is testing the condition that it reads as, if it is one. -/
theorem decideText_eq (source : String) (context : Context) :
    decideText source context =
      match read source with
      | .ok c => c.test context
      | .error _ => false := by
  rw [decideText, checkText]
  cases read source <;> rfl

end Condition

end FormValidation
