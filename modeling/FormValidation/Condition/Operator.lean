/-!
# Operators of conditions

The operators of the condition language and how they are written.
-/

namespace FormValidation

/-- Arithmetic operators. -/
inductive Arithmetic where
  | add
  | sub
  | mul
  | div
  | rem
  deriving DecidableEq

/-- The sign of an arithmetic operator. -/
def Arithmetic.sign : Arithmetic → String
  | .add => "+"
  | .sub => "-"
  | .mul => "*"
  | .div => "/"
  | .rem => "%"

/-- Connectives that stop at the operand that decides. -/
inductive Connective where
  | and
  | or
  deriving DecidableEq

/-- The word for a connective. -/
def Connective.word : Connective → String
  | .and => "and"
  | .or => "or"

/-- Comparison operators. -/
inductive Comparison where
  | eq
  | notEq
  | lt
  | le
  | gt
  | ge
  | isIn
  | notIn
  | same
  | notSame
  deriving DecidableEq

/-- The spelling of a comparison operator. -/
def Comparison.spelling : Comparison → String
  | .eq => "=="
  | .notEq => "!="
  | .lt => "<"
  | .le => "<="
  | .gt => ">"
  | .ge => ">="
  | .isIn => "in"
  | .notIn => "not in"
  | .same => "is"
  | .notSame => "is not"

end FormValidation
