import FormValidation.Value.Basic
import FormValidation.Condition.Operator

/-!
# What can be wrong with a condition

The causes for which a text is no condition and those for which a condition has no value, each
with what its message needs. `Fault.isParseFault` tells the two groups apart; positions are
offsets in bytes.
-/

namespace FormValidation

/-- The largest size of a condition, in bytes. -/
def maxConditionBytes : Nat := 16384

/-- How deeply a condition may be nested. -/
def maxNesting : Nat := 64

/-- What a text lacks at the place where reading it stops. -/
inductive Expected where
  /-- Both characters of an operator. -/
  | operator (spelling : String)
  /-- Any token. -/
  | token
  /-- An operand. -/
  | operand
  /-- The name behind a point. -/
  | memberName
  | closeIndex
  | closeGroup
  | closeItems
  | closeArguments
  deriving DecidableEq

/-- The words for what is lacking. -/
def Expected.words : Expected → String
  | .operator spelling => spelling
  | .token => "identifier, literal, or operator"
  | .operand => "literal, name, or expression"
  | .memberName => "attribute or method name"
  | .closeIndex => "`]`"
  | .closeGroup => "`)`"
  | .closeItems => "`]` after list items"
  | .closeArguments => "`)` after arguments"

/-- An operation that is not defined for all types. -/
inductive Operation where
  | ordering
  | membership
  | subscript
  | arithmetic (op : Arithmetic)
  deriving DecidableEq

/-- The label of an operation in messages. -/
def Operation.label : Operation → String
  | .ordering => "ordering"
  | .membership => "in"
  | .subscript => "subscript"
  | .arithmetic op => op.sign

/-- Why an operation refuses its operand or a call its arguments. -/
inductive ArgumentFault where
  | count (name : String) (wanted given : Nat)
  | noNegative (kind : ValueKind)
  | noAbsolute (kind : ValueKind)
  | noLength (kind : ValueKind)
  | noInteger (kind : ValueKind)
  | notInteger (text : String)
  | noFloat (kind : ValueKind)
  | notFloat (text : String)
  | emptySequence (name : String)
  | candidateNotText (method : String)
  | patternNotText (method : String) (kind : ValueKind)
  | noDate (kind : ValueKind)
  | notDate (text : String)
  | noMoment (kind : ValueKind)
  | notMoment (text : String)
  deriving DecidableEq

/-- The text set off by marks that point out a piece of a condition. -/
def marked (s : String) : String := "`" ++ s ++ "`"

/-- The message for refused arguments. -/
def ArgumentFault.message : ArgumentFault → String
  | .count name wanted given =>
    name ++ "() takes " ++ wanted.repr ++ " argument(s), got " ++ given.repr
  | .noNegative kind => "bad operand type for unary -: " ++ marked kind.name
  | .noAbsolute kind => "bad operand type for abs(): " ++ marked kind.name
  | .noLength kind => "object of type " ++ marked kind.name ++ " has no len()"
  | .noInteger kind => "int() of " ++ marked kind.name
  | .notInteger text => "invalid literal for int(): " ++ marked text
  | .noFloat kind => "float() of " ++ marked kind.name
  | .notFloat text => "could not convert " ++ marked text ++ " to float"
  | .emptySequence name => name ++ "() arg is an empty sequence"
  | .candidateNotText method => method ++ "() candidates must be strings"
  | .patternNotText method kind =>
    method ++ "() argument must be str, not " ++ marked kind.name
  | .noDate kind => "expected a date, got " ++ marked kind.name
  | .notDate text => "invalid date " ++ marked text
  | .noMoment kind => "parse_datetime() of " ++ marked kind.name
  | .notMoment text => "invalid datetime " ++ marked text

/-- What is wrong with a condition. -/
inductive Fault where
  /-- There is no token in the text. -/
  | emptyInput
  | tooLarge (bytes : Nat)
  | tooDeep (position : Nat)
  | unexpected (found : String) (position : Nat) (expected : Expected)
  /-- A quoted text is not closed; the position is that of its opening quote. -/
  | unterminated (position : Nat)
  | invalidNumber (digits : String) (position : Nat)
  /-- The text goes on behind a complete condition. -/
  | trailing (position : Nat)
  | unknownName (name : String)
  | unknownFunction (name : String)
  | unknownMethod (kind : ValueKind) (name : String)
  | mismatch (operation : Operation) (left right : ValueKind)
  | argument (fault : ArgumentFault)
  | keyNotFound (key : String)
  | indexOutOfRange (index : Int64)
  | divisionByZero
  | overflow
  deriving DecidableEq

namespace Fault

/-- Whether the text is no condition, as opposed to a condition without a value. -/
def isParseFault : Fault → Bool
  | .emptyInput | .tooLarge _ | .tooDeep _ | .unexpected .. | .unterminated _
  | .invalidNumber .. | .trailing _ => true
  | _ => false

/-- The offset in the text that the fault points to. -/
def position? : Fault → Option Nat
  | .tooDeep position | .unexpected _ position _ | .unterminated position
  | .invalidNumber _ position | .trailing position => some position
  | _ => none

/-- The message for a fault. -/
def message : Fault → String
  | .emptyInput => "condition is empty"
  | .tooLarge bytes =>
    "condition exceeds size limit: " ++ bytes.repr ++ " bytes (max "
      ++ maxConditionBytes.repr ++ ")"
  | .tooDeep position =>
    "condition nesting exceeds limit " ++ maxNesting.repr ++ " at " ++ position.repr
  | .unexpected found position expected =>
    "unexpected token " ++ marked found ++ " at " ++ position.repr ++ ", expected "
      ++ expected.words
  | .unterminated position => "unterminated string literal starting at " ++ position.repr
  | .invalidNumber digits position =>
    "invalid number " ++ marked digits ++ " at " ++ position.repr
  | .trailing position => "unexpected trailing input at " ++ position.repr
  | .unknownName name => "name " ++ marked name ++ " is not defined"
  | .unknownFunction name => "function " ++ marked name ++ " is not available"
  | .unknownMethod kind name => marked kind.name ++ " has no method " ++ marked name
  | .mismatch operation left right =>
    "unsupported operand types for " ++ operation.label ++ ": " ++ marked left.name ++ " and "
      ++ marked right.name
  | .argument fault => "invalid argument: " ++ fault.message
  | .keyNotFound key => "key " ++ marked key ++ " not found"
  | .indexOutOfRange index => "index " ++ index.toInt.repr ++ " out of range"
  | .divisionByZero => "division by zero"
  | .overflow => "integer overflow"

end Fault

end FormValidation
