import FormValidation.Condition.Arithmetic
import FormValidation.Text.Blank
import FormValidation.Value.Text

/-!
# Functions

The functions that conditions may call: sizes, conversions, absolute values and extremes. Each
takes exactly one argument, but for `min` and `max`, which take several or one list.
-/

namespace FormValidation

/-- The functions of the condition language. -/
inductive Function where
  | len
  | int
  | float
  | str
  | bool
  | abs
  | min
  | max
  deriving DecidableEq

namespace Function

/-- The name by which a function is called. -/
def name : Function → String
  | .len => "len"
  | .int => "int"
  | .float => "float"
  | .str => "str"
  | .bool => "bool"
  | .abs => "abs"
  | .min => "min"
  | .max => "max"

/-- All functions. -/
def all : List Function := [.len, .int, .float, .str, .bool, .abs, .min, .max]

/-- The function of a name. -/
def ofName? (name : String) : Option Function := all.find? fun f => f.name = name

end Function

namespace Value

/-- How many characters, items or entries a value has. -/
def length (v : Value) : Except Fault Value :=
  match v with
  | .text s => ofInt s.length
  | .list items => ofInt items.length
  | .map entries => ofInt entries.length
  | v => .error (.argument (.noLength v.kind))

/-- The value as an integer: doubles are cut toward zero, texts read. -/
def toInteger (v : Value) : Except Fault Value :=
  match v with
  | .int n => .ok (.int n)
  | .bool b => .ok (.int (if b then 1 else 0))
  | .float x =>
    match (Double.ofFloat x).trunc? with
    | some n => ofInt n
    | none => .error .overflow
  | .text s =>
    match (Numeral.int? (Text.trim s.toList)).bind int64? with
    | some n => .ok (.int n)
    | none => .error (.argument (.notInteger s))
  | v => .error (.argument (.noInteger v.kind))

/-- The value as a double: texts are read. -/
def toDouble (v : Value) : Except Fault Value :=
  match v with
  | .text s =>
    match Decimal.readFloat? (Text.trim s.toList) with
    | some x => .ok (.float x)
    | none => .error (.argument (.notFloat s))
  | v =>
    match v.asFloat? with
    | some x => .ok (.float x)
    | none => .error (.argument (.noFloat v.kind))

/-- The number without its sign. -/
def absolute (v : Value) : Except Fault Value :=
  match v with
  | .int n => ofInt n.toInt.natAbs
  | .float x => .ok (.float x.abs)
  | v => .error (.argument (.noAbsolute v.kind))

/-- The first of the values that no other one beats; a value beats another when comparing them
gives `wanted`. -/
def extremeFrom (wanted : Ordering) (best : Value) : List Value → Except Fault Value
  | [] => .ok best
  | candidate :: rest =>
    match candidate.compare best with
    | .error fault => .error fault
    | .ok ordering => extremeFrom wanted (if ordering = wanted then candidate else best) rest

/-- The extreme of the arguments, or of the items of a single list. -/
def extreme (name : String) (wanted : Ordering) (arguments : List Value) : Except Fault Value :=
  let candidates := match arguments with
    | [.list items] => items
    | arguments => arguments
  match candidates with
  | [] => .error (.argument (.emptySequence name))
  | first :: rest => extremeFrom wanted first rest

end Value

/-- The only argument of a call. -/
def oneArgument (name : String) (arguments : List Value) : Except Fault Value :=
  match arguments with
  | [v] => .ok v
  | _ => .error (.argument (.count name 1 arguments.length))

/-- That a call has no arguments. -/
def noArguments (name : String) (arguments : List Value) : Except Fault Unit :=
  match arguments with
  | [] => .ok ()
  | _ => .error (.argument (.count name 0 arguments.length))

/-- The value of a function at its arguments. -/
def Function.apply (f : Function) (arguments : List Value) : Except Fault Value :=
  match f with
  | .len => oneArgument f.name arguments >>= Value.length
  | .int => oneArgument f.name arguments >>= Value.toInteger
  | .float => oneArgument f.name arguments >>= Value.toDouble
  | .str => (oneArgument f.name arguments).map fun v => .text v.toText
  | .bool => (oneArgument f.name arguments).map fun v => .bool v.isTruthy
  | .abs => oneArgument f.name arguments >>= Value.absolute
  | .min => Value.extreme f.name .lt arguments
  | .max => Value.extreme f.name .gt arguments

/-- The value of a call by name. -/
def callFunction (name : String) (arguments : List Value) : Except Fault Value :=
  match Function.ofName? name with
  | some f => f.apply arguments
  | none => .error (.unknownFunction name)

end FormValidation
