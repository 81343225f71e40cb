import FormValidation.Json.Basic
import FormValidation.Number.Double
import FormValidation.Number.Numeral
import FormValidation.Calendar.Moment

/-!
# Values of conditions

The values that a condition computes with: the data of a form as it comes from JSON, and dates,
moments and the clock. `Value.kind` is the type that messages name, `Value.isTruthy` decides what
counts as true, and `Value.ofJson` takes over JSON data, integers of 64 bits with a sign as
integers and all other numbers as doubles.
-/

namespace FormValidation

/-- The types of values. -/
inductive ValueKind where
  | null
  | bool
  | int
  | float
  | text
  | list
  | map
  | date
  | moment
  | clock
  deriving DecidableEq

/-- The name of a type in messages. -/
def ValueKind.name : ValueKind → String
  | .null => "NoneType"
  | .bool => "bool"
  | .int => "int"
  | .float => "float"
  | .text => "str"
  | .list => "list"
  | .map => "dict"
  | .date => "date"
  | .moment => "datetime"
  | .clock => "timezone"

/-- A value that a condition can see. -/
inductive Value where
  | null
  | bool (b : Bool)
  | int (n : Int64)
  | float (x : Float)
  | text (s : String)
  | list (items : List Value)
  /-- The entries in the order of their keys. -/
  | map (entries : List (String × Value))
  | date (d : Date)
  | moment (m : Moment)
  | clock (c : Clock)

namespace Value

instance : Inhabited Value := ⟨.null⟩

/-- The type of a value. -/
def kind : Value → ValueKind
  | .null => .null
  | .bool _ => .bool
  | .int _ => .int
  | .float _ => .float
  | .text _ => .text
  | .list _ => .list
  | .map _ => .map
  | .date _ => .date
  | .moment _ => .moment
  | .clock _ => .clock

/-- What counts as true: everything but the absent value, `false`, zeros and what is empty. -/
def isTruthy : Value → Bool
  | .null => false
  | .bool b => b
  | .int n => n != 0
  | .float x => !(x == 0.0)
  | .text s => !s.isEmpty
  | .list items => !items.isEmpty
  | .map entries => !entries.isEmpty
  | .date _ | .moment _ | .clock _ => true

/-! ## Data from JSON -/

/-- An integer of 64 bits with a sign stays one; every other number becomes a double. -/
def ofNumber : JsonNumber → Value
  | .integer n _ =>
    match int64? n with
    | some word => .int word
    | none => .float (Float.ofInt n)
  | .real x => .float x

mutual

/-- The value of JSON data. -/
def ofJson : Json → Value
  | .null => .null
  | .bool b => .bool b
  | .number n => ofNumber n
  | .string s => .text s
  | .array items => .list (ofItems items)
  | .object members => .map (ofMembers members)

/-- The values of a list of JSON data. -/
def ofItems : List Json → List Value
  | [] => []
  | item :: rest => ofJson item :: ofItems rest

/-- The values of the members of a JSON object, under their keys. -/
def ofMembers : List (String × Json) → List (String × Value)
  | [] => []
  | (key, item) :: rest => (key, ofJson item) :: ofMembers rest

end

end Value

end FormValidation
