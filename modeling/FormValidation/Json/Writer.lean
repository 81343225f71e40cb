import FormValidation.Json.Basic
import FormValidation.Json.Quoted
import FormValidation.Number.Decimal

/-!
# Writing JSON

The compact text of a JSON value: no white space, the members of objects in their order.
-/

namespace FormValidation.Json

/-- The text of a number; a double that is no number has none and is written as `null`. -/
def numberText : JsonNumber → List Char
  | .integer n _ => Numeral.ofInt n
  | .real x => if x.isFinite then Decimal.text x else "null".toList

mutual

/-- The compact text of a value. -/
def text : Json → List Char
  | .null => "null".toList
  | .bool true => "true".toList
  | .bool false => "false".toList
  | .number n => numberText n
  | .string s => Quoted.quote s.toList
  | .array items => '[' :: itemsText items ++ [']']
  | .object members => '\x7b' :: membersText members ++ ['\x7d']

/-- The items of an array, with commas between them. -/
def itemsText : List Json → List Char
  | [] => []
  | [v] => v.text
  | v :: w :: rest => v.text ++ ',' :: itemsText (w :: rest)

/-- The members of an object, with commas between them. -/
def membersText : List (String × Json) → List Char
  | [] => []
  | [(key, v)] => Quoted.quote key.toList ++ ':' :: v.text
  | (key, v) :: m :: rest =>
    Quoted.quote key.toList ++ ':' :: v.text ++ ',' :: membersText (m :: rest)

end

/-- The inside of an object whose members are written already, with commas between them. -/
def writtenMembers (members : List (String × List Char)) : List Char :=
  [','].intercalate (members.map fun m => Quoted.quote m.1.toList ++ ':' :: m.2)

/-- The compact text of a value, as a string. -/
def write (v : Json) : String := String.ofList v.text

end FormValidation.Json
