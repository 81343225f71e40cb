import FormValidation.Value.Basic
import FormValidation.Calendar.Written
import FormValidation.Number.Decimal

/-!
# Values as text

The text of a value. Items and entries of containers are separated by a comma and a blank, and a
text inside a container stands between single quotes, with nothing escaped.
-/

namespace FormValidation.Value

/-- The text of a value inside a container, given its own text: a text stands between quotes. -/
def inContainer : Value → List Char → List Char
  | .text _, cs => '\'' :: cs ++ ['\'']
  | _, cs => cs

mutual

/-- The text of a value. -/
def spelling : Value → List Char
  | .null => "None".toList
  | .bool true => "True".toList
  | .bool false => "False".toList
  | .int n => Numeral.ofInt n.toInt
  | .float x => Decimal.text x
  | .text s => s.toList
  | .list items => '[' :: itemsSpelling items ++ [']']
  | .map entries => '\x7b' :: entriesSpelling entries ++ ['\x7d']
  | .date d => d.text
  | .moment m => m.text
  | .clock _ => "<timezone>".toList

/-- The items of a list, separated. -/
def itemsSpelling : List Value → List Char
  | [] => []
  | [v] => inContainer v (spelling v)
  | v :: w :: rest => inContainer v (spelling v) ++ ',' :: ' ' :: itemsSpelling (w :: rest)

/-- The entries of a map, separated. -/
def entriesSpelling : List (String × Value) → List Char
  | [] => []
  | [(key, v)] => '\'' :: key.toList ++ '\'' :: ':' :: ' ' :: inContainer v (spelling v)
  | (key, v) :: e :: rest =>
    '\'' :: key.toList ++ '\'' :: ':' :: ' ' :: inContainer v (spelling v)
      ++ ',' :: ' ' :: entriesSpelling (e :: rest)

end

/-- The text of a value, as a string. -/
def toText (v : Value) : String := String.ofList v.spelling

end FormValidation.Value
