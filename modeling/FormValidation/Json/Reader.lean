import FormValidation.Json.Token

/-!
# Reading JSON

A JSON text is read token by token. `Building` is the part of the value that is complete so far:
the containers that are still open, each with the place that waits for the next value. At most
127 containers may be open at once.
-/

namespace FormValidation.Json

/-- An open container and the place in it that waits for a value. -/
inductive Holder where
  /-- The next item, behind these in reverse. -/
  | item (items : List Json)
  /-- The value of a key, beside these members. -/
  | member (members : List (String × Json)) (key : String)

/-- What must come next, with the containers around it. -/
inductive Building where
  | value (around : List Holder)
  /-- An array was opened: an item or its end. -/
  | firstItem (around : List Holder)
  /-- An object was opened: a key or its end. -/
  | firstKey (around : List Holder)
  | key (members : List (String × Json)) (around : List Holder)
  | colon (members : List (String × Json)) (key : String) (around : List Holder)
  /-- An item is complete: a comma or the end of the array. -/
  | items (items : List Json) (around : List Holder)
  /-- A member is complete: a comma or the end of the object. -/
  | members (members : List (String × Json)) (around : List Holder)
  | done (value : Json)

namespace Building

/-- How many containers may be open at once. -/
def maxOpen : Nat := 127

/-- Puts a complete value in its place. A later member replaces an earlier one of the same key. -/
def place (v : Json) : List Holder → Building
  | [] => .done v
  | .item vs :: around => .items (v :: vs) around
  | .member ms k :: around => .members (Entries.insert k v ms) around

/-- Begins a value: a whole text or word, or a container that is opened. -/
def begin? (around : List Holder) : Token → Option Building
  | .openArray => if around.length < maxOpen then some (.firstItem around) else none
  | .openObject => if around.length < maxOpen then some (.firstKey around) else none
  | .text s => some (place (.string s) around)
  | .word v => some (place v around)
  | _ => none

/-- Reads one more token. -/
def step : Building → Token → Option Building
  | .value around, t => begin? around t
  | .firstItem around, .closeArray => some (place (.array []) around)
  | .firstItem around, t => begin? (.item [] :: around) t
  | .firstKey around, .closeObject => some (place (.object []) around)
  | .firstKey around, .text k => some (.colon [] k around)
  | .key ms around, .text k => some (.colon ms k around)
  | .colon ms k around, .colon => some (.value (.member ms k :: around))
  | .items vs around, .comma => some (.value (.item vs :: around))
  | .items vs around, .closeArray => some (place (.array vs.reverse) around)
  | .members ms around, .comma => some (.key ms around)
  | .members ms around, .closeObject => some (place (.object ms) around)
  | _, _ => none

/-- The value, if it is complete. -/
def finish : Building → Option Json
  | .done v => some v
  | _ => none

end Building

/-- Reads a whole text as one JSON value. -/
def read? (cs : List Char) : Option Json := do
  let tokens ← tokens? cs
  let building ← tokens.foldlM Building.step (.value [])
  building.finish

end FormValidation.Json
