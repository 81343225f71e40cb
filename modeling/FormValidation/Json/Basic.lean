import FormValidation.KeyMap

/-!
# JSON values

The values of JSON. A number is kept as an integer when it is one that 64 bits hold, with or
without a sign, and as a double otherwise. The members of an object are listed in the order in
which they are written, each key once; objects that have been read list them in the order of their
keys.
-/

namespace FormValidation

/-- The integers of 64 bits, read with or without a sign. -/
def InWordRange (n : Int) : Prop := -0x8000000000000000 ≤ n ∧ n < 0x10000000000000000

instance (n : Int) : Decidable (InWordRange n) := inferInstanceAs (Decidable (_ ∧ _))

/-- A JSON number. -/
inductive JsonNumber where
  | integer (n : Int) (inRange : InWordRange n)
  | real (x : Float)
  deriving DecidableEq

/-- A JSON value. -/
inductive Json where
  | null
  | bool (b : Bool)
  | number (n : JsonNumber)
  | string (s : String)
  | array (items : List Json)
  /-- The members, each key once. -/
  | object (members : List (String × Json))

namespace Json

instance : Inhabited Json := ⟨.null⟩

/-- What holds of a container if it holds of all that is in it holds of all JSON values. -/
theorem tree_induction {p : Json → Prop} (null : p .null) (bool : ∀ b, p (.bool b))
    (number : ∀ n, p (.number n)) (string : ∀ s, p (.string s))
    (array : ∀ items, (∀ x ∈ items, p x) → p (.array items))
    (object : ∀ members, (∀ m ∈ members, p m.2) → p (.object members)) : ∀ j, p j
  | .null => null
  | .bool b => bool b
  | .number n => number n
  | .string s => string s
  | .array items => array items fun x _ => tree_induction null bool number string array object x
  | .object members =>
    object members fun m _ => tree_induction null bool number string array object m.2
decreasing_by
  · decreasing_tactic
  · rename_i hm
    have hlt := List.sizeOf_lt_of_mem hm
    have hpair : sizeOf m = 1 + sizeOf m.1 + sizeOf m.2 := rfl
    simp only [Json.object.sizeOf_spec]
    omega

/-- The integer `n`, if it is in range, and the nearest double otherwise. -/
def ofInt (n : Int) : Json :=
  if h : InWordRange n then .number (.integer n h) else .number (.real (Float.ofInt n))

/-- The object with the given members, of which the last one of a key counts. -/
def ofMembers (members : List (String × Json)) : Json := .object (Entries.ofList members)

/-- The value of a member of an object. -/
def member? (key : String) : Json → Option Json
  | .object members => Entries.find? key members
  | _ => none

/-- The text of a string value. -/
def string? : Json → Option String
  | .string s => some s
  | _ => none

/-- The items of an array. -/
def array? : Json → Option (List Json)
  | .array items => some items
  | _ => none

/-- The members of an object. -/
def object? : Json → Option (List (String × Json))
  | .object members => some members
  | _ => none

/-- The integer that a number is kept as. -/
def int? : Json → Option Int
  | .number (.integer n _) => some n
  | _ => none

/-- What kind of value stands in a configuration, in words. -/
def kindName : Json → String
  | .null => "null"
  | .bool _ => "boolean"
  | .number _ => "number"
  | .string _ => "string"
  | .array _ => "list"
  | .object _ => "map"

end Json

end FormValidation
