import FormValidation.Json.Basic

/-!
# Rules

A rule raises an error when its condition is true. It is read from configuration leniently: what is
missing stays missing, and an entry of the wrong shape becomes a rule that says what is wrong with
it; such a rule never runs.
-/

namespace FormValidation

/-- One rule. -/
structure Rule where
  /-- The field that the error is attached to; the form as a whole if there is none. -/
  field : Option String
  /-- The condition that raises the error. -/
  condition : Option String
  /-- The message for the user, which is passed on unchanged. -/
  error : Option String
  /-- What is wrong with the entry that the rule was read from. -/
  malformed : Option String
  deriving DecidableEq

namespace Rule

/-- The rule that raises `error` when `condition` is true. -/
def raise (condition error : String) : Rule := ⟨none, some condition, some error, none⟩

/-- The rule in place of an entry that cannot be read. -/
def unreadable (reason : String) : Rule := ⟨none, none, none, some reason⟩

/-- The rule with its error attached to a field. -/
def onField (r : Rule) (field : String) : Rule := { r with field := some field }

/-- A text among the members of an entry, and what is wrong with the member if it is no text. -/
def textMember (members : List (String × Json)) (key : String) : Option String × Option String :=
  match Entries.find? key members with
  | none => (none, none)
  | some .null => (none, none)
  | some (.string s) => (some s, none)
  | some other =>
    (none, some ("`" ++ key ++ "` must be a string, found " ++ other.kindName))

/-- Reads a rule; nothing makes it fail. -/
def ofJson (raw : Json) : Rule :=
  match raw with
  | .object members =>
    let field := textMember members "field"
    let condition := textMember members "condition"
    let error := textMember members "error"
    let problems := [field.2, condition.2, error.2].filterMap id
    ⟨field.1, condition.1, error.1,
      if problems.isEmpty then none else some (String.intercalate "; " problems)⟩
  | raw => unreadable ("rule must be an object, found " ++ raw.kindName)

/-- A member for a text that is there. -/
def member (key : String) (s : Option String) : List (String × Json) :=
  match s with
  | some s => [(key, .string s)]
  | none => []

/-- The entry of a rule: its field, its condition and its error, as far as it has them. -/
def toJson (r : Rule) : Json :=
  .object (member "field" r.field ++ member "condition" r.condition ++ member "error" r.error)

end Rule

end FormValidation
