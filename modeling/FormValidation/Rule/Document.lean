import FormValidation.Rule.Form

/-!
# Rule documents

All the rules that one source holds, by the identifiers of the forms that they are for.
-/

namespace FormValidation

/-- The rules of several forms. -/
structure Document where
  /-- The rules of each form, under its identifier. -/
  forms : KeyMap FormRules
  deriving DecidableEq

namespace Document

/-- The document without forms. -/
def empty : Document := ⟨∅⟩

instance : Inhabited Document := ⟨empty⟩

/-- Reads a document; only a value that is no map is none. -/
def ofJson? (raw : Json) : Option Document :=
  match raw with
  | .object members => some ⟨KeyMap.ofList (members.map fun m => (m.1, FormRules.ofJson m.2))⟩
  | _ => none

/-- The document with the rules of a form put in place of any others for it. -/
def withForm (d : Document) (form : String) (rules : FormRules) : Document :=
  ⟨d.forms.insert form rules⟩

/-- The rules of a form, if the document has an entry for it. -/
def find? (d : Document) (form : String) : Option FormRules := d.forms.find? form

/-- The rules of a form; none without an entry. -/
def formRules (d : Document) (form : String) : FormRules := (d.find? form).getD .empty

/-- How many forms have an entry. -/
def size (d : Document) : Nat := d.forms.size

/-- Whether no form has an entry. -/
def isEmpty (d : Document) : Bool := d.forms.isEmpty

end Document

end FormValidation
