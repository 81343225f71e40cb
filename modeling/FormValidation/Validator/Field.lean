import FormValidation.Validator.Form

/-!
# Validation of fields

A field validator runs the rules for one field until one fires, whose message fails the field.
Rules see the value of the field as `value`, all cleaned data as `cleaned_data` and the clock as
`timezone`; a rule that cannot run is reported, and the next one is asked.
-/

namespace FormValidation

/-- Why a field is not valid. -/
structure ValidationFailure where
  field : String
  message : String
  deriving DecidableEq

/-- The field and the message. -/
def ValidationFailure.text (f : ValidationFailure) : String := f.field ++ ": " ++ f.message

/-- Validates one field of a form. -/
structure FieldValidator where
  form : String
  field : String
  rules : List CompiledRule

namespace FieldValidator

/-- Compiles the rules for a field. -/
def compile (form field : String) (rules : List Rule) : FieldValidator × List Diagnostic :=
  let compiled := compileRules form (GroupKey.field field).text 0 rules
  (⟨form, field, compiled.1⟩, compiled.2)

/-- How many rules there are. -/
def ruleCount (v : FieldValidator) : Nat := v.rules.length

/-- What every rule sees. -/
def contextOf (field : String) (cleaned : CleanedData) (clock : Clock) : Context :=
  let start : Context := ∅
  ((start.insert "value" (Value.ofJson (cleanedField cleaned field))).insert "cleaned_data"
    (cleanedValue cleaned)).insert "timezone" (.clock clock)

/-- The message of the first rule that fires, and the events of those before it. -/
def firstMessage (form group : String) (context : Context) :
    List CompiledRule → Option String × List Diagnostic
  | [] => (none, [])
  | r :: rest =>
    match r.fires context with
    | .ok (some message) => (some message, [])
    | .ok none => firstMessage form group context rest
    | .error reason =>
      let others := firstMessage form group context rest
      (others.1, skipEvent form group r.index reason :: others.2)

/-- The value of the field if no rule fires, and the failure if one does, with the events. -/
def run (v : FieldValidator) (host : Host) (clock : Clock) :
    Except ValidationFailure Json × List Diagnostic :=
  let context := contextOf v.field host.cleaned clock
  let found := firstMessage v.form (GroupKey.field v.field).text context v.rules
  match found.1 with
  | some message => (.error ⟨v.field, message⟩, found.2)
  | none => (.ok (cleanedField host.cleaned v.field), found.2)

end FieldValidator

end FormValidation
