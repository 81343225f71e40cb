import FormValidation.Validator.Compiled

/-!
# Validation of whole forms

A form validator runs all rules of its group on a form, one after the other and whatever the
others do. A rule that fires adds its message to the form; a rule that cannot run is skipped and
reported. Rules see every cleaned field by its name, all of them as `cleaned_data`, the clock as
`timezone`, and the field that they or an earlier rule name, even if it has no value.
-/

namespace FormValidation

/-- A form that is being validated. -/
structure Host where
  /-- The fields that the form declares. -/
  fields : List String
  cleaned : CleanedData
  /-- The errors added so far: the field, or none for the form as a whole, and the message. -/
  errors : List (Option String × String)

namespace Host

/-- A form without errors. -/
def of (fields : List String) (cleaned : CleanedData) : Host := ⟨fields, cleaned, []⟩

/-- Whether the form declares a field. -/
def hasField (h : Host) (field : String) : Bool := h.fields.contains field

/-- The form with one more error. -/
def addError (h : Host) (field : Option String) (message : String) : Host :=
  { h with errors := h.errors ++ [(field, message)] }

end Host

/-- A rule that fired. -/
structure Fired where
  index : Nat
  field : Option String
  message : String
  deriving DecidableEq

/-- A rule that could not run. -/
structure Skipped where
  index : Nat
  reason : SkipReason
  deriving DecidableEq

/-- What came of validating a form. -/
structure Outcome where
  /-- The cleaned data, unchanged. -/
  cleaned : CleanedData
  /-- The rules that fired, in their order. -/
  fired : List Fired
  /-- The rules that were skipped, in their order. -/
  skipped : List Skipped

namespace Outcome

/-- The outcome where no rule has run. -/
def unchanged (cleaned : CleanedData) : Outcome := ⟨cleaned, [], []⟩

/-- Whether no rule has fired. -/
def passed (o : Outcome) : Bool := o.fired.isEmpty

end Outcome

/-- Validates a form as a whole. -/
structure FormValidator where
  form : String
  rules : List CompiledRule

/-- How far a validation has come: the form with its new errors, the outcome and the events up to
here, and what the next rule sees. -/
structure FormPass where
  host : Host
  context : Context
  outcome : Outcome
  events : List Diagnostic

namespace FormValidator

/-- Compiles the rules of a form's own group. -/
def compile (form : String) (rules : List Rule) : FormValidator × List Diagnostic :=
  let compiled := compileRules form GroupKey.form.text 0 rules
  (⟨form, compiled.1⟩, compiled.2)

/-- How many rules there are. -/
def ruleCount (v : FormValidator) : Nat := v.rules.length

/-- What the first rule sees. -/
def startContext (cleaned : CleanedData) (clock : Clock) : Context :=
  let fields : Context := cleaned.map fun _ v => Value.ofJson v
  (fields.insert "cleaned_data" (cleanedValue cleaned)).insert "timezone" (.clock clock)

/-- The context with the field that a rule names. -/
def bindField (cleaned : CleanedData) (r : CompiledRule) (context : Context) : Context :=
  match r.field with
  | some field => context.insert field (Value.ofJson (cleanedField cleaned field))
  | none => context

/-- What a rule comes to on a form: as in its context, but a message for a field needs a field
that the form declares. -/
def resultOf (host : Host) (r : CompiledRule) (context : Context) :
    Except SkipReason (Option String) := do
  let message ← r.fires context
  match message, r.field with
  | some _, some field =>
    if host.hasField field then .ok message else .error (.unknownField field)
  | _, _ => .ok message

/-- Runs one rule. -/
def step (form : String) (pass : FormPass) (r : CompiledRule) : FormPass :=
  let context := bindField pass.host.cleaned r pass.context
  match resultOf pass.host r context with
  | .ok none => { pass with context }
  | .ok (some message) =>
    { pass with
      host := pass.host.addError r.field message
      context
      outcome := { pass.outcome with
        fired := pass.outcome.fired ++ [⟨r.index, r.field, message⟩] } }
  | .error reason =>
    { pass with
      context
      outcome := { pass.outcome with
        skipped := pass.outcome.skipped ++ [⟨r.index, reason⟩] }
      events := pass.events ++ [skipEvent form GroupKey.form.text r.index reason] }

/-- Runs all rules on a form. -/
def run (v : FormValidator) (host : Host) (clock : Clock) : FormPass :=
  v.rules.foldl (step v.form)
    ⟨host, startContext host.cleaned clock, .unchanged host.cleaned, []⟩

end FormValidator

end FormValidation
