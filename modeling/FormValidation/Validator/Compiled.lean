import FormValidation.Condition.Basic
import FormValidation.Diagnostic
import FormValidation.Rule.Document

/-!
# Compiled rules

Rules are compiled before they run: their conditions are read once, and what cannot run is
remembered with the reason. A compiled rule is asked in a context whether it fires, which it
answers with its message, with silence, or with the reason why it is skipped.
-/

namespace FormValidation

/-- The values that a form has after the checks of its own. -/
abbrev CleanedData := KeyMap Json

/-- Why a rule is skipped. -/
inductive SkipReason where
  | missingCondition
  | missingError
  | unknownField (field : String)
  | malformedRule (reason : String)
  deriving DecidableEq

/-- The words for why a rule is skipped. -/
def SkipReason.message : SkipReason → String
  | .missingCondition => "rule has no condition"
  | .missingError => "rule has no error message"
  | .unknownField field => "field `" ++ field ++ "` is not declared on the form"
  | .malformedRule reason => "malformed rule: " ++ reason

/-- The condition of a rule after compilation. -/
inductive CompiledCondition where
  /-- The entry of the rule could not be read. -/
  | malformed (reason : String)
  | missing
  /-- The text is no condition, and the rule never fires. -/
  | invalid
  | parsed (condition : Condition)

/-- A rule after compilation. -/
structure CompiledRule where
  /-- The place of the rule in its group, from 0. -/
  index : Nat
  field : Option String
  condition : CompiledCondition
  error : Option String

namespace CompiledRule

/-- The message of the rule if it fires in a context, nothing if it does not, or why it must be
skipped. -/
def fires (r : CompiledRule) (context : Context) : Except SkipReason (Option String) :=
  match r.condition with
  | .malformed reason => .error (.malformedRule reason)
  | .missing => .error .missingCondition
  | .invalid => .ok none
  | .parsed condition =>
    if condition.test context then
      match r.error with
      | some message => .ok (some message)
      | none => .error .missingError
    else .ok none

end CompiledRule

/-- Compiles the condition of a rule; the text of the event that a text is no condition comes
with it. -/
def Rule.compileCondition (r : Rule) : CompiledCondition × Option String :=
  match r.malformed, r.condition with
  | some reason, _ => (.malformed reason, none)
  | none, none => (.missing, none)
  | none, some source =>
    match Condition.read source with
    | .ok condition => (.parsed condition, none)
    | .error fault =>
      (.invalid, some ("condition `" ++ source ++ "` does not parse: " ++ fault.message))

/-- Compiles the rules of a group, the first of which is at `index`, and reports the texts that
are no conditions. -/
def compileRules (form group : String) (index : Nat) :
    List Rule → List CompiledRule × List Diagnostic
  | [] => ([], [])
  | r :: rest =>
    let compiled := r.compileCondition
    let events := match compiled.2 with
      | some message => [Diagnostic.ofRule .conditionError form group (some index) message]
      | none => []
    let others := compileRules form group (index + 1) rest
    (⟨index, r.field, compiled.1, r.error⟩ :: others.1, events ++ others.2)

/-- The event that a rule is skipped. -/
def skipEvent (form group : String) (index : Nat) (reason : SkipReason) : Diagnostic :=
  .ofRule .executionError form group (some index) reason.message

/-- The cleaned data as one value. -/
def cleanedValue (cleaned : CleanedData) : Value := .map (Value.ofMembers cleaned.entries)

/-- The value of a cleaned field; absent fields have none. -/
def cleanedField (cleaned : CleanedData) (field : String) : Json :=
  (cleaned.find? field).getD .null

end FormValidation
