import FormValidation.Condition.Reader
import FormValidation.Rule.Document

/-!
# Lint

What is wrong with a document can be told without running it. `Document.lint` lists the issues of
every form in order: first that its entry cannot be read, then group by group the rules that are
unreadable, lack a condition or an error, or have a text in place of a condition that is none.
-/

namespace FormValidation

/-- What can be wrong with a document. -/
inductive IssueKind where
  /-- The key of a group means nothing. -/
  | unknownGroupKey
  | missingCondition
  | missingError
  | invalidCondition (fault : Fault)
  | malformedRule (reason : String)
  | malformedForm (reason : String)
  deriving DecidableEq

/-- The words for what is wrong. -/
def IssueKind.message : IssueKind → String
  | .unknownGroupKey => "unrecognized rule group key"
  | .missingCondition => "rule has no condition"
  | .missingError => "rule has no error message"
  | .invalidCondition fault => "condition does not parse: " ++ fault.message
  | .malformedRule reason => "malformed rule: " ++ reason
  | .malformedForm reason => "malformed form entry: " ++ reason

/-- Something that is wrong with a document, and where. -/
structure Issue where
  form : String
  /-- The raw key of the group; empty for the form itself. -/
  group : String
  /-- The place of the rule in its group, from 0. -/
  index : Option Nat
  kind : IssueKind
  deriving DecidableEq

/-- Where it is wrong, and what. -/
def Issue.message (i : Issue) : String :=
  i.form ++ (if i.group.isEmpty then "" else "." ++ i.group)
    ++ (match i.index with
      | some index => "[" ++ index.repr ++ "]"
      | none => "")
    ++ ": " ++ i.kind.message

namespace Rule

/-- What is wrong with the condition of a rule. -/
def lintCondition (r : Rule) : List IssueKind :=
  match r.condition with
  | none => [.missingCondition]
  | some source =>
    match Condition.parse source with
    | .ok _ => []
    | .error fault => [.invalidCondition fault]

/-- What is wrong with a rule. -/
def lint (r : Rule) : List IssueKind :=
  match r.malformed with
  | some reason => [.malformedRule reason]
  | none => r.lintCondition ++ (if r.error.isNone then [.missingError] else [])

end Rule

/-- What is wrong with the rules of a group, from the rule at `index` on. -/
def lintRules (form group : String) (index : Nat) : List Rule → List Issue
  | [] => []
  | r :: rest =>
    r.lint.map (fun kind => ⟨form, group, some index, kind⟩)
      ++ lintRules form group (index + 1) rest

/-- What is wrong with a group. -/
def lintGroup (form : String) (group : GroupKey × List Rule) : List Issue :=
  match group.1 with
  | .other raw => [⟨form, raw, none, .unknownGroupKey⟩]
  | key => lintRules form key.text 0 group.2

/-- What is wrong with the rules of a form. -/
def FormRules.lint (form : String) (f : FormRules) : List Issue :=
  (match f.malformed with
    | some reason => [⟨form, "", none, .malformedForm reason⟩]
    | none => []) ++ f.keyedGroups.flatMap (lintGroup form)

/-- What is wrong with a document. -/
def Document.lint (d : Document) : List Issue :=
  d.forms.entries.flatMap fun e => e.2.lint e.1

end FormValidation
