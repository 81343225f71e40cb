import FormValidation.Json.Writer

/-!
# Diagnostics

What the engine reports beside its answers: events with a kind, the place that they are about, and
a message. A list of events in the order in which they were recorded is the log of a run; a log
file has one line of JSON for each, which `Diagnostic.logLine` writes.
-/

namespace FormValidation

/-- The kinds of events. -/
inductive DiagnosticKind where
  /-- A source of rules could not be read. -/
  | sourceError
  /-- A document was loaded. -/
  | loaded
  /-- Something is wrong with a document that was loaded. -/
  | lint
  /-- The condition of a rule is none. -/
  | conditionError
  /-- A rule could not run. -/
  | executionError
  deriving DecidableEq

/-- The name of a kind of events. -/
def DiagnosticKind.name : DiagnosticKind → String
  | .sourceError => "config_source_error"
  | .loaded => "config_loaded"
  | .lint => "config_lint"
  | .conditionError => "expression_error"
  | .executionError => "rule_execution_error"

/-- All kinds of events. -/
def DiagnosticKind.all : List DiagnosticKind :=
  [.sourceError, .loaded, .lint, .conditionError, .executionError]

/-- The kind of a name. -/
def DiagnosticKind.ofName? (name : String) : Option DiagnosticKind :=
  DiagnosticKind.all.find? fun kind => kind.name = name

/-- An event. -/
structure Diagnostic where
  kind : DiagnosticKind
  /-- The form that it is about. -/
  form : Option String
  /-- The key of the group of rules that it is about. -/
  group : Option String
  /-- The place of the rule in its group. -/
  index : Option Nat
  message : String
  deriving DecidableEq

namespace Diagnostic

/-- An event that is about no particular form. -/
def general (kind : DiagnosticKind) (message : String) : Diagnostic :=
  ⟨kind, none, none, none, message⟩

/-- An event about a rule, or a group as a whole, of a form. -/
def ofRule (kind : DiagnosticKind) (form group : String) (index : Option Nat)
    (message : String) : Diagnostic :=
  ⟨kind, some form, some group, index, message⟩

/-- A text that may be absent. -/
def optionalText : Option String → Json
  | some s => .string s
  | none => .null

/-- A number that may be absent. -/
def optionalNumber : Option Nat → Json
  | some n => Json.ofInt n
  | none => .null

/-- The members of an event in a log file, each with its text.  The time at which the event was
recorded, in milliseconds, has 128 bits: more than a number of `Json` keeps, so it is written in
full here. -/
def members (d : Diagnostic) (time : BitVec 128) : List (String × List Char) :=
  [("event", (Json.string "form_rules_diagnostic").text),
    ("timestamp_ms", Numeral.ofNat time.toNat),
    ("kind", (Json.string d.kind.name).text), ("form_id", (optionalText d.form).text),
    ("rule_group", (optionalText d.group).text), ("rule_index", (optionalNumber d.index).text),
    ("message", (Json.string d.message).text)]

/-- The line of an event in a log file, without its end. -/
def logLine (d : Diagnostic) (time : BitVec 128) : List Char :=
  '\x7b' :: Json.writtenMembers (d.members time) ++ ['\x7d']

/-- Records an event with its time: its line is put at the end of the log file. -/
def record (file : List Char) (event : Diagnostic × BitVec 128) : List Char :=
  file ++ event.1.logLine event.2 ++ ['\n']

/-- The log file to which the events were recorded one after the other. -/
def logFile (events : List (Diagnostic × BitVec 128)) : List Char := events.foldl record []

/-- How many events of a log are of a kind. -/
def count (kind : DiagnosticKind) (log : List Diagnostic) : Nat :=
  log.countP fun d => d.kind = kind

end Diagnostic

end FormValidation
