import FormValidation.Engine.Basic
import FormValidation.Source.Files

/-!
# Sessions

A session is one engine at work: its files, the hooks of several forms by their names, and the log
to which the source, the compilation and the validation report. Every operation here is one step of
a session.
-/

namespace FormValidation

/-- An engine at work. -/
structure Session where
  files : FileTree
  engine : Engine
  hooks : KeyMap Hooks
  log : List Diagnostic

/-- What a source says of the rules of a form when it is asked three times. -/
structure FormRulesReport where
  rules : FormRules
  /-- The generation that the rules belong to. -/
  generation : Generation
  /-- Whether the second answer has the same rules. -/
  confirmed : Bool
  /-- The generation of the third answer. -/
  lastGeneration : Generation

namespace Session

/-- A session over a source, without files. -/
def start (source : RuleSource) : Session := ⟨.empty, .of source, ∅, []⟩

/-- The session with more in its log. -/
def report (s : Session) (events : List Diagnostic) : Session := { s with log := s.log ++ events }

/-- The session with an empty log. -/
def clearLog (s : Session) : Session := { s with log := [] }

/-! ## The source -/

/-- The state of the file of the source, if it has one. -/
def sourceNow (s : Session) : SourceState :=
  match s.engine.source with
  | .store kept => s.files.sourceAt kept.source.path
  | _ => .absent

/-- The session with another source in its engine. -/
def withSource (s : Session) (source : RuleSource) : Session :=
  { s with engine := { s.engine with source } }

/-- What the source serves now. -/
def look (s : Session) : Session × Served :=
  let seen := s.engine.source.look s.sourceNow
  ((s.withSource seen.1).report seen.2.events, seen.2)

/-- The document of a store, read again if its file has changed, or in any case. -/
def load (s : Session) (force : Bool) : Session × Document :=
  match s.engine.source with
  | .store kept =>
    let pass := if force then kept.reload s.sourceNow else kept.load s.sourceNow
    ((s.withSource (.store pass.1)).report pass.2.events, pass.2.document)
  | _ =>
    let seen := s.look
    (seen.1, seen.2.document)

/-- The rules of a form with their generation, then whether they are the same when asked for again,
and the generation of the source after that. -/
def formRules (s : Session) (form : String) : Session × FormRulesReport :=
  let first := s.look
  let rules := first.2.document.formRules form
  let second := first.1.look
  let third := second.1.look
  (third.1, {
    rules
    generation := first.2.generation
    confirmed := decide (second.2.document.formRules form = rules)
    lastGeneration := third.2.generation })

/-- Puts another document into a source that is no file. -/
def replaceDocument (s : Session) (d : Document) : Session :=
  match s.engine.source with
  | .memory m => s.withSource (.memory (m.replace d))
  | .manual m => s.withSource (.manual { m with document := d })
  | .store _ => s

/-- Sets the generation of a source whose owner does so. -/
def setGeneration (s : Session) (g : Generation) : Session :=
  match s.engine.source with
  | .manual m => s.withSource (.manual { m with generation := g })
  | _ => s

/-! ## Hooks -/

/-- The hooks of a name; there are empty ones under every name. -/
def hooksOf (s : Session) (name : String) : Hooks := (s.hooks.find? name).getD .empty

/-- The session with other hooks under a name. -/
def withHooks (s : Session) (name : String) (h : Hooks) : Session :=
  { s with hooks := s.hooks.insert name h }

/-- Fills hooks with validators for the rules of a form. -/
def attach (s : Session) (name : String) (target : FormClass) : Session × AttachReport :=
  let done := s.engine.attach s.sourceNow target (s.hooksOf name)
  (({ s with engine := done.1 }.withHooks name done.2.hooks).report done.2.events, done.2.report)

/-- Compiles rules for a form as a whole and fills the slot for it; tells whether it was empty. -/
def installForm (s : Session) (name form : String) (rules : List Rule) : Session × Bool :=
  let made := FormValidator.compile form rules
  let h := s.hooksOf name
  ((s.withHooks name (h.installForm made.1)).report made.2, !h.hasForm)

/-- Compiles rules for a field and fills the slot for it; tells whether it was empty. -/
def installField (s : Session) (name form field : String) (rules : List Rule) : Session × Bool :=
  let made := FieldValidator.compile form field rules
  let h := s.hooksOf name
  ((s.withHooks name (h.installField made.1)).report made.2, !h.hasField field)

/-- Puts a copy of hooks under another name. -/
def copyHooks (s : Session) (source target : String) : Session :=
  s.withHooks target (s.hooksOf source)

/-- Validates a form as a whole. -/
def runForm (s : Session) (name : String) (host : Host) (clock : Clock) :
    Session × Host × Outcome :=
  let h := s.hooksOf name
  let done := h.runForm host clock
  ((s.withHooks name h).report done.2.2, done.1, done.2.1)

/-- Validates a field. -/
def runField (s : Session) (name field : String) (host : Host) (clock : Clock) :
    Session × Except ValidationFailure Json :=
  let h := s.hooksOf name
  let done := h.runField field host clock
  ((s.withHooks name h).report done.2, done.1)

/-! ## Files and the cache -/

/-- The session with its files changed. -/
def changeFiles (s : Session) (change : FileTree → FileTree) : Session :=
  { s with files := change s.files }

/-- The session without compiled validators in its cache. -/
def clearCache (s : Session) : Session :=
  { s with engine := { s.engine with cache := s.engine.cache.clear } }

end Session

end FormValidation
