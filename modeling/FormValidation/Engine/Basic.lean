import FormValidation.Engine.Cache
import FormValidation.Engine.Hooks
import FormValidation.Source.Basic

/-!
# Engines

An engine fills the slots of forms with validators for the rules that its source holds. A slot is
left as it is if the form validates that part itself, if the slot is filled already, or if the rules
are for a field that the form does not have. `Engine.attach` fills the slots of a form and reports
what became of every group of rules.
-/

namespace FormValidation

/-- Why a group of rules was not installed. -/
inductive Hindrance where
  /-- The form validates this part itself. -/
  | explicitOverride
  | alreadyInstalled
  | unknownField
  deriving DecidableEq

/-- What became of the groups of a form, in the order in which they were looked at. -/
structure AttachReport where
  installed : List GroupKey
  skipped : List (GroupKey × Hindrance)
  deriving DecidableEq

namespace AttachReport

/-- Nothing was looked at. -/
def empty : AttachReport := ⟨[], []⟩

/-- The report with a group that was installed. -/
def install (r : AttachReport) (key : GroupKey) : AttachReport :=
  { r with installed := r.installed ++ [key] }

/-- The report with a group that was not installed. -/
def skip (r : AttachReport) (key : GroupKey) (why : Hindrance) : AttachReport :=
  { r with skipped := r.skipped ++ [(key, why)] }

/-- Whether nothing was installed. -/
def isEmpty (r : AttachReport) : Bool := r.installed.isEmpty

end AttachReport

/-- What is known of a form for which slots are filled. -/
structure FormClass where
  form : String
  explicit : ExplicitHooks
  /-- The fields that the form has. -/
  available : List String

/-- How far the filling of slots has come. -/
structure AttachPass where
  hooks : Hooks
  cache : CompiledCache
  report : AttachReport
  events : List Diagnostic

namespace AttachPass

/-- What keeps the rules for the whole form from being installed. -/
def formHindrance? (target : FormClass) (hooks : Hooks) : Option Hindrance :=
  if target.explicit.form then some .explicitOverride
  else if hooks.hasForm then some .alreadyInstalled
  else none

/-- What keeps the rules for a field from being installed. -/
def fieldHindrance? (target : FormClass) (hooks : Hooks) (field : String) : Option Hindrance :=
  if !target.available.contains field then some .unknownField
  else if target.explicit.hasField field then some .explicitOverride
  else if hooks.hasField field then some .alreadyInstalled
  else none

/-- Looks at the rules for the whole form. -/
def attachForm (target : FormClass) (g : Generation) (rules : List Rule) (pass : AttachPass) :
    AttachPass :=
  match formHindrance? target pass.hooks with
  | some why => { pass with report := pass.report.skip .form why }
  | none =>
    let answer := pass.cache.formValidator g target.form
      fun _ => FormValidator.compile target.form rules
    ⟨pass.hooks.installForm answer.validator, answer.cache, pass.report.install .form,
      pass.events ++ answer.events⟩

/-- Looks at the rules for a field. -/
def attachField (target : FormClass) (g : Generation) (pass : AttachPass)
    (group : String × List Rule) : AttachPass :=
  match fieldHindrance? target pass.hooks group.1 with
  | some why => { pass with report := pass.report.skip (.field group.1) why }
  | none =>
    let answer := pass.cache.fieldValidator g target.form group.1
      fun _ => FieldValidator.compile target.form group.1 group.2
    ⟨pass.hooks.installField answer.validator, answer.cache,
      pass.report.install (.field group.1), pass.events ++ answer.events⟩

/-- Looks at all rules of a form, which belong to a generation: first at those for the whole form,
then at those for fields in the order of their keys. -/
def run (target : FormClass) (rules : FormRules) (g : Generation) (pass : AttachPass) :
    AttachPass :=
  let pass := match rules.formRules? with
    | some group => pass.attachForm target g group
    | none => pass
  rules.fieldGroups.foldl (attachField target g) pass

end AttachPass

/-- A source of rules and the validators compiled from them. -/
structure Engine where
  source : RuleSource
  cache : CompiledCache

namespace Engine

/-- An engine over a source. -/
def of (source : RuleSource) : Engine := ⟨source, .empty⟩

/-- Fills the slots of a form with validators for the rules that the source serves now. -/
def attach (e : Engine) (now : SourceState) (target : FormClass) (hooks : Hooks) :
    Engine × AttachPass :=
  let seen := e.source.look now
  let pass := AttachPass.run target (seen.2.document.formRules target.form) seen.2.generation
    ⟨hooks, e.cache, .empty, seen.2.events⟩
  (⟨seen.1, pass.cache⟩, pass)

end Engine

end FormValidation
