import FormValidation.Proofs.Validator.RunReports
import FormValidation.Rule.Lint

/-!
# Lint tells what compilation and runs come to

A document is looked through twice, by `Document.lint`, which runs nothing, and by compilation and
the runs that follow.  Both sort the rules by what is wrong with them, each in its own way.  This
file says that they agree on every rule of every group that is for a form or a field.

A rule can be read in four ways, and `Rule.Reading` gives for each what lint says and what
compilation makes of the rule, so that each agreement is a look at four cases.  What lint says of
the rule at an index of a group is what it says of that rule alone (`Document.reports_iff`), and
what runs list and record is known rule by rule as well.  The result is `Document.lint_agrees`.
-/

namespace FormValidation

/-! ## Where the issues of a document come from -/

namespace Document

/-- What lint says about a group of a form. -/
def issuesOf (d : Document) (form raw : String) : List Issue :=
  d.lint.filter fun issue => issue.form = form ∧ issue.group = raw

/-- Lint says this about the rule at an index of a group. -/
def Reports (d : Document) (form raw : String) (index : Nat) (kind : IssueKind) : Prop :=
  ⟨form, raw, some index, kind⟩ ∈ d.lint
  deriving Decidable

end Document

lemma lintRules_eq (form group : String) (index : Nat) (rules : List Rule) :
    lintRules form group index rules =
      (rules.zipIdx index).flatMap fun r =>
        r.1.lint.map fun kind => ⟨form, group, some r.2, kind⟩ := by
  induction rules generalizing index with
  | nil => rfl
  | cons r rules ih => rw [lintRules, ih, List.zipIdx_cons, List.flatMap_cons]

/-- An issue of a group names the form and the raw key of the group. -/
lemma place_of_mem_lintGroup {form raw : String} {rules : List Rule} {issue : Issue}
    (h : issue ∈ lintGroup form (GroupKey.parse raw, rules)) :
    issue.form = form ∧ issue.group = raw := by
  have htext := GroupKey.text_parse raw
  have hrules : issue ∈ lintRules form (GroupKey.parse raw).text 0 rules →
      issue.form = form ∧ issue.group = raw := by
    intro hmem
    rw [lintRules_eq] at hmem
    obtain ⟨r, -, hissue⟩ := List.mem_flatMap.1 hmem
    obtain ⟨kind, -, rfl⟩ := List.mem_map.1 hissue
    exact ⟨rfl, htext⟩
  rw [lintGroup] at h
  split at h
  · rename_i other hother
    rw [List.mem_singleton.1 h]
    rw [show GroupKey.parse raw = .other other from hother] at htext
    exact ⟨rfl, htext⟩
  · exact hrules h

/-- What lint says about the entry of a form as a whole. -/
def FormRules.ownIssues (form : String) (f : FormRules) : List Issue :=
  match f.malformed with
  | some reason => [⟨form, "", none, .malformedForm reason⟩]
  | none => []

lemma FormRules.lint_eq (form : String) (f : FormRules) :
    f.lint form = f.ownIssues form ++ f.keyedGroups.flatMap (lintGroup form) := rfl

lemma FormRules.eq_of_mem_ownIssues {form : String} {f : FormRules} {issue : Issue}
    (h : issue ∈ f.ownIssues form) : ∃ reason, issue = ⟨form, "", none, .malformedForm reason⟩ := by
  rw [ownIssues] at h
  split at h
  · exact ⟨_, List.mem_singleton.1 h⟩
  · cases h

lemma FormRules.form_of_mem_lint {form : String} {f : FormRules} {issue : Issue}
    (h : issue ∈ f.lint form) : issue.form = form := by
  rw [lint_eq] at h
  rcases List.mem_append.1 h with hown | hgroups
  · obtain ⟨reason, rfl⟩ := eq_of_mem_ownIssues hown
    rfl
  · obtain ⟨group, hgroup, hissue⟩ := List.mem_flatMap.1 hgroups
    obtain ⟨e, -, rfl⟩ := List.mem_map.1 hgroup
    exact (place_of_mem_lintGroup hissue).1

namespace Document

variable {d : Document} {form raw : String} {f : FormRules} {rules : List Rule}

/-- What lint says about a group is said where it looks at the group; only at an empty key it says
something else there, which is about the form. -/
lemma issuesOf_eq (hform : d.find? form = some f) (hgroup : f.groups.find? raw = some rules) :
    d.issuesOf form raw = ((f.ownIssues form).filter fun issue => issue.group = raw) ++
      lintGroup form (GroupKey.parse raw, rules) := by
  have hforms : d.issuesOf form raw =
      (f.lint form).filter fun issue => issue.form = form ∧ issue.group = raw := by
    rw [issuesOf, lint, List.filter_flatMap]
    refine KeyMap.flatMap_entries_eq hform fun e _ hne => ?_
    refine List.filter_eq_nil_iff.2 fun issue hissue => ?_
    have hother := FormRules.form_of_mem_lint hissue
    simp [hother, hne]
  have hgroups : (f.keyedGroups.flatMap (lintGroup form)).filter
      (fun issue => issue.form = form ∧ issue.group = raw) =
        lintGroup form (GroupKey.parse raw, rules) := by
    rw [FormRules.keyedGroups, List.flatMap_map, List.filter_flatMap,
      KeyMap.flatMap_entries_eq hgroup fun e _ hne => ?_]
    · refine List.filter_eq_self.2 fun issue hissue => ?_
      simpa using place_of_mem_lintGroup hissue
    · refine List.filter_eq_nil_iff.2 fun issue hissue => ?_
      have hother := (place_of_mem_lintGroup hissue).2
      simp [hother, hne]
  have hown : (f.ownIssues form).filter (fun issue => issue.form = form ∧ issue.group = raw) =
      (f.ownIssues form).filter fun issue => issue.group = raw := by
    refine List.filter_congr fun issue hissue => ?_
    obtain ⟨reason, rfl⟩ := FormRules.eq_of_mem_ownIssues hissue
    simp
  rw [hforms, FormRules.lint_eq, List.filter_append, hgroups, hown]

/-- The key of a group that is for a form or a field is not empty, and lint looks at its rules. -/
lemma issuesOf_eq_lintRules (hform : d.find? form = some f)
    (hgroup : f.groups.find? raw = some rules) (hkey : ∀ other, GroupKey.parse raw ≠ .other other) :
    d.issuesOf form raw = lintRules form raw 0 rules := by
  have hraw : raw ≠ "" := by
    rintro rfl
    exact hkey "" (by decide)
  have hown : (f.ownIssues form).filter (fun issue => issue.group = raw) = [] := by
    refine List.filter_eq_nil_iff.2 fun issue hissue => ?_
    obtain ⟨reason, rfl⟩ := FormRules.eq_of_mem_ownIssues hissue
    simpa using hraw.symm
  rw [issuesOf_eq hform hgroup, hown, List.nil_append, lintGroup]
  split
  · rename_i other hother
    exact absurd hother (hkey other)
  · rw [show (GroupKey.parse raw, rules).1.text = raw from GroupKey.text_parse raw]

lemma reports_iff_mem_issuesOf {index : Nat} {kind : IssueKind} :
    d.Reports form raw index kind ↔ ⟨form, raw, some index, kind⟩ ∈ d.issuesOf form raw := by
  simp [Reports, issuesOf]

lemma not_reports_of_issuesOf_eq_nil (h : d.issuesOf form raw = []) (index : Nat)
    (kind : IssueKind) : ¬ d.Reports form raw index kind := by
  rw [reports_iff_mem_issuesOf, h]
  exact List.not_mem_nil

/-- **Lint says of the rule at an index what it says of that rule alone.** -/
lemma reports_iff (hform : d.find? form = some f) (hgroup : f.groups.find? raw = some rules)
    (hkey : ∀ other, GroupKey.parse raw ≠ .other other) {index : Nat} {kind : IssueKind} :
    d.Reports form raw index kind ↔ ∃ r, rules[index]? = some r ∧ kind ∈ r.lint := by
  rw [reports_iff_mem_issuesOf, issuesOf_eq_lintRules hform hgroup hkey, lintRules_eq]
  simp [List.mem_flatMap, List.mem_zipIdx_iff_getElem?]

end Document

/-! ## What lint says about a rule, and what compilation makes of it -/

/-- The reason for which no run gets to the condition of a rule, if lint finds one. -/
def IssueKind.skipReason? : IssueKind → Option SkipReason
  | .malformedRule reason => some (.malformedRule reason)
  | .missingCondition => some .missingCondition
  | _ => none

lemma IssueKind.skipReason?_ne_unknownField {kind : IssueKind} {reason : SkipReason}
    (h : kind.skipReason? = some reason) (field : String) : reason ≠ .unknownField field := by
  rintro rfl
  cases kind <;> cases h

/-- What lint calls the reason why a rule is skipped; it knows no form that lacks a field. -/
def SkipReason.issue? : SkipReason → Option IssueKind
  | .malformedRule reason => some (.malformedRule reason)
  | .missingCondition => some .missingCondition
  | .missingError => some .missingError
  | .unknownField _ => none

/-- The event that the text of a condition is none. -/
def conditionEvent (form group : String) (index : Nat) (source : String) (fault : Fault) :
    Diagnostic :=
  ⟨.conditionError, some form, some group, some index,
    "condition `" ++ source ++ "` does not parse: " ++ fault.message⟩

namespace Rule

/-- What lint says about a rule without a message. -/
def messageIssues (r : Rule) : List IssueKind := if r.error.isNone then [.missingError] else []

/-- The four ways in which lint and compilation sort rules. -/
inductive Reading (r : Rule) : Prop
  | malformed (reason : String) (lint : r.lint = [.malformedRule reason])
      (compiled : r.compileCondition = (.malformed reason, none))
  | missing (lint : r.lint = .missingCondition :: r.messageIssues)
      (compiled : r.compileCondition = (.missing, none))
  | invalid (source : String) (fault : Fault) (text : r.condition = some source)
      (parse : Condition.parse source = .error fault)
      (lint : r.lint = .invalidCondition fault :: r.messageIssues)
      (compiled : r.compileCondition =
        (.invalid, some ("condition `" ++ source ++ "` does not parse: " ++ fault.message)))
  | parsed (condition : Condition) (lint : r.lint = r.messageIssues)
      (compiled : r.compileCondition = (.parsed condition, none))

lemma reading (r : Rule) : r.Reading := by
  obtain ⟨field, condition, error, malformed⟩ := r
  cases malformed with
  | some reason => exact .malformed reason rfl rfl
  | none =>
      cases condition with
      | none => exact .missing rfl rfl
      | some source =>
          cases hparse : Condition.parse source with
          | error fault =>
              refine .invalid source fault rfl hparse ?_ ?_
              · simp [lint, lintCondition, hparse, messageIssues]
              · simp [compileCondition, Condition.read, hparse, Except.map]
          | ok root =>
              refine .parsed ⟨source, root⟩ ?_ ?_
              · simp [lint, lintCondition, hparse, messageIssues]
              · simp [compileCondition, Condition.read, hparse, Except.map]

variable {r : Rule} {kind : IssueKind} {fault : Fault}

lemma mem_messageIssues : kind ∈ r.messageIssues ↔ r.error = none ∧ kind = .missingError := by
  cases h : r.error <;> simp [messageIssues, h]

/-- **Compilation records a text that is no condition exactly where lint finds one.** -/
lemma mem_compileEvents_iff {form group : String} {index : Nat} {event : Diagnostic} :
    event ∈ r.compileEvents form group index ↔
      ∃ source fault, r.condition = some source ∧ Condition.parse source = .error fault ∧
        .invalidCondition fault ∈ r.lint ∧
        event = conditionEvent form group index source fault := by
  cases r.reading with
  | malformed reason lint compiled => simp [compileEvents, compiled, lint]
  | missing lint compiled => simp [compileEvents, compiled, lint, mem_messageIssues]
  | parsed condition lint compiled => simp [compileEvents, compiled, lint, mem_messageIssues]
  | invalid source fault text parse lint compiled =>
      simp [compileEvents, compiled, lint, mem_messageIssues, text, parse, conditionEvent,
        Diagnostic.ofRule]

lemma exists_of_invalidCondition_mem_lint (h : .invalidCondition fault ∈ r.lint) :
    ∃ source, r.condition = some source ∧ Condition.parse source = .error fault := by
  cases r.reading with
  | malformed reason lint compiled => simp [lint] at h
  | missing lint compiled => simp [lint, mem_messageIssues] at h
  | parsed condition lint compiled => simp [lint, mem_messageIssues] at h
  | invalid source fault' text parse lint compiled =>
      simp only [lint, List.mem_cons, mem_messageIssues, reduceCtorEq, and_false, or_false,
        IssueKind.invalidCondition.injEq] at h
      exact ⟨source, text, h ▸ parse⟩

/-! ## What lint says about a rule, and whether it fires -/

section

variable (index : Nat) (context : Context)

/-- A rule whose text is no condition is silent. -/
lemma fires_of_invalidCondition (h : .invalidCondition fault ∈ r.lint) :
    (r.compiled index).fires context = .ok none := by
  cases r.reading with
  | malformed reason lint compiled => simp [lint] at h
  | missing lint compiled => simp [lint, mem_messageIssues] at h
  | parsed condition lint compiled => simp [lint, mem_messageIssues] at h
  | invalid source fault' text parse lint compiled =>
      simp [compiled, Rule.compiled, CompiledRule.fires]

/-- **A rule is skipped in every context exactly if lint finds that it cannot run.** -/
lemma fires_eq_error_iff {reason : SkipReason} (h : kind.skipReason? = some reason) :
    (r.compiled index).fires context = .error reason ↔ kind ∈ r.lint := by
  have hreason : reason ≠ .missingError := by
    rintro rfl
    cases kind <;> cases h
  have hkind : kind ≠ .missingError := by
    rintro rfl
    cases h
  cases r.reading with
  | malformed why lint compiled =>
      cases kind <;> cases h <;> simp [compiled, lint, Rule.compiled, CompiledRule.fires, eq_comm]
  | missing lint compiled =>
      cases kind <;> cases h <;>
        simp [compiled, lint, mem_messageIssues, Rule.compiled, CompiledRule.fires]
  | invalid source fault text parse lint compiled =>
      cases kind <;> cases h <;>
        simp [compiled, lint, mem_messageIssues, Rule.compiled, CompiledRule.fires]
  | parsed condition lint compiled =>
      simp only [Rule.compiled, compiled, CompiledRule.fires, lint, mem_messageIssues, hkind,
        and_false, iff_false]
      split
      · split
        · simp
        · simpa using hreason.symm
      · simp

/-- What lint calls the reason why a rule is skipped. It does not know which fields a form has. -/
lemma exists_mem_lint_of_fires {reason : SkipReason}
    (h : (r.compiled index).fires context = .error reason) :
    ∃ kind, reason.issue? = some kind ∧ kind ∈ r.lint := by
  cases r.reading with
  | malformed why lint compiled =>
      simp only [Rule.compiled, compiled, CompiledRule.fires, Except.error.injEq] at h
      exact ⟨.malformedRule why, h ▸ rfl, by simp [lint]⟩
  | missing lint compiled =>
      simp only [Rule.compiled, compiled, CompiledRule.fires, Except.error.injEq] at h
      exact ⟨.missingCondition, h ▸ rfl, by simp [lint]⟩
  | invalid source fault text parse lint compiled =>
      simp only [Rule.compiled, compiled, CompiledRule.fires, reduceCtorEq] at h
  | parsed condition lint compiled =>
      simp only [Rule.compiled, compiled, CompiledRule.fires] at h
      split at h
      · split at h
        · cases h
        · rename_i herror
          cases h
          exact ⟨.missingError, rfl, by simp [lint, mem_messageIssues, herror]⟩
      · cases h

end

end Rule

/-! ## The agreement -/

/-- Compilation of a group agrees with lint: it records exactly the conditions that lint finds
faults in, whose rules are silent from then on, and a rule is skipped in every context exactly if
lint says why. -/
structure CompilesAsReported (d : Document) (form raw : String) (rules : List Rule)
    (compiled : List CompiledRule) (events : List Diagnostic) : Prop where
  invalid : ∀ index fault, d.Reports form raw index (.invalidCondition fault) ↔
    ∃ r source, rules[index]? = some r ∧ r.condition = some source ∧
      Condition.parse source = .error fault ∧ conditionEvent form raw index source fault ∈ events
  recorded : ∀ event ∈ events, ∃ index source fault,
    event = conditionEvent form raw index source fault ∧
      d.Reports form raw index (.invalidCondition fault)
  silent : ∀ index fault, d.Reports form raw index (.invalidCondition fault) →
    ∃ r, compiled[index]? = some r ∧ ∀ context, r.fires context = .ok none
  skipped : ∀ index kind reason, kind.skipReason? = some reason →
    (d.Reports form raw index kind ↔
      ∃ r, compiled[index]? = some r ∧ ∀ context, r.fires context = .error reason)
  nothing : d.issuesOf form raw = [] → events = []

/-- The runs of a form validator agree with lint: a rule is skipped as unreadable or without a
condition in each of them if lint says so and in none if it does not, a rule whose condition lint
finds a fault in never fires, one skipped for want of a message lacks it according to lint, and
where lint has nothing to say, rules are only skipped for fields that the form lacks. -/
structure FormValidator.RunsAsReported (v : FormValidator) (d : Document) (raw : String) :
    Prop where
  skipped : ∀ index kind reason, kind.skipReason? = some reason → ∀ host clock,
    (d.Reports v.form raw index kind ↔ ⟨index, reason⟩ ∈ (v.run host clock).outcome.skipped)
  never : ∀ index fault, d.Reports v.form raw index (.invalidCondition fault) → ∀ host clock,
    ∀ f ∈ (v.run host clock).outcome.fired, f.index ≠ index
  missingError : ∀ index host clock, ⟨index, .missingError⟩ ∈ (v.run host clock).outcome.skipped →
    d.Reports v.form raw index .missingError
  nothing : d.issuesOf v.form raw = [] → ∀ host clock, ∀ s ∈ (v.run host clock).outcome.skipped,
    ∃ field, s.reason = .unknownField field
  events : ∀ host clock, (v.run host clock).events =
    (v.run host clock).outcome.skipped.map fun s =>
      ⟨.executionError, some v.form, some raw, some s.index, s.reason.message⟩

/-- The runs of a field validator agree with lint in the same way, as far as they get: what they
record is about rules that they get to, and they fail with the message of the rule that fires. -/
structure FieldValidator.RunsAsReported (v : FieldValidator) (d : Document) (raw : String) :
    Prop where
  skipped : ∀ index kind reason, kind.skipReason? = some reason → ∀ host clock,
    v.Reaches host clock index →
      (d.Reports v.form raw index kind ↔
        ⟨.executionError, some v.form, some raw, some index, reason.message⟩ ∈
          (v.run host clock).2)
  never : ∀ index fault, d.Reports v.form raw index (.invalidCondition fault) →
    ∀ host clock message, ¬ v.FiresAt host clock index message
  missingError : ∀ index host clock,
    ⟨.executionError, some v.form, some raw, some index, "rule has no error message"⟩ ∈
        (v.run host clock).2 →
      d.Reports v.form raw index .missingError
  nothing : d.issuesOf v.form raw = [] → ∀ host clock, (v.run host clock).2 = []
  events : ∀ host clock, ∀ event ∈ (v.run host clock).2, ∃ index, ∃ reason : SkipReason,
    v.Reaches host clock index ∧
      event = ⟨.executionError, some v.form, some raw, some index, reason.message⟩
  fails : ∀ host clock message, (v.run host clock).1 = .error ⟨v.field, message⟩ ↔
    ∃ index, v.FiresAt host clock index message

namespace Document

variable {d : Document} {form raw : String} {f : FormRules} {rules : List Rule}

section

variable (hform : d.find? form = some f) (hgroup : f.groups.find? raw = some rules)
  (hkey : ∀ other, GroupKey.parse raw ≠ .other other)

include hform hgroup hkey

/-- A rule that lint says cannot run is skipped, in whatever context. -/
lemma reports_iff_fires_error {index : Nat} {kind : IssueKind} {reason : SkipReason}
    (hreason : kind.skipReason? = some reason) (context : Rule → Context) :
    d.Reports form raw index kind ↔
      ∃ r, rules[index]? = some r ∧ (r.compiled index).fires (context r) = .error reason := by
  rw [reports_iff hform hgroup hkey]
  refine exists_congr fun r => and_congr_right fun _ => ?_
  exact (Rule.fires_eq_error_iff index (context r) hreason).symm

/-- A rule whose condition lint finds a fault in is silent. -/
lemma fires_of_reports_invalid {index : Nat} {fault : Fault} {r : Rule}
    (h : d.Reports form raw index (.invalidCondition fault)) (hr : rules[index]? = some r)
    (context : Context) : (r.compiled index).fires context = .ok none := by
  obtain ⟨r', hr', hlint⟩ := (reports_iff hform hgroup hkey).1 h
  rw [hr] at hr'
  cases hr'
  exact Rule.fires_of_invalidCondition index context hlint

/-- A rule is only skipped for what lint says about it. -/
lemma exists_reports_of_fires_error {index : Nat} {r : Rule} {context : Context}
    {reason : SkipReason} (hr : rules[index]? = some r)
    (hfires : (r.compiled index).fires context = .error reason) :
    ∃ kind, reason.issue? = some kind ∧ d.Reports form raw index kind := by
  obtain ⟨kind, hkind, hlint⟩ := Rule.exists_mem_lint_of_fires index context hfires
  exact ⟨kind, hkind, (reports_iff hform hgroup hkey).2 ⟨r, hr, hlint⟩⟩

/-- **Compilation of a group comes to what lint says.** -/
lemma compilesAsReported :
    CompilesAsReported d form raw rules (compileRules form raw 0 rules).1
      (compileRules form raw 0 rules).2 where
  invalid index fault := by
    rw [reports_iff hform hgroup hkey]
    constructor
    · rintro ⟨r, hr, hlint⟩
      obtain ⟨source, htext, hparse⟩ := Rule.exists_of_invalidCondition_mem_lint hlint
      have hevent : conditionEvent form raw index source fault ∈ r.compileEvents form raw index :=
        Rule.mem_compileEvents_iff.2 ⟨source, fault, htext, hparse, hlint, rfl⟩
      exact ⟨r, source, hr, htext, hparse, mem_events_compileRules_iff.2 ⟨index, r, hr, hevent⟩⟩
    · rintro ⟨r, source, hr, htext, hparse, hevent⟩
      obtain ⟨place, r', hr', hmem⟩ := mem_events_compileRules_iff.1 hevent
      obtain ⟨source', fault', htext', hparse', hlint, heq⟩ := Rule.mem_compileEvents_iff.1 hmem
      have hplace : index = place := by
        simpa [conditionEvent] using congrArg Diagnostic.index heq
      subst hplace
      rw [hr] at hr'
      cases hr'
      rw [htext] at htext'
      cases htext'
      rw [hparse] at hparse'
      cases hparse'
      exact ⟨r, hr, hlint⟩
  recorded event hevent := by
    obtain ⟨index, r, hr, hmem⟩ := mem_events_compileRules_iff.1 hevent
    obtain ⟨source, fault, -, -, hlint, rfl⟩ := Rule.mem_compileEvents_iff.1 hmem
    exact ⟨index, source, fault, rfl, (reports_iff hform hgroup hkey).2 ⟨r, hr, hlint⟩⟩
  silent index fault hreports := by
    obtain ⟨r, hr, -⟩ := (reports_iff hform hgroup hkey).1 hreports
    refine ⟨r.compiled index, ?_, fires_of_reports_invalid hform hgroup hkey hreports hr⟩
    rw [getElem?_compileRules, hr]
    rfl
  skipped index kind reason hreason := by
    rw [getElem?_compileRules]
    constructor
    · intro hreports
      obtain ⟨r, hr, hlint⟩ := (reports_iff hform hgroup hkey).1 hreports
      refine ⟨r.compiled index, by rw [hr]; rfl, fun context => ?_⟩
      exact (Rule.fires_eq_error_iff index context hreason).2 hlint
    · rintro ⟨compiled, hcompiled, hfires⟩
      obtain ⟨r, hr, rfl⟩ := Option.map_eq_some_iff.1 hcompiled
      exact (reports_iff_fires_error hform hgroup hkey hreason fun _ => ∅).2 ⟨r, hr, hfires ∅⟩
  nothing hnothing := by
    refine List.eq_nil_iff_forall_not_mem.2 fun event hevent => ?_
    obtain ⟨index, r, hr, hmem⟩ := mem_events_compileRules_iff.1 hevent
    obtain ⟨source, fault, -, -, hlint, -⟩ := Rule.mem_compileEvents_iff.1 hmem
    have hreports := (reports_iff hform hgroup hkey).2 ⟨r, hr, hlint⟩
    exact not_reports_of_issuesOf_eq_nil hnothing index _ hreports

end

/-- A key that is read as one for a form or a field is no other key, and it is written as it is. -/
lemma ne_other_of_parse {key : GroupKey} (hraw : GroupKey.parse raw = key)
    (hkey : ∀ other, key ≠ .other other) :
    (∀ other, GroupKey.parse raw ≠ .other other) ∧ key.text = raw :=
  ⟨hraw ▸ hkey, hraw ▸ GroupKey.text_parse raw⟩

/-- **The runs of a form come to what lint says.** -/
lemma formRunsAsReported (hform : d.find? form = some f) (hgroup : f.groups.find? raw = some rules)
    (hraw : GroupKey.parse raw = .form) :
    (FormValidator.compile form rules).1.RunsAsReported d raw := by
  obtain ⟨hkey, htext⟩ := ne_other_of_parse hraw nofun
  -- A rule that is skipped is so for what lint says, or the form lacks a field.
  have hskipped : ∀ {index reason host clock},
      ⟨index, reason⟩ ∈ ((FormValidator.compile form rules).1.run host clock).outcome.skipped →
      (∃ kind, reason.issue? = some kind ∧ d.Reports form raw index kind) ∨
        ∃ field, reason = .unknownField field := by
    intro index reason host clock hmem
    obtain ⟨r, hr, hverdict⟩ := FormValidator.mem_skipped_run_iff.1 hmem
    exact (CompiledRule.fires_of_verdict_skipped hverdict).imp_left
      (exists_reports_of_fires_error hform hgroup hkey hr)
  exact
  { skipped := fun index kind reason hreason host clock => by
      rw [FormValidator.mem_skipped_run_iff]
      refine (reports_iff_fires_error hform hgroup hkey hreason
        (FormValidator.seenBehind host.cleaned clock (rules.take index))).trans ?_
      refine exists_congr fun r => and_congr_right fun _ => ⟨fun hfires => ?_, fun hverdict => ?_⟩
      · exact CompiledRule.verdict_of_fires_error hfires
      · refine (CompiledRule.fires_of_verdict_skipped hverdict).resolve_right ?_
        rintro ⟨field, hfield⟩
        exact IssueKind.skipReason?_ne_unknownField hreason field hfield
    never := fun index fault hreports host clock fired hfired hindex => by
      obtain ⟨r, hr, hverdict⟩ := FormValidator.mem_fired_run_iff.1 hfired
      have hfires := CompiledRule.fires_of_verdict_fired hverdict
      rw [hindex] at hr hfires
      rw [fires_of_reports_invalid hform hgroup hkey hreports hr] at hfires
      cases hfires
    missingError := fun index host clock hmem => by
      rcases hskipped hmem with ⟨kind, hkind, hreports⟩ | ⟨field, hfield⟩
      · cases hkind
        exact hreports
      · cases hfield
    nothing := fun hnothing host clock s hs => by
      refine (hskipped hs).resolve_left ?_
      rintro ⟨kind, -, hreports⟩
      exact not_reports_of_issuesOf_eq_nil hnothing s.index kind hreports
    events := fun host clock => by
      rw [FormValidator.events_run, ← htext]
      rfl }

/-- **The runs of a field come to what lint says**, as far as they get. -/
lemma fieldRunsAsReported (hform : d.find? form = some f)
    (hgroup : f.groups.find? raw = some rules) {field : String}
    (hraw : GroupKey.parse raw = .field field) :
    (FieldValidator.compile form field rules).1.RunsAsReported d raw := by
  obtain ⟨hkey, htext⟩ := ne_other_of_parse hraw nofun
  subst htext
  -- An event is about a rule that the run gets to, and skips for what lint says.
  have hevents : ∀ {event host clock},
      event ∈ ((FieldValidator.compile form field rules).1.run host clock).2 →
      ∃ index reason kind, (FieldValidator.compile form field rules).1.Reaches host clock index ∧
        event = skipEvent form (GroupKey.field field).text index reason ∧
        reason.issue? = some kind ∧ d.Reports form (GroupKey.field field).text index kind := by
    intro event host clock hmem
    obtain ⟨index, r, hr, hreaches, reason, hfires, rfl⟩ := FieldValidator.mem_events_run_iff.1 hmem
    obtain ⟨kind, hkind, hreports⟩ := exists_reports_of_fires_error hform hgroup hkey hr hfires
    exact ⟨index, reason, kind, hreaches, rfl, hkind, hreports⟩
  exact
  { skipped := fun index kind reason hreason host clock hreaches => by
      rw [FieldValidator.mem_events_run_iff]
      refine (reports_iff_fires_error hform hgroup hkey hreason
        fun _ => FieldValidator.contextOf field host.cleaned clock).trans ?_
      constructor
      · rintro ⟨r, hr, hfires⟩
        exact ⟨index, r, hr, hreaches, reason, hfires, rfl⟩
      · rintro ⟨place, r, hr, -, why, hfires, heq⟩
        obtain ⟨rfl, rfl⟩ := skipEvent_inj.1 heq
        exact ⟨r, hr, hfires⟩
    never := fun index fault hreports host clock message hfiresAt => by
      obtain ⟨compiled, hcompiled, -, hfires⟩ := hfiresAt
      rw [show (FieldValidator.compile form field rules).1.rules[index]? = _ from
        getElem?_compileRules form _ rules index] at hcompiled
      obtain ⟨r, hr, rfl⟩ := Option.map_eq_some_iff.1 hcompiled
      rw [fires_of_reports_invalid hform hgroup hkey hreports hr] at hfires
      cases hfires
    missingError := fun index host clock hmem => by
      obtain ⟨place, reason, kind, -, heq, hkind, hreports⟩ := hevents hmem
      have hsame : skipEvent form (GroupKey.field field).text index .missingError =
          skipEvent form (GroupKey.field field).text place reason := heq
      obtain ⟨rfl, rfl⟩ := skipEvent_inj.1 hsame
      cases hkind
      exact hreports
    nothing := fun hnothing host clock => by
      refine List.eq_nil_iff_forall_not_mem.2 fun event hmem => ?_
      obtain ⟨index, reason, kind, -, -, -, hreports⟩ := hevents hmem
      exact not_reports_of_issuesOf_eq_nil hnothing index kind hreports
    events := fun host clock event hmem => by
      obtain ⟨index, reason, kind, hreaches, heq, -, -⟩ := hevents hmem
      exact ⟨index, reason, hreaches, heq⟩
    fails := fun host clock message => FieldValidator.run_eq_error_iff }

/-- **Lint agrees with compilation and with every run.**  For a group that is for a form or a field,
compilation records what lint finds wrong with conditions, and runs skip what lint says they must;
what else the two say of a rule is in `CompilesAsReported` and in the `RunsAsReported` of the two
kinds of validators.  For any other group lint has one issue, that its key means nothing, and none
about its rules. -/
theorem lint_agrees (hform : d.find? form = some f) (hgroup : f.groups.find? raw = some rules) :
    (GroupKey.parse raw = .form →
      CompilesAsReported d form raw rules (FormValidator.compile form rules).1.rules
        (FormValidator.compile form rules).2 ∧
      (FormValidator.compile form rules).1.RunsAsReported d raw) ∧
    (∀ field, GroupKey.parse raw = .field field →
      CompilesAsReported d form raw rules (FieldValidator.compile form field rules).1.rules
        (FieldValidator.compile form field rules).2 ∧
      (FieldValidator.compile form field rules).1.RunsAsReported d raw) ∧
    (∀ other, GroupKey.parse raw = .other other →
      (d.issuesOf form raw).filter (fun issue => issue.kind = .unknownGroupKey) =
        [⟨form, raw, none, .unknownGroupKey⟩] ∧
      ∀ issue ∈ d.issuesOf form raw, issue.index = none) := by
  refine ⟨fun hraw => ⟨?_, formRunsAsReported hform hgroup hraw⟩,
    fun field hraw => ⟨?_, fieldRunsAsReported hform hgroup hraw⟩, fun other hraw => ?_⟩
  · obtain ⟨hkey, htext⟩ := ne_other_of_parse hraw nofun
    subst htext
    exact compilesAsReported hform hgroup hkey
  · obtain ⟨hkey, htext⟩ := ne_other_of_parse hraw nofun
    subst htext
    exact compilesAsReported hform hgroup hkey
  · have hother : other = raw := by
      have htext := GroupKey.text_parse raw
      rwa [hraw] at htext
    have hgroups : lintGroup form (GroupKey.parse raw, rules) =
        [⟨form, raw, none, .unknownGroupKey⟩] := by
      rw [hraw, hother]
      rfl
    have hown : ∀ issue ∈ (f.ownIssues form).filter fun issue => issue.group = raw,
        ∃ reason, issue = ⟨form, "", none, .malformedForm reason⟩ := fun issue hissue =>
      FormRules.eq_of_mem_ownIssues (List.mem_filter.1 hissue).1
    rw [issuesOf_eq hform hgroup, hgroups]
    constructor
    · rw [List.filter_append, List.filter_eq_nil_iff.2 fun issue hissue => ?_]
      · rfl
      · obtain ⟨reason, rfl⟩ := hown issue hissue
        simp
    · intro issue hissue
      rcases List.mem_append.1 hissue with hissue | hissue
      · obtain ⟨reason, rfl⟩ := hown issue hissue
        rfl
      · rw [List.mem_singleton.1 hissue]

/-- A rule that cannot be read, one without a condition, one whose condition is none and one without
a message. -/
def brokenRules : List Rule :=
  [⟨none, none, none, some "no map"⟩, ⟨none, none, some "e", none⟩,
    ⟨none, some "1 +", some "e", none⟩, ⟨none, some "True", none, none⟩]

/-- A document with these rules for a form. -/
def brokenDocument : Document :=
  ⟨KeyMap.ofList [("F", ⟨KeyMap.ofList [("clean", brokenRules)], none⟩)]⟩

/-- The first two of these rules are skipped in every run, and the third never fires. -/
theorem lint_agrees_broken :
    brokenDocument.find? "F" = some ⟨KeyMap.ofList [("clean", brokenRules)], none⟩ ∧
    (KeyMap.ofList [("clean", brokenRules)]).find? "clean" = some brokenRules ∧
    ∀ host clock,
      ⟨0, .malformedRule "no map"⟩ ∈
        ((FormValidator.compile "F" brokenRules).1.run host clock).outcome.skipped ∧
      ⟨1, .missingCondition⟩ ∈
        ((FormValidator.compile "F" brokenRules).1.run host clock).outcome.skipped ∧
      ∀ f ∈ ((FormValidator.compile "F" brokenRules).1.run host clock).outcome.fired,
        f.index ≠ 2 := by
  have hform : brokenDocument.find? "F" = some ⟨KeyMap.ofList [("clean", brokenRules)], none⟩ := rfl
  have hgroup : (KeyMap.ofList [("clean", brokenRules)]).find? "clean" = some brokenRules := rfl
  obtain ⟨-, hruns⟩ := (lint_agrees hform hgroup).1 rfl
  refine ⟨hform, hgroup, fun host clock => ⟨?_, ?_, ?_⟩⟩
  · refine (hruns.skipped 0 (.malformedRule "no map") _ rfl host clock).1 ?_
    decide +kernel
  · refine (hruns.skipped 1 .missingCondition _ rfl host clock).1 ?_
    decide +kernel
  · refine hruns.never 2 (.unexpected "end of input" 3 .operand) ?_ host clock
    decide +kernel

end Document

end FormValidation
