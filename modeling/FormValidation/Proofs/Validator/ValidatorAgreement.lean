import FormValidation.Proofs.Validator.FirstFailure

/-!
# Where forms and fields decide alike

Rules for a form see every cleaned field by its name, and rules for a field see the value of their
field as `value`; all cleaned data and the clock are seen by both, as `cleaned_data` and `timezone`.
The two contexts are put together in different orders, and data may well have fields of these very
names.  This file says that none of it matters to a rule that mentions the two common names only
(`Rule.MentionsOnly`): the contexts agree on them (`Context.find?_common`), and so does whatever
comes of the rule.

Without target fields the context of a form is the same for all its rules, so its run can be written
down rule by rule (`FormValidator.run_untargeted`).  Set beside the search that a field makes, this
gives `FieldValidator.run_eq_first_fired` for lists of rules and `fired_iff_fails` for a single one.
-/

namespace FormValidation

/-! ## What a rule mentions -/

/-- The condition of the rule, if it has one, has no other names than these. -/
def Rule.MentionsOnly (r : Rule) (names : List String) : Prop :=
  ∀ source ∈ r.condition, ∀ tree, Condition.parse source = .ok tree → ∀ x ∈ tree.names, x ∈ names

instance (r : Rule) (names : List String) : Decidable (r.MentionsOnly names) :=
  decidable_of_iff
    (∀ source ∈ r.condition, ∀ tree ∈ (Condition.parse source).toOption, ∀ x ∈ tree.names,
      x ∈ names) (by
    refine forall₂_congr fun source _ => forall_congr' fun tree => ?_
    cases Condition.parse source <;> simp [Except.toOption])

/-- The names that rules for a form and rules for a field have in common. -/
def commonNames : List String := ["cleaned_data", "timezone"]

/-- Contexts that agree on the names of a text decide it alike. -/
lemma Condition.decideText_congr {source : String} {c d : Context}
    (h : ∀ tree, parse source = .ok tree → ∀ x ∈ tree.names, c.find? x = d.find? x) :
    decideText source c = decideText source d := by
  rw [decideText_eq, decideText_eq, read]
  cases hparse : parse source with
  | error fault => rfl
  | ok tree => exact test_congr (h tree hparse)

namespace Rule

variable {r : Rule} {names : List String} {c d : Context}

lemma holdsIn_congr (h : r.MentionsOnly names) (hsame : ∀ x ∈ names, c.find? x = d.find? x) :
    r.HoldsIn c ↔ r.HoldsIn d := by
  refine and_congr_right fun _ => exists_congr fun source => and_congr_right fun hsource => ?_
  rw [Condition.decideText_congr fun tree htree x hx => hsame x (h source hsource tree htree x hx)]

lemma message?_congr (h : r.MentionsOnly names) (hsame : ∀ x ∈ names, c.find? x = d.find? x) :
    r.message? c = r.message? d := by
  simp only [message?, holdsIn_congr h hsame]

lemma failure?_congr (h : r.MentionsOnly names) (hsame : ∀ x ∈ names, c.find? x = d.find? x) :
    r.failure? c = r.failure? d := by
  simp only [failure?, holdsIn_congr h hsame]

end Rule

/-- **What forms and fields show of the common names is the same**, whatever the data are. -/
lemma Context.find?_common (field : String) (cleaned : CleanedData) (clock : Clock) :
    ∀ x ∈ commonNames, (FormValidator.startContext cleaned clock).find? x =
      (FieldValidator.contextOf field cleaned clock).find? x := by
  intro x hx
  rw [FormValidator.find?_startContext, FieldValidator.find?_contextOf]
  rw [commonNames, List.mem_cons, List.mem_singleton] at hx
  rcases hx with rfl | rfl <;> rfl

/-! ## Runs of rules without target fields -/

namespace FormValidator

/-- The rules that fire in a context, each at its place, if none of them has a target field. -/
def firedIn (context : Context) (rules : List (Rule × Nat)) : List Fired :=
  rules.filterMap fun r => (r.1.message? context).map (⟨r.2, none, ·⟩)

/-- The rules that cannot run in a context, each at its place. -/
def skippedIn (context : Context) (rules : List (Rule × Nat)) : List Skipped :=
  rules.filterMap fun r => (r.1.failure? context).map (⟨r.2, ·⟩)

/-- One step for a rule without a target field. -/
lemma step_untargeted (form : String) {r : Rule} (hfield : r.field = none) (index : Nat)
    (pass : FormPass) :
    let next := step form pass (r.compiled index)
    next.context = pass.context ∧
      next.outcome.fired = pass.outcome.fired ++ firedIn pass.context [(r, index)] ∧
      next.outcome.skipped = pass.outcome.skipped ++ skippedIn pass.context [(r, index)] := by
  have hcontext : bindField pass.host.cleaned (r.compiled index) pass.context = pass.context := by
    rw [bindField, Rule.field_compiled, hfield]
  have hresult : resultOf pass.host (r.compiled index) pass.context =
      (r.compiled index).fires pass.context := by
    rw [resultOf, Rule.field_compiled, hfield]
    cases (r.compiled index).fires pass.context with
    | error reason => rfl
    | ok found => cases found <;> rfl
  simp only [step, hcontext, hresult, Rule.fires_compiled, Rule.index_compiled,
    Rule.field_compiled, hfield, firedIn, skippedIn]
  cases hfailure : r.failure? pass.context with
  | some reason => simp [hfailure, Rule.message?_of_failure hfailure]
  | none => cases hmessage : r.message? pass.context <;> simp [hfailure, hmessage]

/-- **A run of rules without target fields, rule by rule.**  All of them are looked at in the
context of the first. -/
lemma run_untargeted (form : String) {rules : List Rule} (h : ∀ r ∈ rules, r.field = none)
    (host : Host) (clock : Clock) :
    let pass := (compile form rules).1.run host clock
    let context := startContext host.cleaned clock
    pass.context = context ∧ pass.outcome.fired = firedIn context rules.zipIdx ∧
      pass.outcome.skipped = skippedIn context rules.zipIdx := by
  dsimp only
  induction rules using List.reverseRecOn with
  | nil => exact ⟨rfl, rfl, rfl⟩
  | append_singleton front r ih =>
      rw [List.forall_mem_append, List.forall_mem_singleton] at h
      obtain ⟨hcontext, hfired, hskipped⟩ := ih h.1
      have hstep := step_untargeted form h.2 front.length ((compile form front).1.run host clock)
      rw [hcontext, hfired, hskipped] at hstep
      rw [run_concat, List.zipIdx_append, List.zipIdx_singleton, Nat.zero_add, firedIn, skippedIn,
        List.filterMap_append, List.filterMap_append]
      exact hstep

end FormValidator

/-! ## One run beside the other -/

namespace FieldValidator

open FormValidator (firedIn)

/-- The first message of some rules is that of the first rule that fires. -/
lemma head?_firedIn (context : Context) (index : Nat) (rules : List Rule) :
    (firedIn context (rules.zipIdx index)).head?.map (·.message) =
      rules.findSome? (·.message? context) := by
  induction rules generalizing index with
  | nil => rfl
  | cons r rules ih =>
      rw [List.zipIdx_cons, firedIn, List.filterMap_cons, List.findSome?_cons]
      cases r.message? context with
      | some message => rfl
      | none => exact ih (index + 1)

lemma findSome?_message?_congr {rules : List Rule} {names : List String} {c d : Context}
    (hnames : ∀ r ∈ rules, r.MentionsOnly names) (hsame : ∀ x ∈ names, c.find? x = d.find? x) :
    rules.findSome? (·.message? c) = rules.findSome? (·.message? d) := by
  induction rules with
  | nil => rfl
  | cons r rules ih =>
      obtain ⟨hr, hrules⟩ := List.forall_mem_cons.1 hnames
      rw [List.findSome?_cons, List.findSome?_cons, Rule.message?_congr hr hsame, ih hrules]

/-- **A field fails with the first of the messages that the form would have.**  This holds of rules
without target fields that mention the common names only. -/
theorem run_eq_first_fired (form field : String) {rules : List Rule}
    (hfield : ∀ r ∈ rules, r.field = none) (hnames : ∀ r ∈ rules, r.MentionsOnly commonNames)
    (host : Host) (clock : Clock) :
    ((compile form field rules).1.run host clock).1 =
      match ((FormValidator.compile form rules).1.run host clock).outcome.fired.head? with
      | some f => .error ⟨field, f.message⟩
      | none => .ok (cleanedField host.cleaned field) := by
  have hfirst := head?_firedIn (FormValidator.startContext host.cleaned clock) 0 rules
  rw [findSome?_message?_congr hnames (Context.find?_common field host.cleaned clock)] at hfirst
  rw [run_compile_fst, ← hfirst, (FormValidator.run_untargeted form hfield host clock).2.1]
  cases (firedIn (FormValidator.startContext host.cleaned clock) rules.zipIdx).head? <;> rfl

/-- **A form and a field decide a rule alike.**  A rule without a target field that mentions the
common names only fires on a form exactly if it fails the field, with the same message; otherwise
the field passes with its value.  Where the rule cannot run, both say so for the same reason. -/
theorem fired_iff_fails (form field : String) {r : Rule} (hfield : r.field = none)
    (hnames : r.MentionsOnly commonNames) (host : Host) (clock : Clock) :
    let whole := (FormValidator.compile form [r]).1.run host clock
    let single := (compile form field [r]).1.run host clock
    (∀ message, whole.outcome.fired = [⟨0, none, message⟩] ↔
      single.1 = .error ⟨field, message⟩) ∧
    (whole.outcome.fired = [] ↔ single.1 = .ok ((host.cleaned.find? field).getD .null)) ∧
    single.2 = whole.outcome.skipped.map fun s =>
      ⟨.executionError, some form, some ("clean_" ++ field), some s.index, s.reason.message⟩ := by
  dsimp only
  have hsame := Context.find?_common field host.cleaned clock
  obtain ⟨-, hfired, hskipped⟩ :=
    FormValidator.run_untargeted form (List.forall_mem_singleton.2 hfield) host clock
  rw [hfired, hskipped, run_compile_fst, run_compile_snd]
  simp only [FormValidator.firedIn, FormValidator.skippedIn, List.zipIdx_singleton,
    List.filterMap_cons, List.filterMap_nil, List.findSome?_cons, List.findSome?_nil,
    compileRules_cons, firstMessage, Rule.fires_compiled, Rule.message?_congr hnames hsame,
    Rule.failure?_congr hnames hsame]
  cases hfailure : r.failure? (contextOf field host.cleaned clock) with
  | some reason =>
      simp [Rule.message?_of_failure hfailure, compileRules, firstMessage, cleanedField, skipEvent,
        Diagnostic.ofRule, GroupKey.text, GroupKey.fieldStem]
  | none =>
      cases r.message? (contextOf field host.cleaned clock) <;>
        simp [compileRules, firstMessage, cleanedField]

/-- The data have fields of all the names in question, and the field that is validated has one of
them: form and field still find the same under `cleaned_data` and `timezone`. -/
theorem fired_iff_fails_namesakes :
    let r : Rule := ⟨none,
      some "cleaned_data.value > 9 and timezone.today() > cleaned_data.timezone",
      some "too late", none⟩
    let host := Host.of ["timezone"] (KeyMap.ofList
      [("cleaned_data", .ofInt 1), ("timezone", .string "2024-01-01"), ("value", .ofInt 10)])
    let clock : Clock := ⟨Moment.ofLocal ⟨2024, 6, 15, by decide⟩ 12 0 0 0 0⟩
    r.field = none ∧ r.MentionsOnly commonNames ∧
      ((FormValidator.compile "F" [r]).1.run host clock).outcome.fired =
        [⟨0, none, "too late"⟩] ∧
      ((compile "F" "timezone" [r]).1.run host clock).1 = .error ⟨"timezone", "too late"⟩ := by
  intro r host clock
  have hnames : r.MentionsOnly commonNames := by decide +kernel
  have hfired : ((FormValidator.compile "F" [r]).1.run host clock).outcome.fired =
      [⟨0, none, "too late"⟩] := by
    decide +kernel
  exact ⟨rfl, hnames, hfired,
    ((fired_iff_fails "F" "timezone" rfl hnames host clock).1 "too late").1 hfired⟩

end FieldValidator

end FormValidation
