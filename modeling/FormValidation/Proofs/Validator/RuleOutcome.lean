import FormValidation.Proofs.Validator.RunReports

/-!
# What a rule comes to, in its own words

Validators run compiled rules, and a compiled rule ends in one of several ways which are decided in
two places: the entry, the condition and the message are looked at in any context, and a form looks
at the field as well.  This file says what a rule comes to in terms of the entry it was compiled
from: whether its text holds (`Rule.HoldsIn`), which message it has then (`Rule.message?`) and why
it fails to do its part (`Rule.failure?`).

The one statement about compilation is `Rule.fires_compiled`.  From it follow the three verdicts of
a form, each with its exact condition (`Rule.verdict_eq_skipped_iff`, `verdict_eq_fired_iff` and
`verdict_eq_silent_iff`), so that nothing below here has to open a compiled rule.
-/

namespace FormValidation

namespace Rule

/-- The entry of the rule can be read and its text is a condition that holds. -/
def HoldsIn (r : Rule) (context : Context) : Prop :=
  r.malformed = none ∧ ∃ source ∈ r.condition, Condition.decideText source context = true
  deriving Decidable

/-- The message of the rule, if the rule holds and has one. -/
def message? (r : Rule) (context : Context) : Option String :=
  if r.HoldsIn context then r.error else none

/-- Why the rule cannot run: its entry cannot be read, it has no condition, or it holds and has
nothing to say. -/
def failure? (r : Rule) (context : Context) : Option SkipReason :=
  match r.malformed with
  | some why => some (.malformedRule why)
  | none =>
    if r.condition = none then some .missingCondition
    else if r.HoldsIn context ∧ r.error = none then some .missingError
    else none

/-- The reasons for which a form skips the rule. -/
def SkippedOn (r : Rule) (host : Host) (context : Context) : SkipReason → Prop
  | .malformedRule why => r.malformed = some why
  | .missingCondition => r.malformed = none ∧ r.condition = none
  | .missingError => r.HoldsIn context ∧ r.error = none
  | .unknownField field =>
    r.HoldsIn context ∧ r.error ≠ none ∧ r.field = some field ∧ host.hasField field = false

variable {r : Rule} {host : Host} {context : Context} {index : Nat}

/-- **What a compiled rule does in a context**, in the words of the rule. -/
lemma fires_compiled (r : Rule) (index : Nat) (context : Context) :
    (r.compiled index).fires context =
      match r.failure? context with
      | some reason => .error reason
      | none => .ok (r.message? context) := by
  obtain ⟨field, condition, error, malformed⟩ := r
  cases malformed with
  | some why => rfl
  | none =>
      cases condition with
      | none => rfl
      | some source =>
          have hholds : (⟨field, some source, error, none⟩ : Rule).HoldsIn context ↔
              Condition.decideText source context = true := by
            simp [HoldsIn]
          simp only [compiled, compileCondition, failure?, message?, hholds,
            Condition.decideText_eq, CompiledRule.fires]
          cases Condition.read source with
          | error fault => simp
          | ok condition => cases htest : condition.test context <;> cases error <;> simp [htest]

lemma message?_eq_some_iff {message : String} :
    r.message? context = some message ↔ r.HoldsIn context ∧ r.error = some message := by
  rw [message?]
  by_cases h : r.HoldsIn context <;> simp [h]

lemma message?_ne_none_iff :
    r.message? context ≠ none ↔ r.HoldsIn context ∧ r.error ≠ none := by
  rw [message?]
  by_cases h : r.HoldsIn context <;> simp [h]

/-- The reasons not to run are those for which every form skips the rule. -/
lemma failure?_eq_some_iff {reason : SkipReason} (hreason : ∀ field, reason ≠ .unknownField field) :
    r.failure? context = some reason ↔ r.SkippedOn host context reason := by
  rw [failure?]
  cases hmalformed : r.malformed with
  | some why =>
      cases reason with
      | unknownField field => exact absurd rfl (hreason field)
      | _ => simp [SkippedOn, HoldsIn, hmalformed]
  | none =>
      cases reason with
      | unknownField field => exact absurd rfl (hreason field)
      | _ =>
          by_cases hcondition : r.condition = none
          · simp [SkippedOn, HoldsIn, hmalformed, hcondition]
          · simp [SkippedOn, hmalformed, hcondition]

lemma failure?_ne_unknownField (field : String) :
    r.failure? context ≠ some (.unknownField field) := by
  rw [failure?]
  repeat' split
  all_goals nofun

/-- A rule that cannot run has nothing to say. -/
lemma message?_of_failure {reason : SkipReason} (h : r.failure? context = some reason) :
    r.message? context = none := by
  rw [failure?] at h
  rw [message?]
  split at h
  · rename_i why hmalformed
    exact if_neg fun hholds => by rw [hholds.1] at hmalformed; cases hmalformed
  · split at h
    · rename_i hcondition
      exact if_neg fun hholds => by simp [HoldsIn, hcondition] at hholds
    · split at h
      · rename_i hmute
        rw [hmute.2, ite_self]
      · cases h

/-- A compiled rule fires with its message. -/
lemma fires_of_message? {message : String} (h : r.message? context = some message) (index : Nat) :
    (r.compiled index).fires context = .ok (some message) := by
  rw [fires_compiled]
  cases hfailure : r.failure? context with
  | some reason =>
      rw [message?_of_failure hfailure] at h
      cases h
  | none => rw [h]

/-- A rule can run without saying anything if it has a condition that does not hold. -/
lemma failure?_and_message?_eq_none_iff :
    (r.failure? context = none ∧ r.message? context = none) ↔
      r.malformed = none ∧ r.condition ≠ none ∧ ¬ r.HoldsIn context := by
  rw [failure?, message?]
  cases hmalformed : r.malformed with
  | some why => simp
  | none =>
      by_cases hcondition : r.condition = none
      · simp [hcondition]
      · by_cases hholds : r.HoldsIn context <;> simp [hcondition, hholds]

/-! ## The verdicts of a form -/

/-- What a form makes of a compiled rule. -/
lemma verdict_compiled (r : Rule) (index : Nat) (host : Host) (context : Context) :
    (r.compiled index).verdict host context =
      match r.failure? context with
      | some reason => .skipped reason
      | none =>
        match r.message? context, r.field with
        | none, _ => .silent
        | some message, none => .fired none message
        | some message, some field =>
          if host.hasField field then .fired (some field) message
          else .skipped (.unknownField field) := by
  rw [CompiledRule.verdict_eq, fires_compiled, field_compiled]
  cases r.failure? context with
  | some reason => rfl
  | none => cases r.message? context <;> cases r.field <;> rfl

/-- **When a form skips a rule, and why.** -/
lemma verdict_eq_skipped_iff {reason : SkipReason} :
    (r.compiled index).verdict host context = .skipped reason ↔
      r.SkippedOn host context reason := by
  rw [verdict_compiled]
  by_cases hreason : ∃ field, reason = .unknownField field
  · obtain ⟨field, rfl⟩ := hreason
    rw [SkippedOn, ← and_assoc, ← message?_ne_none_iff]
    cases hfailure : r.failure? context with
    | some own =>
        have hown : own ≠ .unknownField field := fun h =>
          failure?_ne_unknownField field (h ▸ hfailure)
        simp [message?_of_failure hfailure, hown]
    | none =>
        cases r.message? context with
        | none => simp
        | some message =>
            cases r.field with
            | none => simp
            | some x =>
                by_cases hx : x = field
                · subst hx
                  cases hhas : host.hasField x <;> simp [hhas]
                · cases hhas : host.hasField x <;> simp [hhas, hx]
  · rw [not_exists] at hreason
    rw [← failure?_eq_some_iff hreason]
    cases r.failure? context with
    | some own => simp
    | none =>
        cases r.message? context with
        | none => simp
        | some message =>
            cases r.field with
            | none => simp
            | some x => cases hhas : host.hasField x <;> simp [hhas, Ne.symm (hreason x)]

/-- **When a rule fires on a form, and what it adds.** -/
lemma verdict_eq_fired_iff {field : Option String} {message : String} :
    (r.compiled index).verdict host context = .fired field message ↔
      r.HoldsIn context ∧ r.error = some message ∧ r.field = field ∧
        ∀ x, r.field = some x → host.hasField x = true := by
  rw [← and_assoc, ← message?_eq_some_iff, verdict_compiled]
  cases hfailure : r.failure? context with
  | some reason => simp [message?_of_failure hfailure]
  | none =>
      cases r.message? context with
      | none => simp
      | some text =>
          cases r.field with
          | none => simp [and_comm]
          | some x => cases hhas : host.hasField x <;> simp [hhas, and_comm]

/-- **When a form passes over a rule without a word.** -/
lemma verdict_eq_silent_iff : (r.compiled index).verdict host context = .silent ↔
    r.malformed = none ∧ r.condition ≠ none ∧ ¬ r.HoldsIn context := by
  rw [← failure?_and_message?_eq_none_iff, verdict_compiled]
  cases r.failure? context with
  | some reason => simp
  | none =>
      cases r.message? context with
      | none => simp
      | some message =>
          cases r.field with
          | none => simp
          | some x => cases hhas : host.hasField x <;> simp [hhas]

end Rule

end FormValidation
