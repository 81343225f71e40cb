import FormValidation.Proofs.Validator.RuleIndependence
import FormValidation.Validator.Field
import Mathlib.Data.List.Induction

/-!
# What runs list and record

A form validator lists in its outcome the rules that fired and those that it skipped; a field
validator leaves only its answer and the events of the rules that it skipped on the way.  This file
reads both back, rule by rule: the outcome of a form lists the verdict on each rule in the context
of those before it (`FormValidator.lists_run_iff`), and a field records a rule exactly if the run
gets to it, which is as long as no rule fires, and skips it (`FieldValidator.mem_events_run_iff`).
-/

namespace FormValidation

/-! ## What a form makes of a rule -/

namespace CompiledRule

variable {r : CompiledRule} {host : Host} {context : Context}

/-- What a form makes of a rule: it only minds a message for a field that it lacks. -/
lemma verdict_eq (r : CompiledRule) (host : Host) (context : Context) :
    r.verdict host context =
      match r.fires context with
      | .error reason => .skipped reason
      | .ok none => .silent
      | .ok (some message) =>
        match r.field with
        | none => .fired none message
        | some x => if host.hasField x then .fired (some x) message else .skipped (.unknownField x)
        := by
  rw [verdict, FormValidator.resultOf]
  cases hfires : r.fires context with
  | error reason => rfl
  | ok found =>
      cases found with
      | none => rfl
      | some message =>
          cases hfield : r.field with
          | none => rfl
          | some x => cases hhas : host.hasField x <;> simp [bind, Except.bind, hhas]

lemma verdict_of_fires_error {reason : SkipReason} (h : r.fires context = .error reason) :
    r.verdict host context = .skipped reason := by
  rw [verdict_eq, h]

lemma fires_of_verdict_fired {field : Option String} {message : String}
    (h : r.verdict host context = .fired field message) :
    r.fires context = .ok (some message) := by
  rw [verdict_eq] at h
  split at h
  · cases h
  · cases h
  · rename_i text hfires
    split at h
    · cases h
      exact hfires
    · split at h <;> cases h
      exact hfires

lemma fires_of_verdict_skipped {reason : SkipReason}
    (h : r.verdict host context = .skipped reason) :
    r.fires context = .error reason ∨ ∃ field, reason = .unknownField field := by
  rw [verdict_eq] at h
  split at h
  · rename_i why hfires
    cases h
    exact .inl hfires
  · cases h
  · split at h
    · cases h
    · split at h <;> cases h
      exact .inr ⟨_, rfl⟩

end CompiledRule

/-! ## Compiled groups -/

/-- The events that compilation records for a rule. -/
def Rule.compileEvents (r : Rule) (form group : String) (index : Nat) : List Diagnostic :=
  match r.compileCondition.2 with
  | some message => [.ofRule .conditionError form group (some index) message]
  | none => []

lemma compileRules_eq (form group : String) (index : Nat) (rules : List Rule) :
    compileRules form group index rules =
      ((rules.zipIdx index).map fun r => r.1.compiled r.2,
        (rules.zipIdx index).flatMap fun r => r.1.compileEvents form group r.2) := by
  induction rules generalizing index with
  | nil => rfl
  | cons r rules ih =>
      rw [compileRules, ih]
      rfl

lemma getElem?_compileRules (form group : String) (rules : List Rule) (index : Nat) :
    (compileRules form group 0 rules).1[index]? = rules[index]?.map (·.compiled index) := by
  simp [compileRules_eq, Function.comp_def]

lemma mem_events_compileRules_iff {form group : String} {rules : List Rule} {event : Diagnostic} :
    event ∈ (compileRules form group 0 rules).2 ↔
      ∃ (index : Nat) (r : Rule),
        rules[index]? = some r ∧ event ∈ r.compileEvents form group index := by
  simp only [compileRules_eq, List.mem_flatMap, List.mem_zipIdx_iff_getElem?]
  constructor
  · rintro ⟨⟨r, index⟩, hr, hevent⟩
    exact ⟨index, r, hr, hevent⟩
  · rintro ⟨index, r, hr, hevent⟩
    exact ⟨(r, index), hr, hevent⟩

/-! ## What the outcome of a form lists -/

namespace Outcome

/-- The outcome lists a rule as fired or as skipped; a silent rule is not listed. -/
def Lists (o : Outcome) (index : Nat) : Verdict → Prop
  | .fired field message => ⟨index, field, message⟩ ∈ o.fired
  | .skipped reason => ⟨index, reason⟩ ∈ o.skipped
  | .silent => False

end Outcome

namespace FormValidator

/-- One step lists its own rule, unless it is silent. -/
lemma lists_step (form : String) (pass : FormPass) (r : CompiledRule) (index : Nat) (v : Verdict) :
    (step form pass r).outcome.Lists index v ↔ pass.outcome.Lists index v ∨
      v ≠ .silent ∧ index = r.index ∧
        r.verdict pass.host (bindField pass.host.cleaned r pass.context) = v := by
  rw [step, CompiledRule.verdict]
  split <;> rename_i hresult
  all_goals
    rw [hresult]
    cases v <;> simp [Outcome.Lists, eq_comm]

lemma run_concat (form : String) (front : List Rule) (r : Rule) (host : Host) (clock : Clock) :
    (compile form (front ++ [r])).1.run host clock =
      step form ((compile form front).1.run host clock) (r.compiled front.length) := by
  rw [run_compile, compileRules_append, List.foldl_append, Nat.zero_add]
  rfl

/-- The next rule is decided in the context of all rules before it. -/
lemma verdict_behind (form : String) (front : List Rule) (r : Rule) (host : Host) (clock : Clock) :
    let pass := (compile form front).1.run host clock
    (r.compiled front.length).verdict pass.host
      (bindField pass.host.cleaned (r.compiled front.length) pass.context) =
        (r.compiled front.length).verdict host (seenBehind host.cleaned clock front r) := by
  intro pass
  have hnew : pass.outcome.verdict front.length = .silent :=
    (verdict_foldl_compileRules form _ front (fun _ _ => rfl) front.length).2 (by omega)
  have hverdict := verdict_append_cons form front [] r host clock
  rw [verdict, run_concat, verdict_step form pass _ _ hnew, Rule.index_compiled,
    if_pos rfl] at hverdict
  exact hverdict

/-- **What a run lists.**  It is the verdict on each rule in the context of those before it. -/
lemma lists_run_iff (form : String) (rules : List Rule) (host : Host) (clock : Clock) (index : Nat)
    {v : Verdict} (hv : v ≠ .silent) :
    ((compile form rules).1.run host clock).outcome.Lists index v ↔
      ∃ r, rules[index]? = some r ∧
        (r.compiled index).verdict host
          (seenBehind host.cleaned clock (rules.take index) r) = v := by
  induction rules using List.reverseRecOn with
  | nil =>
      cases v <;> simp [compile, compileRules, run, Outcome.unchanged, Outcome.Lists]
  | append_singleton front r ih =>
      rw [run_concat, lists_step, ih, verdict_behind, Rule.index_compiled]
      rcases Nat.lt_trichotomy index front.length with hlt | rfl | hgt
      · rw [List.getElem?_append_left hlt, List.take_append_of_le_length (Nat.le_of_lt hlt)]
        simp [Nat.ne_of_lt hlt]
      · simp [hv]
      · have hfront : front[index]? = none := List.getElem?_eq_none (Nat.le_of_lt hgt)
        have hall : (front ++ [r])[index]? = none :=
          List.getElem?_eq_none (by rw [List.length_append]; exact hgt)
        simp [hfront, hall, Nat.ne_of_gt hgt]

lemma mem_skipped_run_iff {form : String} {rules : List Rule} {host : Host} {clock : Clock}
    {index : Nat} {reason : SkipReason} :
    ⟨index, reason⟩ ∈ ((compile form rules).1.run host clock).outcome.skipped ↔
      ∃ r, rules[index]? = some r ∧
        (r.compiled index).verdict host
          (seenBehind host.cleaned clock (rules.take index) r) = .skipped reason :=
  lists_run_iff form rules host clock index (v := .skipped reason) nofun

lemma mem_fired_run_iff {form : String} {rules : List Rule} {host : Host} {clock : Clock}
    {f : Fired} :
    f ∈ ((compile form rules).1.run host clock).outcome.fired ↔
      ∃ r, rules[f.index]? = some r ∧
        (r.compiled f.index).verdict host
          (seenBehind host.cleaned clock (rules.take f.index) r) = .fired f.field f.message :=
  lists_run_iff form rules host clock f.index (v := .fired f.field f.message) nofun

/-- The events of a run are about the rules that it skips. -/
lemma events_run (v : FormValidator) (host : Host) (clock : Clock) :
    (v.run host clock).events = (v.run host clock).outcome.skipped.map fun s =>
      skipEvent v.form GroupKey.form.text s.index s.reason := by
  have hfold : ∀ (rules : List CompiledRule) (pass : FormPass),
      pass.events = pass.outcome.skipped.map (fun s =>
        skipEvent v.form GroupKey.form.text s.index s.reason) →
      (rules.foldl (step v.form) pass).events =
        (rules.foldl (step v.form) pass).outcome.skipped.map fun s =>
          skipEvent v.form GroupKey.form.text s.index s.reason := by
    intro rules
    induction rules with
    | nil => exact fun _ h => h
    | cons r rules ih =>
        intro pass h
        refine ih _ ?_
        rw [step]
        split <;> simp [h]
  exact hfold v.rules _ rfl

end FormValidator

/-! ## How far the run of a field gets, and what it records -/

/-- What a message begins with tells the reasons apart, but for the two of a rule that lacks
something. -/
lemma SkipReason.head?_message (reason : SkipReason) :
    reason.message.toList.head? = some (match reason with
      | .missingCondition | .missingError => 'r'
      | .unknownField _ => 'f'
      | .malformedRule _ => 'm') := by
  cases reason with
  | missingCondition => decide +kernel
  | missingError => decide +kernel
  | unknownField x =>
      show ("field `" ++ x ++ "` is not declared on the form").toList.head? = some 'f'
      simp only [String.toList_append]
      rfl
  | malformedRule why =>
      show ("malformed rule: " ++ why).toList.head? = some 'm'
      simp only [String.toList_append]
      rfl

lemma SkipReason.message_injective : Function.Injective SkipReason.message := by
  intro a b h
  have hhead : a.message.toList.head? = b.message.toList.head? := congrArg (·.toList.head?) h
  rw [head?_message, head?_message] at hhead
  cases a <;> cases b
  case missingCondition.missingError => exact absurd h (by decide +kernel)
  case missingError.missingCondition => exact absurd h (by decide +kernel)
  case unknownField.unknownField x y =>
    have htexts : "field `" ++ x ++ "` is not declared on the form" =
        "field `" ++ y ++ "` is not declared on the form" := h
    have hnames : x = y := (String.append_right_inj _).1 ((String.append_left_inj _).1 htexts)
    rw [hnames]
  case malformedRule.malformedRule x y =>
    have hwhy : x = y := (String.append_right_inj "malformed rule: ").1 h
    rw [hwhy]
  all_goals first | rfl | cases hhead

lemma skipEvent_inj {form group : String} {index other : Nat} {reason why : SkipReason} :
    skipEvent form group index reason = skipEvent form group other why ↔
      index = other ∧ reason = why := by
  simp [skipEvent, Diagnostic.ofRule, SkipReason.message_injective.eq_iff]

namespace FieldValidator

/-- No rule of these fires. -/
def NoneFires (rules : List CompiledRule) (context : Context) : Prop :=
  ∀ r ∈ rules, ∀ message, r.fires context ≠ .ok (some message)

/-- A run gets to the rule at an index, since no rule before it fires. -/
def Reaches (v : FieldValidator) (host : Host) (clock : Clock) (index : Nat) : Prop :=
  index < v.rules.length ∧
    NoneFires (v.rules.take index) (contextOf v.field host.cleaned clock)

/-- A run gets to the rule at an index, which fires with a message. -/
def FiresAt (v : FieldValidator) (host : Host) (clock : Clock) (index : Nat) (message : String) :
    Prop :=
  ∃ r, v.rules[index]? = some r ∧
    NoneFires (v.rules.take index) (contextOf v.field host.cleaned clock) ∧
    r.fires (contextOf v.field host.cleaned clock) = .ok (some message)

lemma noneFires_cons {r : CompiledRule} {rules : List CompiledRule} {context : Context} :
    NoneFires (r :: rules) context ↔
      (∀ message, r.fires context ≠ .ok (some message)) ∧ NoneFires rules context :=
  List.forall_mem_cons

/-- The message is that of the first rule that fires. -/
lemma firstMessage_eq_some_iff (form group : String) {context : Context}
    {rules : List CompiledRule} {message : String} :
    (firstMessage form group context rules).1 = some message ↔
      ∃ (index : Nat) (r : CompiledRule), rules[index]? = some r ∧
        NoneFires (rules.take index) context ∧ r.fires context = .ok (some message) := by
  induction rules with
  | nil => simp [firstMessage]
  | cons r rules ih =>
      rw [firstMessage, ← Nat.or_exists_add_one]
      simp only [List.getElem?_cons_zero, List.getElem?_cons_succ, List.take_zero,
        List.take_succ_cons, noneFires_cons]
      split <;> rename_i hfires
      · simp [hfires, NoneFires]
      · rw [ih]
        simp [hfires]
      · rw [ih]
        simp [hfires]

/-- The events are about the rules that are skipped before any rule fires. -/
lemma mem_events_firstMessage_iff {form group : String} {context : Context}
    {rules : List CompiledRule} {event : Diagnostic} :
    event ∈ (firstMessage form group context rules).2 ↔
      ∃ (index : Nat) (r : CompiledRule), rules[index]? = some r ∧
        NoneFires (rules.take index) context ∧
        ∃ reason, r.fires context = .error reason ∧
          event = skipEvent form group r.index reason := by
  induction rules with
  | nil => simp [firstMessage]
  | cons r rules ih =>
      rw [firstMessage, ← Nat.or_exists_add_one]
      simp only [List.getElem?_cons_zero, List.getElem?_cons_succ, List.take_zero,
        List.take_succ_cons, noneFires_cons]
      split <;> rename_i hfires
      · simp [hfires]
      · rw [ih]
        simp [hfires]
      · rw [List.mem_cons, ih]
        simp [hfires, NoneFires]

/-- A field fails with the message of the rule that fires. -/
lemma run_eq_error_iff {v : FieldValidator} {host : Host} {clock : Clock} {message : String} :
    (v.run host clock).1 = .error ⟨v.field, message⟩ ↔
      ∃ index, v.FiresAt host clock index message := by
  refine Iff.trans ?_ (firstMessage_eq_some_iff v.form (GroupKey.field v.field).text)
  rw [run]
  split <;> rename_i hfound
  · simp [hfound]
  · simp [hfound]

/-- The events of a run are those of the search for a message. -/
lemma run_compile_snd (form field : String) (rules : List Rule) (host : Host) (clock : Clock) :
    ((compile form field rules).1.run host clock).2 =
      (firstMessage form (GroupKey.field field).text (contextOf field host.cleaned clock)
        (compileRules form (GroupKey.field field).text 0 rules).1).2 := by
  rw [run]
  split <;> rfl

/-- The events of a run are about the rules that it gets to and skips. -/
lemma mem_events_run_iff {form field : String} {rules : List Rule} {host : Host} {clock : Clock}
    {event : Diagnostic} :
    event ∈ ((compile form field rules).1.run host clock).2 ↔
      ∃ (index : Nat) (r : Rule), rules[index]? = some r ∧
        (compile form field rules).1.Reaches host clock index ∧
        ∃ reason, (r.compiled index).fires (contextOf field host.cleaned clock) = .error reason ∧
          event = skipEvent form (GroupKey.field field).text index reason := by
  rw [run_compile_snd, mem_events_firstMessage_iff]
  refine exists_congr fun index => ?_
  simp only [getElem?_compileRules, Option.map_eq_some_iff]
  constructor
  · rintro ⟨_, ⟨r, hr, rfl⟩, hnone, reason, hfires, rfl⟩
    refine ⟨r, hr, ⟨?_, hnone⟩, reason, hfires, rfl⟩
    have hindex := (List.getElem?_eq_some_iff.1 hr).1
    simpa [compile, compileRules_eq] using hindex
  · rintro ⟨r, hr, hreaches, reason, hfires, rfl⟩
    exact ⟨_, ⟨r, hr, rfl⟩, hreaches.2, reason, hfires, rfl⟩

end FieldValidator

end FormValidation
