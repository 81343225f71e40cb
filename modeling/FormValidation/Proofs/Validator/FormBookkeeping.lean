import FormValidation.Proofs.Validator.RuleOutcome

/-!
# The books of a whole-form pass

Running the rules of a form keeps four lists in step: the rules that fired, those that were skipped,
the errors of the form and the events.  This file says what they hold after a run, for every list of
rules and every form.

`FormPass.InStep` is what the run keeps from rule to rule: the two lists of the outcome are in the
order of the rules and have no rule in common, and nothing of the form has changed but that it has
the errors of the rules that fired.  Which rules the lists hold is known rule by rule, from the
context in force at the turn of each (`FormValidator.turn_eq`) and from what the rule comes to there
in its own words.  `FormValidator.run_isBookkept` puts both together: no rule is passed over because
of what became of another.
-/

namespace FormValidation

/-- The lists of a pass over the rules below an index are in order and in step with each other, and
the form is as it was but for the errors of the rules that fired. -/
structure FormPass.InStep (host : Host) (bound : Nat) (pass : FormPass) : Prop where
  fired_increasing : (pass.outcome.fired.map (·.index)).Pairwise (· < ·)
  skipped_increasing : (pass.outcome.skipped.map (·.index)).Pairwise (· < ·)
  disjoint : ∀ i ∈ pass.outcome.fired.map (·.index), i ∉ pass.outcome.skipped.map (·.index)
  fired_lt : ∀ i ∈ pass.outcome.fired.map (·.index), i < bound
  skipped_lt : ∀ i ∈ pass.outcome.skipped.map (·.index), i < bound
  host_eq : pass.host = { host with
    errors := host.errors ++ pass.outcome.fired.map fun f => (f.field, f.message) }
  cleaned_eq : pass.outcome.cleaned = host.cleaned

/-- An increasing list of numbers below a bound goes on with the bound. -/
lemma pairwise_lt_concat {indices : List Nat} {bound : Nat} (h : indices.Pairwise (· < ·))
    (hlt : ∀ i ∈ indices, i < bound) : (indices ++ [bound]).Pairwise (· < ·) :=
  List.pairwise_append.2 ⟨h, List.pairwise_singleton _ _, fun i hi _ hlast =>
    List.mem_singleton.1 hlast ▸ hlt i hi⟩

lemma lt_succ_of_mem_concat {indices : List Nat} {bound : Nat} (hlt : ∀ i ∈ indices, i < bound) :
    ∀ i ∈ indices ++ [bound], i < bound + 1 := by
  intro i hi
  rcases List.mem_append.1 hi with hi | hi
  · exact Nat.lt_succ_of_lt (hlt i hi)
  · rw [List.mem_singleton.1 hi]
    exact Nat.lt_succ_self bound

/-- Nothing is listed at an index if neither list has the index. -/
lemma Outcome.not_listed_iff {o : Outcome} {index : Nat} :
    (index ∉ o.fired.map (·.index) ∧ index ∉ o.skipped.map (·.index)) ↔
      ∀ v, v ≠ .silent → ¬ o.Lists index v := by
  constructor
  · rintro ⟨hfired, hskipped⟩ v hv hlisted
    cases v with
    | fired field message => exact hfired (List.mem_map.2 ⟨_, hlisted, rfl⟩)
    | skipped reason => exact hskipped (List.mem_map.2 ⟨_, hlisted, rfl⟩)
    | silent => exact hv rfl
  · intro h
    constructor
    · intro hmem
      obtain ⟨f, hf, rfl⟩ := List.mem_map.1 hmem
      exact h (.fired f.field f.message) nofun hf
    · intro hmem
      obtain ⟨s, hs, rfl⟩ := List.mem_map.1 hmem
      exact h (.skipped s.reason) nofun hs

namespace FormValidator

/-- **One step keeps the books.** -/
lemma inStep_step (form : String) {host : Host} {pass : FormPass} {r : CompiledRule}
    (h : pass.InStep host r.index) : (step form pass r).InStep host (r.index + 1) := by
  have hfired : ∀ i ∈ pass.outcome.fired.map (·.index), i < r.index + 1 := fun i hi =>
    Nat.lt_succ_of_lt (h.fired_lt i hi)
  have hskipped : ∀ i ∈ pass.outcome.skipped.map (·.index), i < r.index + 1 := fun i hi =>
    Nat.lt_succ_of_lt (h.skipped_lt i hi)
  rw [step]
  split
  · -- The rule is silent.
    exact ⟨h.fired_increasing, h.skipped_increasing, h.disjoint, hfired, hskipped, h.host_eq,
      h.cleaned_eq⟩
  · -- The rule fires.
    rename_i message hresult
    refine ⟨?_, h.skipped_increasing, ?_, ?_, hskipped, ?_, h.cleaned_eq⟩
    · simpa using pairwise_lt_concat h.fired_increasing h.fired_lt
    · simp only [List.map_append, List.map_cons, List.map_nil, List.forall_mem_append,
        List.forall_mem_singleton]
      exact ⟨h.disjoint, fun hmem => Nat.lt_irrefl _ (h.skipped_lt _ hmem)⟩
    · simpa using lt_succ_of_mem_concat h.fired_lt
    · simp [Host.addError, h.host_eq]
  · -- The rule is skipped.
    rename_i reason hresult
    refine ⟨h.fired_increasing, ?_, ?_, hfired, ?_, h.host_eq, h.cleaned_eq⟩
    · simpa using pairwise_lt_concat h.skipped_increasing h.skipped_lt
    · simp only [List.map_append, List.map_cons, List.map_nil, List.mem_append,
        List.mem_singleton, not_or]
      exact fun i hi => ⟨h.disjoint i hi, Nat.ne_of_lt (h.fired_lt i hi)⟩
    · simpa using lt_succ_of_mem_concat h.skipped_lt

/-- A run keeps the books. -/
lemma inStep_run (form : String) (rules : List Rule) (host : Host) (clock : Clock) :
    ((compile form rules).1.run host clock).InStep host rules.length := by
  induction rules using List.reverseRecOn with
  | nil =>
      have hhost : host = { host with errors := host.errors ++ [] } := by rw [List.append_nil]
      exact ⟨.nil, .nil, nofun, nofun, nofun, hhost, rfl⟩
  | append_singleton front r ih =>
      rw [run_concat, List.length_append]
      exact inStep_step form (r := r.compiled front.length) ih

variable {form : String} {rules : List Rule} {host : Host} {clock : Clock} {index : Nat} {r : Rule}

lemma context_run (form : String) (rules : List Rule) (host : Host) (clock : Clock) :
    ((compile form rules).1.run host clock).context =
      bindFields host.cleaned (rules.filterMap (·.field)) (startContext host.cleaned clock) := by
  rw [run_compile, foldl_step_context, filterMap_field_compileRules]
  rfl

/-- The context in force at the turn of a rule is what the run has come to when it has bound the
field of the rule, behind all rules before it. -/
lemma turn_eq (form : String) (host : Host) (clock : Clock) (hr : rules[index]? = some r) :
    ((compile form (rules.take (index + 1))).1.run host clock).context =
      seenBehind host.cleaned clock (rules.take index) r := by
  rw [context_run, seenBehind, List.take_add_one, hr]
  rfl

/-- A rule is listed neither as fired nor as skipped exactly if its verdict is silence. -/
lemma not_listed_iff (form : String) (host : Host) (clock : Clock) (hr : rules[index]? = some r) :
    (index ∉ ((compile form rules).1.run host clock).outcome.fired.map (·.index) ∧
      index ∉ ((compile form rules).1.run host clock).outcome.skipped.map (·.index)) ↔
      (r.compiled index).verdict host (seenBehind host.cleaned clock (rules.take index) r) =
        .silent := by
  have hlists : ∀ v, v ≠ .silent →
      (((compile form rules).1.run host clock).outcome.Lists index v ↔
        (r.compiled index).verdict host
          (seenBehind host.cleaned clock (rules.take index) r) = v) := by
    intro v hv
    simp [lists_run_iff form rules host clock index hv, hr]
  rw [Outcome.not_listed_iff]
  constructor
  · intro h
    by_contra hne
    exact h _ hne ((hlists _ hne).2 rfl)
  · intro hsilent v hv hlisted
    exact hv (((hlists v hv).1 hlisted).symm.trans hsilent)

/-! ## The books -/

/-- What a run of a list of rules comes to: its lists are in order and in step, there is one event
for each rule that was skipped, and the lists hold exactly the rules that they should, each by what
it comes to in the context in force at its turn. -/
structure IsBookkept (form : String) (rules : List Rule) (host : Host) (clock : Clock)
    (pass : FormPass) : Prop extends pass.InStep host rules.length where
  events_eq : pass.events = pass.outcome.skipped.map fun s =>
    ⟨.executionError, some form, some "clean", some s.index, s.reason.message⟩
  /-- The context of a rule is the one that the run of the rules up to it ends in. -/
  turn : ∀ index r, rules[index]? = some r →
    ((compile form (rules.take (index + 1))).1.run host clock).context =
      seenBehind host.cleaned clock (rules.take index) r
  skipped_iff : ∀ index reason, ⟨index, reason⟩ ∈ pass.outcome.skipped ↔
    ∃ r, rules[index]? = some r ∧
      r.SkippedOn host (seenBehind host.cleaned clock (rules.take index) r) reason
  fired_iff : ∀ index field message, ⟨index, field, message⟩ ∈ pass.outcome.fired ↔
    ∃ r, rules[index]? = some r ∧
      r.HoldsIn (seenBehind host.cleaned clock (rules.take index) r) ∧
      r.error = some message ∧ r.field = field ∧
      ∀ x, r.field = some x → host.hasField x = true
  silent_iff : ∀ index r, rules[index]? = some r →
    (index ∉ pass.outcome.fired.map (·.index) ∧ index ∉ pass.outcome.skipped.map (·.index) ↔
      r.malformed = none ∧ r.condition ≠ none ∧
        ¬ r.HoldsIn (seenBehind host.cleaned clock (rules.take index) r))

/-- **A run of the rules of a form keeps its books.**  It comes to every rule, whatever became of
those before it, and its lists, the errors of the form and the events say the same about each. -/
theorem run_isBookkept (form : String) (rules : List Rule) (host : Host) (clock : Clock) :
    IsBookkept form rules host clock ((compile form rules).1.run host clock) where
  toInStep := inStep_run form rules host clock
  events_eq := events_run (compile form rules).1 host clock
  turn := fun _ _ hr => turn_eq form host clock hr
  skipped_iff := fun index reason => by simp only [mem_skipped_run_iff, Rule.verdict_eq_skipped_iff]
  fired_iff := fun index field message => by
    simp only [mem_fired_run_iff, Rule.verdict_eq_fired_iff]
  silent_iff := fun _ _ hr => (not_listed_iff form host clock hr).trans Rule.verdict_eq_silent_iff

example :
    let pass := (compile "signup"
      [⟨none, some "True", some "first", some "not a table"⟩,
        ⟨some "ghost", some "True", none, none⟩,
        ⟨some "age", some "age > 9", some "third", none⟩,
        ⟨some "age", some "age <", none, none⟩,
        ⟨some "ghost", some "True", some "fifth", none⟩,
        ⟨none, some "age > 9", some "", none⟩]).1.run
      (Host.of ["age"] (KeyMap.ofList [("age", .ofInt 10)]))
      ⟨Moment.ofLocal ⟨2024, 6, 15, by decide⟩ 12 0 0 0 0⟩
    pass.outcome.fired = [⟨2, some "age", "third"⟩, ⟨5, none, ""⟩] ∧
      pass.outcome.skipped = [⟨0, .malformedRule "not a table"⟩, ⟨1, .missingError⟩,
        ⟨4, .unknownField "ghost"⟩] := by
  decide +kernel

end FormValidator

end FormValidation
