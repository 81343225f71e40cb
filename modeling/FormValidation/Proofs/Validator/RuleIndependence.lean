import FormValidation.Proofs.Condition.Noninterference
import FormValidation.Validator.Form
import Mathlib.Tactic.Common

/-!
# What the rules of a form do to each other

A form validator runs its rules one after the other in one context.  A rule that names a field
binds that field for itself, and the binding stays for the rules behind it, whether the rule fires
or not.  This file says what follows from that for a single rule.

`FormValidator.verdict` is what becomes of the rule at an index: it fires with its field and its
message, it is skipped for a reason, or it is silent.  `seenBehind` is the context of a rule that
stands behind some others, and `Leaks` says which names the others leave in it: the fields that
they name and the rule does not, if they have no value or are one of the two reserved names.

The run lemma `verdict_append_cons` gives the verdict of every rule from its own context, so what
stands behind a rule never matters and what stands before it matters through `Leaks` alone
(`find?_seenBehind_ne_iff`).  Together they give the exact condition under which a rule is treated
as if it stood alone, `verdict_eq_alone_iff`; that the condition is needed shows at
`leaked_field_changes_verdict`, where a rule that never runs makes another one fire.
-/

namespace FormValidation

/-- What becomes of one rule when a form is validated. -/
inductive Verdict where
  | fired (field : Option String) (message : String)
  | skipped (reason : SkipReason)
  | silent
  deriving DecidableEq

/-- What became of the rule at an index. -/
def Outcome.verdict (o : Outcome) (index : Nat) : Verdict :=
  match o.fired.find? fun f => f.index = index with
  | some f => .fired f.field f.message
  | none =>
    match o.skipped.find? fun s => s.index = index with
    | some s => .skipped s.reason
    | none => .silent

namespace Outcome

variable {o : Outcome} {index : Nat}

lemma verdict_eq_silent_iff :
    o.verdict index = .silent ↔
      (o.fired.find? fun f => f.index = index) = none ∧
        (o.skipped.find? fun s => s.index = index) = none := by
  rw [verdict]
  split <;> rename_i hfired
  · simp [hfired]
  · split <;> rename_i hskipped <;> simp [hfired, hskipped]

/-- One more rule that fired changes what is known of that rule alone. -/
lemma verdict_fire {f : Fired} (hnew : o.verdict f.index = .silent) :
    ({ o with fired := o.fired ++ [f] } : Outcome).verdict index =
      if index = f.index then .fired f.field f.message else o.verdict index := by
  obtain ⟨hfired, -⟩ := verdict_eq_silent_iff.1 hnew
  by_cases h : index = f.index
  · subst h
    simp [verdict, List.find?_append, hfired]
  · simp [verdict, List.find?_append, h, Ne.symm h]

/-- One more rule that was skipped changes what is known of that rule alone. -/
lemma verdict_skip {s : Skipped} (hnew : o.verdict s.index = .silent) :
    ({ o with skipped := o.skipped ++ [s] } : Outcome).verdict index =
      if index = s.index then .skipped s.reason else o.verdict index := by
  obtain ⟨hfired, hskipped⟩ := verdict_eq_silent_iff.1 hnew
  by_cases h : index = s.index
  · subst h
    simp [verdict, List.find?_append, hfired, hskipped]
  · simp [verdict, List.find?_append, h, Ne.symm h]

end Outcome

/-- What becomes of a rule in a context. -/
def CompiledRule.verdict (r : CompiledRule) (host : Host) (context : Context) : Verdict :=
  match FormValidator.resultOf host r context with
  | .ok (some message) => .fired r.field message
  | .ok none => .silent
  | .error reason => .skipped reason

/-- The rule after compilation, at its place in a group. -/
def Rule.compiled (r : Rule) (index : Nat) : CompiledRule :=
  ⟨index, r.field, r.compileCondition.1, r.error⟩

@[simp] lemma Rule.index_compiled (r : Rule) (index : Nat) : (r.compiled index).index = index := rfl

@[simp] lemma Rule.field_compiled (r : Rule) (index : Nat) : (r.compiled index).field = r.field :=
  rfl

/-! ## Compilation, rule by rule -/

lemma compileRules_cons (form group : String) (index : Nat) (r : Rule) (rest : List Rule) :
    (compileRules form group index (r :: rest)).1 =
      r.compiled index :: (compileRules form group (index + 1) rest).1 := rfl

lemma compileRules_append (form group : String) (index : Nat) (front back : List Rule) :
    (compileRules form group index (front ++ back)).1 =
      (compileRules form group index front).1 ++
        (compileRules form group (index + front.length) back).1 := by
  induction front generalizing index with
  | nil => rfl
  | cons r front ih =>
      rw [List.cons_append, compileRules_cons, compileRules_cons, ih (index + 1),
        List.cons_append, List.length_cons, Nat.add_right_comm, Nat.add_assoc]

/-! ## One step, and a whole run -/

namespace FormValidator

/-- The context with several fields bound, one after the other, to their values. -/
def bindFields (cleaned : CleanedData) (fields : List String) (context : Context) : Context :=
  fields.foldl (fun context x => context.insert x (Value.ofJson (cleanedField cleaned x))) context

lemma find?_bindFields (cleaned : CleanedData) (fields : List String) (context : Context)
    (x : String) :
    (bindFields cleaned fields context).find? x =
      if x ∈ fields then some (Value.ofJson (cleanedField cleaned x)) else context.find? x := by
  induction fields generalizing context with
  | nil => simp [bindFields]
  | cons y fields ih =>
      rw [bindFields, List.foldl_cons, ← bindFields, ih, KeyMap.find?_insert]
      by_cases hx : x ∈ fields
      · simp [hx]
      · by_cases hxy : y = x
        · subst hxy; simp
        · simp [hx, hxy, Ne.symm hxy]

lemma bindField_eq (cleaned : CleanedData) (r : CompiledRule) (context : Context) :
    bindField cleaned r context = bindFields cleaned r.field.toList context := by
  rw [bindField]
  cases r.field <;> rfl

/-- A verdict depends on the form through its fields only. -/
lemma verdict_congr_host {r : CompiledRule} {host other : Host} {context : Context}
    (h : other.fields = host.fields) : r.verdict other context = r.verdict host context := by
  have hfield : other.hasField = host.hasField := funext fun x => by
    rw [Host.hasField, Host.hasField, h]
  rw [CompiledRule.verdict, CompiledRule.verdict, resultOf, resultOf, hfield]

section
variable (form : String) (pass : FormPass) (r : CompiledRule)

@[simp] lemma step_context :
    (step form pass r).context = bindField pass.host.cleaned r pass.context := by
  rw [step]
  split <;> rfl

@[simp] lemma step_cleaned : (step form pass r).host.cleaned = pass.host.cleaned := by
  rw [step]
  split <;> rfl

@[simp] lemma step_fields : (step form pass r).host.fields = pass.host.fields := by
  rw [step]
  split <;> rfl

/-- A step decides on its own rule and leaves what is known of the others. -/
lemma verdict_step (index : Nat) (hnew : pass.outcome.verdict r.index = .silent) :
    (step form pass r).outcome.verdict index =
      if index = r.index then r.verdict pass.host (bindField pass.host.cleaned r pass.context)
      else pass.outcome.verdict index := by
  rw [step, CompiledRule.verdict]
  split <;> rename_i hresult
  · rw [hresult]
    by_cases h : index = r.index
    · rw [if_pos h, h, hnew]
    · rw [if_neg h]
  · rw [hresult]
    exact Outcome.verdict_fire hnew
  · rw [hresult]
    exact Outcome.verdict_skip hnew

end
section
variable (form : String) (rules : List CompiledRule) (pass : FormPass)

lemma foldl_step_cleaned : (rules.foldl (step form) pass).host.cleaned = pass.host.cleaned := by
  induction rules generalizing pass with
  | nil => rfl
  | cons r rules ih => rw [List.foldl_cons, ih, step_cleaned]

lemma foldl_step_fields : (rules.foldl (step form) pass).host.fields = pass.host.fields := by
  induction rules generalizing pass with
  | nil => rfl
  | cons r rules ih => rw [List.foldl_cons, ih, step_fields]

/-- After some rules, every field that one of them names is bound. -/
lemma foldl_step_context :
    (rules.foldl (step form) pass).context =
      bindFields pass.host.cleaned (rules.filterMap (·.field)) pass.context := by
  induction rules generalizing pass with
  | nil => rfl
  | cons r rules ih =>
      rw [List.foldl_cons, ih, step_cleaned, step_context, bindField_eq]
      cases hfield : r.field <;> simp [hfield, bindFields]

end

/-- Running the rules from an index on decides about these rules and no others. -/
lemma verdict_foldl_compileRules (form group : String) {index : Nat} (rules : List Rule)
    {pass : FormPass} (hnew : ∀ i, index ≤ i → pass.outcome.verdict i = .silent) (i : Nat) :
    (i < index →
      ((compileRules form group index rules).1.foldl (step form) pass).outcome.verdict i =
        pass.outcome.verdict i) ∧
    (index + rules.length ≤ i →
      ((compileRules form group index rules).1.foldl (step form) pass).outcome.verdict i =
        .silent) := by
  induction rules generalizing index pass with
  | nil => exact ⟨fun _ => rfl, fun h => hnew i h⟩
  | cons r rules ih =>
      rw [compileRules_cons, List.foldl_cons, List.length_cons]
      have hstep : ∀ j, j ≠ index →
          (step form pass (r.compiled index)).outcome.verdict j = pass.outcome.verdict j :=
        fun j hj => by
          rw [verdict_step form pass _ j (hnew index (Nat.le_refl _)), Rule.index_compiled,
            if_neg hj]
      have hlater : ∀ j, index + 1 ≤ j →
          (step form pass (r.compiled index)).outcome.verdict j = .silent :=
        fun j hj => (hstep j (by omega)).trans (hnew j (by omega))
      obtain ⟨hbefore, hbehind⟩ := ih hlater
      constructor
      · intro hi
        rw [hbefore (by omega), hstep i (by omega)]
      · intro hi
        exact hbehind (by omega)

/-- What becomes of the rule at an index when a form is validated by a list of rules. -/
def verdict (form : String) (rules : List Rule) (index : Nat) (host : Host) (clock : Clock) :
    Verdict :=
  ((compile form rules).1.run host clock).outcome.verdict index

/-- The context of a rule that stands behind others. -/
def seenBehind (cleaned : CleanedData) (clock : Clock) (earlier : List Rule) (r : Rule) : Context :=
  bindFields cleaned ((earlier ++ [r]).filterMap (·.field)) (startContext cleaned clock)

lemma filterMap_field_compileRules (form group : String) (index : Nat) (rules : List Rule) :
    (compileRules form group index rules).1.filterMap (·.field) = rules.filterMap (·.field) := by
  induction rules generalizing index with
  | nil => rfl
  | cons r rules ih =>
      rw [compileRules_cons, List.filterMap_cons, List.filterMap_cons, ih]
      rfl

/-- A form before its first rule. -/
def startPass (host : Host) (clock : Clock) : FormPass :=
  ⟨host, startContext host.cleaned clock, .unchanged host.cleaned, []⟩

lemma run_compile (form : String) (rules : List Rule) (host : Host) (clock : Clock) :
    (compile form rules).1.run host clock =
      (compileRules form GroupKey.form.text 0 rules).1.foldl (step form) (startPass host clock) :=
  rfl

/-- **The verdict on one rule of a run.**  The rules behind it do not matter, and those before it
matter through its context alone. -/
theorem verdict_append_cons (form : String) (earlier later : List Rule) (r : Rule) (host : Host)
    (clock : Clock) :
    verdict form (earlier ++ r :: later) earlier.length host clock =
      (r.compiled earlier.length).verdict host (seenBehind host.cleaned clock earlier r) := by
  rw [verdict, run_compile, compileRules_append, Nat.zero_add, compileRules_cons,
    List.foldl_append, List.foldl_cons]
  set front := (compileRules form GroupKey.form.text 0 earlier).1 with hfront
  set pass := front.foldl (step form) (startPass host clock) with hpass
  have hnew : ∀ i, earlier.length ≤ i → pass.outcome.verdict i = .silent := fun i hi =>
    (verdict_foldl_compileRules form _ earlier (fun _ _ => rfl) i).2 (by omega)
  have hnext : ∀ i, earlier.length + 1 ≤ i →
      (step form pass (r.compiled earlier.length)).outcome.verdict i = .silent := by
    intro i hi
    rw [verdict_step form pass _ i (hnew _ (Nat.le_refl _)), Rule.index_compiled,
      if_neg (by omega)]
    exact hnew i (by omega)
  rw [(verdict_foldl_compileRules form _ later hnext earlier.length).1 (Nat.lt_succ_self _),
    verdict_step form pass _ _ (hnew _ (Nat.le_refl _))]
  have hcleaned : pass.host.cleaned = host.cleaned := foldl_step_cleaned form front _
  have hfields : pass.host.fields = host.fields := foldl_step_fields form front _
  have hcontext : pass.context =
      bindFields host.cleaned (earlier.filterMap (·.field)) (startContext host.cleaned clock) := by
    rw [hpass, foldl_step_context, hfront, filterMap_field_compileRules]
    rfl
  rw [Rule.index_compiled, if_pos rfl, verdict_congr_host hfields, hcleaned, hcontext,
    bindField_eq, Rule.field_compiled, seenBehind, List.filterMap_append]
  cases hfield : r.field <;> simp [hfield, bindFields]

/-! ## What earlier rules leave behind -/

/-- A name that rules leave bound to something that a rule behind them would not see by itself:
one of them names it as its field, the rule does not, and it is the name of no cleaned value or a
reserved one. -/
def Leaks (cleaned : CleanedData) (earlier : List Rule) (r : Rule) (x : String) : Prop :=
  (∃ q ∈ earlier, q.field = some x) ∧ r.field ≠ some x ∧
    (cleaned.find? x = none ∨ x = "cleaned_data" ∨ x = "timezone")

lemma find?_startContext (cleaned : CleanedData) (clock : Clock) (x : String) :
    (startContext cleaned clock).find? x =
      if x = "timezone" then some (.clock clock)
      else if x = "cleaned_data" then some (cleanedValue cleaned)
      else (cleaned.find? x).map Value.ofJson := by
  simp only [startContext, KeyMap.find?_insert, KeyMap.find?_map, eq_comm (b := x)]

lemma mem_ofMembers {key : String} {item : Json} {members : List (String × Json)}
    (h : Entries.find? key members = some item) :
    (key, Value.ofJson item) ∈ Value.ofMembers members := by
  induction members with
  | nil => cases h
  | cons head rest ih =>
      obtain ⟨k, other⟩ := head
      rw [Value.ofMembers]
      by_cases hk : k = key
      · rw [Entries.find?, if_pos hk] at h
        cases h
        rw [hk]
        exact List.mem_cons_self
      · rw [Entries.find?, if_neg hk] at h
        exact List.mem_cons_of_mem _ (ih h)

/-- No cleaned value is all the cleaned data: it is a part of them. -/
lemma ofJson_cleanedField_ne (cleaned : CleanedData) (x : String) :
    Value.ofJson (cleanedField cleaned x) ≠ cleanedValue cleaned := by
  intro heq
  rw [cleanedField, cleanedValue] at heq
  cases hfind : cleaned.find? x with
  | none =>
      rw [hfind] at heq
      cases heq
  | some item =>
      rw [hfind] at heq
      have hmem := mem_ofMembers hfind
      have hlt := List.sizeOf_lt_of_mem hmem
      have hsize := congrArg sizeOf heq
      simp only [Option.getD_some, Value.map.sizeOf_spec, Prod.mk.sizeOf_spec] at hlt hsize
      omega

lemma ofJson_ne_clock (j : Json) (clock : Clock) : Value.ofJson j ≠ .clock clock := by
  cases j with
  | number n =>
      rw [Value.ofJson]
      cases n with
      | integer n h => rw [Value.ofNumber]; split <;> nofun
      | real x => nofun
  | _ => nofun

/-- The value that a rule binds for its field is the one that stands there, except where the field
leaks. -/
lemma find?_startContext_ne_iff (cleaned : CleanedData) (clock : Clock) (x : String) :
    (startContext cleaned clock).find? x ≠ some (Value.ofJson (cleanedField cleaned x)) ↔
      (cleaned.find? x = none ∨ x = "cleaned_data" ∨ x = "timezone") := by
  rw [find?_startContext]
  by_cases htime : x = "timezone"
  · simp only [htime, if_true, or_true, iff_true]
    intro heq
    exact ofJson_ne_clock _ _ (Option.some.inj heq).symm
  · by_cases hall : x = "cleaned_data"
    · simp only [hall, if_true, true_or, or_true, iff_true]
      intro heq
      exact ofJson_cleanedField_ne _ _ (Option.some.inj heq).symm
    · rw [if_neg htime, if_neg hall, cleanedField]
      cases cleaned.find? x <;> simp [htime, hall]

/-- **The names that leak are those whose binding other rules change.** -/
theorem find?_seenBehind_ne_iff (cleaned : CleanedData) (clock : Clock) (earlier : List Rule)
    (r : Rule) (x : String) :
    (seenBehind cleaned clock earlier r).find? x ≠ (seenBehind cleaned clock [] r).find? x ↔
      Leaks cleaned earlier r x := by
  have hnamed : x ∈ earlier.filterMap (·.field) ↔ ∃ q ∈ earlier, q.field = some x :=
    List.mem_filterMap
  have hown : x ∈ [r].filterMap (·.field) ↔ r.field = some x := by
    simp
  rw [seenBehind, seenBehind, find?_bindFields, find?_bindFields, Leaks,
    ← find?_startContext_ne_iff cleaned clock x]
  simp only [List.nil_append, List.filterMap_append, List.mem_append, hnamed, hown]
  by_cases h : r.field = some x
  · simp [h]
  · by_cases hearlier : ∃ q ∈ earlier, q.field = some x
    · rw [if_pos (.inl hearlier), if_neg h]
      exact ⟨fun hne => ⟨hearlier, h, hne.symm⟩, fun hleak => hleak.2.2.symm⟩
    · simp [h, hearlier]

/-! ## The verdict on a rule and its condition -/

/-- What becomes of a rule whose condition holds. -/
def raised (host : Host) (r : Rule) : Verdict :=
  match r.error, r.field with
  | none, _ => .skipped .missingError
  | some message, none => .fired none message
  | some message, some x =>
    if host.hasField x then .fired (some x) message else .skipped (.unknownField x)

lemma raised_ne_silent (host : Host) (r : Rule) : raised host r ≠ .silent := by
  rw [raised]
  split
  · nofun
  · nofun
  · split <;> nofun

lemma verdict_of_parsed {r : Rule} {condition : Condition}
    (h : r.compileCondition.1 = .parsed condition) (index : Nat) (host : Host) (context : Context) :
    (r.compiled index).verdict host context =
      if condition.test context then raised host r else .silent := by
  rw [CompiledRule.verdict, resultOf, CompiledRule.fires, Rule.compiled, h]
  by_cases htest : condition.test context = true
  · simp only [htest, if_true, raised]
    cases r.error with
    | none => rfl
    | some message =>
        cases r.field with
        | none => rfl
        | some x => cases hfield : host.hasField x <;> simp [bind, Except.bind, hfield]
  · simp only [htest]
    rfl

/-- A rule without a condition that can be tested is treated alike in every context. -/
lemma verdict_of_not_parsed {r : Rule} (h : ∀ condition, r.compileCondition.1 ≠ .parsed condition)
    (index other : Nat) (host : Host) (context seen : Context) :
    (r.compiled index).verdict host context = (r.compiled other).verdict host seen := by
  rw [CompiledRule.verdict, CompiledRule.verdict, resultOf, resultOf, CompiledRule.fires,
    CompiledRule.fires, Rule.compiled, Rule.compiled]
  cases hcond : r.compileCondition.1 with
  | parsed condition => exact absurd hcond (h condition)
  | _ => rfl

lemma verdict_eq_iff (r : Rule) (index other : Nat) (host : Host) (context seen : Context) :
    (r.compiled index).verdict host context = (r.compiled other).verdict host seen ↔
      ∀ condition, r.compileCondition.1 = .parsed condition →
        condition.test context = condition.test seen := by
  constructor
  · intro heq condition h
    rw [verdict_of_parsed h, verdict_of_parsed h] at heq
    have hraised := raised_ne_silent host r
    by_cases hc : condition.test context = true <;> by_cases hs : condition.test seen = true
    · rw [hc, hs]
    · rw [if_pos hc, if_neg hs] at heq
      exact absurd heq hraised
    · rw [if_neg hc, if_pos hs] at heq
      exact absurd heq.symm hraised
    · rw [Bool.not_eq_true] at hc hs
      rw [hc, hs]
  · intro htest
    by_cases h : ∃ condition, r.compileCondition.1 = .parsed condition
    · obtain ⟨condition, h⟩ := h
      rw [verdict_of_parsed h, verdict_of_parsed h, htest condition h]
    · have hnot := verdict_of_not_parsed fun condition hc => h ⟨condition, hc⟩
      exact hnot index other host context seen

/-! ## Standing alone -/

/-- A rule that stands between others is treated as it is by a validator of its own, on a form with
the same fields and the same data. -/
def TreatedAlone (form lone : String) (earlier later : List Rule) (r : Rule) (host : Host)
    (clock : Clock) : Prop :=
  verdict form (earlier ++ r :: later) earlier.length host clock =
    verdict lone [r] 0 (Host.of host.fields host.cleaned) clock

lemma treatedAlone_iff (form lone : String) (earlier later : List Rule) (r : Rule) (host : Host)
    (clock : Clock) :
    TreatedAlone form lone earlier later r host clock ↔
      ∀ condition, r.compileCondition.1 = .parsed condition →
        condition.test (seenBehind host.cleaned clock earlier r) =
          condition.test (seenBehind host.cleaned clock [] r) := by
  have hlone := verdict_append_cons lone [] [] r (Host.of host.fields host.cleaned) clock
  rw [TreatedAlone, verdict_append_cons]
  rw [List.nil_append, List.length_nil] at hlone
  have hfields : (Host.of host.fields host.cleaned).fields = host.fields := rfl
  rw [hlone, verdict_congr_host hfields]
  exact verdict_eq_iff r _ _ host _ _

/-- Where no reserved name leaks, a rule can only tell the difference at a name that it does not
find alone. -/
lemma refines_seenBehind {cleaned : CleanedData} {earlier : List Rule} {r : Rule}
    (hdata : ¬ Leaks cleaned earlier r "cleaned_data")
    (htime : ¬ Leaks cleaned earlier r "timezone")
    (clock : Clock) (xs : List String) :
    (seenBehind cleaned clock [] r).Refines (seenBehind cleaned clock earlier r) xs := by
  intro x _
  by_cases heq : (seenBehind cleaned clock earlier r).find? x =
      (seenBehind cleaned clock [] r).find? x
  · exact .inr heq
  · have hleak := (find?_seenBehind_ne_iff cleaned clock earlier r x).1 heq
    have hxdata : x ≠ "cleaned_data" := fun h => hdata (h ▸ hleak)
    have hxtime : x ≠ "timezone" := fun h => htime (h ▸ hleak)
    obtain ⟨-, hown, hx⟩ := hleak
    have hnone : cleaned.find? x = none := by
      rcases hx with h | h | h
      · exact h
      · exact absurd h hxdata
      · exact absurd h hxtime
    refine .inl ?_
    rw [seenBehind, find?_bindFields, find?_startContext, if_neg hxtime, if_neg hxdata, hnone]
    simp [hown]

/-- **When a rule is treated as if it stood alone.**  It is exactly when its condition is decided
alike with and without what the rules before it left bound, and what they left is just the names
that leak.  So a rule is treated as if alone whenever none of these occurs in its condition; and
where no reserved name is among them, a rule is treated differently exactly when alone its
condition fails for want of one of them and holds when it is bound. -/
theorem verdict_eq_alone_iff (form lone : String) (earlier later : List Rule) (r : Rule)
    (host : Host) (clock : Clock) :
    (TreatedAlone form lone earlier later r host clock ↔
      ∀ condition, r.compileCondition.1 = .parsed condition →
        condition.test (seenBehind host.cleaned clock earlier r) =
          condition.test (seenBehind host.cleaned clock [] r)) ∧
    (∀ x, (seenBehind host.cleaned clock earlier r).find? x ≠
        (seenBehind host.cleaned clock [] r).find? x ↔ Leaks host.cleaned earlier r x) ∧
    ((∀ condition, r.compileCondition.1 = .parsed condition →
        ∀ x ∈ condition.root.names, ¬ Leaks host.cleaned earlier r x) →
      TreatedAlone form lone earlier later r host clock) ∧
    (¬ Leaks host.cleaned earlier r "cleaned_data" → ¬ Leaks host.cleaned earlier r "timezone" →
      (¬ TreatedAlone form lone earlier later r host clock ↔
        ∃ condition x, r.compileCondition.1 = .parsed condition ∧
          x ∈ condition.root.names ∧ Leaks host.cleaned earlier r x ∧
          condition.evaluate (seenBehind host.cleaned clock [] r) = .error (.unknownName x) ∧
          condition.test (seenBehind host.cleaned clock earlier r) = true)) := by
  have hiff := treatedAlone_iff form lone earlier later r host clock
  have hleaks := find?_seenBehind_ne_iff host.cleaned clock earlier r
  refine ⟨hiff, hleaks, fun hnames => ?_, fun hdata htime => ⟨fun hdiffers => ?_, ?_⟩⟩
  · -- No name of the condition has two bindings.
    refine hiff.2 fun condition hparsed => Condition.test_congr fun x hx => ?_
    by_contra hne
    exact hnames condition hparsed x hx ((hleaks x).1 hne)
  · rw [hiff] at hdiffers
    simp only [not_forall] at hdiffers
    obtain ⟨condition, hparsed, hne⟩ := hdiffers
    rcases Expr.eval_of_refines condition.root (refines_seenBehind hdata htime clock _) with
      hstray | heq
    · obtain ⟨x, hx, hnone, hsome, hfault⟩ := hstray
      have halone : condition.test (seenBehind host.cleaned clock [] r) = false :=
        Condition.test_of_evaluate_error hfault
      refine ⟨condition, x, hparsed, hx, (hleaks x).1 (hnone ▸ hsome), hfault, ?_⟩
      rw [halone] at hne
      exact Bool.not_eq_false _ ▸ hne
    · exact absurd (Condition.test_of_evaluate_eq heq) hne
  · rintro ⟨condition, x, hparsed, -, -, hfault, htrue⟩ halone
    have htest := hiff.1 halone condition hparsed
    rw [htrue, Condition.test_of_evaluate_error hfault] at htest
    cases htest

/-- A rule that names a field without a value leaves alone what does not ask for that field. -/
theorem treatedAlone_behind_unmentioned :
    TreatedAlone "F" "F" [⟨some "ghost", none, none, none⟩] []
      ⟨none, some "age is None", some "no age", none⟩ (Host.of [] ∅)
      ⟨Moment.ofLocal ⟨2024, 6, 15, by decide⟩ 12 0 0 0 0⟩ := by
  refine (verdict_eq_alone_iff _ _ _ _ _ _ _).2.2.1 fun condition hparsed x hx hleak => ?_
  have hnames : (match
        (Rule.mk none (some "age is None") (some "no age") none).compileCondition.1 with
      | .parsed condition => condition.root.names
      | _ => []) = ["age"] := by
    decide +kernel
  rw [hparsed] at hnames
  have hage : x ∈ ["age"] := hnames ▸ hx
  obtain ⟨⟨q, hq, hfield⟩, -, -⟩ := hleak
  rw [List.mem_singleton.1 hq] at hfield
  rw [List.mem_singleton.1 hage] at hfield
  exact absurd hfield (by decide)

/-- A rule that never runs makes another one fire: it has no condition, but it leaves the field
that it names bound, and the condition behind it asks for that field. -/
theorem leaked_field_changes_verdict :
    verdict "F" [⟨some "ghost", none, none, none⟩, ⟨none, some "ghost is None", some "after", none⟩]
        1 (Host.of [] ∅) ⟨Moment.ofLocal ⟨2024, 6, 15, by decide⟩ 12 0 0 0 0⟩ =
      .fired none "after" ∧
    verdict "F" [⟨none, some "ghost is None", some "after", none⟩] 0 (Host.of [] ∅)
        ⟨Moment.ofLocal ⟨2024, 6, 15, by decide⟩ 12 0 0 0 0⟩ = .silent := by
  decide +kernel

end FormValidator

end FormValidation
