import FormValidation.Proofs.Validator.RuleOutcome

/-!
# The rule that fails a field

The rules of a field are asked in turn until one of them holds and has a message, which fails the
field.  Rules that cannot run are reported on the way and passed over.  This file says what a run
gives for every list of rules: the message of the first such rule if there is one
(`FieldValidator.FailsAt`), and the value of the field if there is none, with the events of the
rules that the run has come past and could not run (`failureEvents`), in their order.

The answer is a search for the first message (`firstMessage_fst`), so it does not depend on the
other rules: any of them may be dropped or replaced by one that says nothing, and what stands behind
the rule that fails the field is never looked at.  `run_firstDecides` has all of this.
-/

namespace FormValidation

namespace FieldValidator

/-- The events of the rules in a list that cannot run; the first rule has the given index. -/
def failureEvents (form group : String) (context : Context) (index : Nat) (rules : List Rule) :
    List Diagnostic :=
  (rules.zipIdx index).filterMap fun r => (r.1.failure? context).map fun why =>
    ⟨.executionError, some form, some group, some r.2, why.message⟩

/-- The rule at an index has this message, and no rule before it has any. -/
def FailsAt (rules : List Rule) (context : Context) (index : Nat) (message : String) : Prop :=
  ∃ r, rules[index]? = some r ∧ r.message? context = some message ∧
    ∀ q ∈ rules.take index, q.message? context = none

section

variable {form group : String} {context : Context} {rules front : List Rule} {r : Rule}
  {index : Nat} {message : String}

/-! ## The search for a message -/

/-- The message that is found is the first that a rule has. -/
lemma firstMessage_fst (form group : String) (context : Context) (index : Nat)
    (rules : List Rule) :
    (firstMessage form group context (compileRules form group index rules).1).1 =
      rules.findSome? (·.message? context) := by
  induction rules generalizing index with
  | nil => rfl
  | cons r rules ih =>
      rw [compileRules_cons, firstMessage, Rule.fires_compiled, List.findSome?_cons]
      cases hfailure : r.failure? context with
      | some reason =>
          rw [Rule.message?_of_failure hfailure]
          exact ih (index + 1)
      | none =>
          cases r.message? context with
          | some message => rfl
          | none => exact ih (index + 1)

/-- Rules without a message are passed over, and those of them that cannot run are reported. -/
lemma firstMessage_append (form group : String) (index : Nat) (back : List Rule)
    (hfront : ∀ q ∈ front, q.message? context = none) :
    (firstMessage form group context (compileRules form group index (front ++ back)).1).2 =
      failureEvents form group context index front ++
        (firstMessage form group context
          (compileRules form group (index + front.length) back).1).2 := by
  induction front generalizing index with
  | nil => rfl
  | cons q front ih =>
      obtain ⟨hq, hrest⟩ := List.forall_mem_cons.1 hfront
      have hnext := ih (index + 1) hrest
      have hlength : index + (front.length + 1) = index + 1 + front.length := by omega
      rw [List.cons_append, compileRules_cons, firstMessage, Rule.fires_compiled, hq,
        List.length_cons, hlength]
      cases hfailure : q.failure? context with
      | some reason =>
          simp [failureEvents, List.zipIdx_cons, hfailure, hnext, skipEvent, Diagnostic.ofRule]
      | none => simp [failureEvents, List.zipIdx_cons, hfailure, hnext]

/-- The rule that fails a field cuts the list in two. -/
lemma failsAt_iff_append : FailsAt rules context index message ↔
    ∃ (front : List Rule) (r : Rule) (back : List Rule), rules = front ++ r :: back ∧
      front.length = index ∧ r.message? context = some message ∧
      ∀ q ∈ front, q.message? context = none := by
  constructor
  · rintro ⟨r, hr, hmessage, hfront⟩
    obtain ⟨hlt, rfl⟩ := List.getElem?_eq_some_iff.1 hr
    refine ⟨rules.take index, rules[index], rules.drop (index + 1), ?_,
      List.length_take_of_le (Nat.le_of_lt hlt), hmessage, hfront⟩
    rw [← List.drop_eq_getElem_cons hlt, List.take_append_drop]
  · rintro ⟨front, r, back, rfl, rfl, hmessage, hfront⟩
    exact ⟨r, by simp, hmessage, by simpa using hfront⟩

lemma exists_failsAt_iff :
    (∃ index, FailsAt rules context index message) ↔
      rules.findSome? (·.message? context) = some message := by
  simp only [failsAt_iff_append, List.findSome?_eq_some_iff]
  constructor
  · rintro ⟨index, front, r, back, hrules, -, hmessage, hfront⟩
    exact ⟨front, r, back, hrules, hmessage, hfront⟩
  · rintro ⟨front, r, back, hrules, hmessage, hfront⟩
    exact ⟨front.length, front, r, back, hrules, rfl, hmessage, hfront⟩

/-- Rules without a message may stand for a rule in a list, unless it is the one whose message is
found. -/
lemma findSome?_replace {later : List Rule}
    (hr : front.findSome? (·.message? context) = none → r.message? context = none)
    {others : List Rule} (hothers : ∀ q ∈ others, q.message? context = none) :
    (front ++ others ++ later).findSome? (·.message? context) =
      (front ++ r :: later).findSome? (·.message? context) := by
  have hnone : others.findSome? (·.message? context) = none := List.findSome?_eq_none_iff.2 hothers
  rw [List.append_assoc, List.findSome?_append, List.findSome?_append, hnone, Option.none_or,
    List.findSome?_append, List.findSome?_cons]
  cases hfront : front.findSome? (·.message? context) with
  | some own => rfl
  | none => rw [hr hfront]

end

/-! ## Runs -/

section

variable {form field : String} {rules : List Rule} {host : Host} {clock : Clock} {index : Nat}
  {message : String}

lemma find?_contextOf (field : String) (cleaned : CleanedData) (clock : Clock) (name : String) :
    (contextOf field cleaned clock).find? name =
      if name = "timezone" then some (.clock clock)
      else if name = "cleaned_data" then some (cleanedValue cleaned)
      else if name = "value" then some (.ofJson (cleanedField cleaned field))
      else none := by
  have hempty : (∅ : Context).find? name = none := KeyMap.find?_empty name
  simp only [contextOf, KeyMap.find?_insert, hempty, eq_comm (b := name)]

lemma run_compile_fst (form field : String) (rules : List Rule) (host : Host) (clock : Clock) :
    ((compile form field rules).1.run host clock).1 =
      match rules.findSome? (·.message? (contextOf field host.cleaned clock)) with
      | some message => .error ⟨field, message⟩
      | none => .ok (cleanedField host.cleaned field) := by
  have hfound := firstMessage_fst form (GroupKey.field field).text
    (contextOf field host.cleaned clock) 0 rules
  rw [← hfound, run, compile]
  split <;> rename_i hmessage <;> simp [hmessage]

/-- A run ends at the first rule that has a message. -/
lemma run_append_cons (form : String) {front : List Rule} {r : Rule}
    (hfront : ∀ q ∈ front, q.message? (contextOf field host.cleaned clock) = none)
    (hmessage : r.message? (contextOf field host.cleaned clock) = some message)
    (back : List Rule) :
    (compile form field (front ++ r :: back)).1.run host clock =
      (.error ⟨field, message⟩,
        failureEvents form (GroupKey.field field).text (contextOf field host.cleaned clock) 0
          front) := by
  refine Prod.ext ?_ ?_
  · have hfails : FailsAt (front ++ r :: back) (contextOf field host.cleaned clock) front.length
        message := failsAt_iff_append.2 ⟨front, r, back, rfl, rfl, hmessage, hfront⟩
    rw [run_compile_fst, exists_failsAt_iff.1 ⟨_, hfails⟩]
  · rw [run_compile_snd, firstMessage_append _ _ _ _ hfront, compileRules_cons, firstMessage,
      Rule.fires_of_message? hmessage, List.append_nil]

lemma run_of_failsAt (form : String)
    (h : FailsAt rules (contextOf field host.cleaned clock) index message) :
    (compile form field rules).1.run host clock =
      (.error ⟨field, message⟩,
        failureEvents form (GroupKey.field field).text (contextOf field host.cleaned clock) 0
          (rules.take index)) := by
  obtain ⟨front, r, back, rfl, rfl, hmessage, hfront⟩ := failsAt_iff_append.1 h
  rw [run_append_cons form hfront hmessage, List.take_left]

/-- Where no rule has a message, a run comes to the end. -/
lemma run_of_silent (form : String)
    (h : ∀ r ∈ rules, r.message? (contextOf field host.cleaned clock) = none) :
    (compile form field rules).1.run host clock =
      (.ok (cleanedField host.cleaned field),
        failureEvents form (GroupKey.field field).text (contextOf field host.cleaned clock) 0
          rules) := by
  refine Prod.ext ?_ ?_
  · rw [run_compile_fst, List.findSome?_eq_none_iff.2 h]
  · have hall := firstMessage_append form (GroupKey.field field).text 0 [] h
    rw [List.append_nil] at hall
    rw [run_compile_snd, hall]
    exact List.append_nil _

/-- Rules without a message may stand for a rule that does not fail the field. -/
lemma run_replace (form : String) (front : List Rule) (r : Rule) (later others : List Rule)
    (hr : ∀ message, ¬ FailsAt (front ++ r :: later) (contextOf field host.cleaned clock)
      front.length message)
    (hothers : ∀ q ∈ others, q.message? (contextOf field host.cleaned clock) = none) :
    ((compile form field (front ++ others ++ later)).1.run host clock).1 =
      ((compile form field (front ++ r :: later)).1.run host clock).1 := by
  have hquiet : front.findSome? (·.message? (contextOf field host.cleaned clock)) = none →
      r.message? (contextOf field host.cleaned clock) = none := by
    intro hfront
    rw [List.findSome?_eq_none_iff] at hfront
    rw [Option.eq_none_iff_forall_ne_some]
    exact fun message hmessage => hr message
      (failsAt_iff_append.2 ⟨front, r, later, rfl, rfl, hmessage, hfront⟩)
  rw [run_compile_fst, run_compile_fst, findSome?_replace hquiet hothers]

/-- Rules without a message may stand at the index of a rule that does not fail the field. -/
lemma run_change (form : String) (others : List Rule)
    (h : ∀ message, ¬ FailsAt rules (contextOf field host.cleaned clock) index message)
    (hlt : index < rules.length)
    (hothers : ∀ q ∈ others, q.message? (contextOf field host.cleaned clock) = none) :
    ((compile form field (rules.take index ++ others ++ rules.drop (index + 1))).1.run
        host clock).1 =
      ((compile form field rules).1.run host clock).1 := by
  have hcut : rules.take index ++ rules[index] :: rules.drop (index + 1) = rules := by
    rw [← List.drop_eq_getElem_cons hlt, List.take_append_drop]
  have hlength : (rules.take index).length = index := List.length_take_of_le (Nat.le_of_lt hlt)
  have hall := run_replace form (rules.take index) rules[index] (rules.drop (index + 1)) others
    (by rw [hcut, hlength]; exact h) hothers
  rwa [hcut] at hall

/-- A field fails if and only if some rule has a message. -/
lemma exists_run_eq_error_iff (form : String) :
    (∃ failure, ((compile form field rules).1.run host clock).1 = .error failure) ↔
      ∃ r ∈ rules, r.message? (contextOf field host.cleaned clock) ≠ none := by
  rw [run_compile_fst]
  cases hfound : rules.findSome? (·.message? (contextOf field host.cleaned clock)) with
  | some message =>
      obtain ⟨r, hr, hmessage⟩ := List.exists_of_findSome?_eq_some hfound
      exact iff_of_true ⟨_, rfl⟩ ⟨r, hr, by rw [hmessage]; nofun⟩
  | none =>
      rw [List.findSome?_eq_none_iff] at hfound
      exact iff_of_false nofun fun ⟨r, hr, hmessage⟩ => hmessage (hfound r hr)

/-- A field fails with its name and the message of the rule that fails it. -/
lemma run_fst_eq_error_iff (form : String) (failure : ValidationFailure) :
    ((compile form field rules).1.run host clock).1 = .error failure ↔
      ∃ index message, FailsAt rules (contextOf field host.cleaned clock) index message ∧
        failure = ⟨field, message⟩ := by
  constructor
  · intro hrun
    rw [run_compile_fst] at hrun
    split at hrun
    · rename_i message hfound
      obtain ⟨index, hfails⟩ := exists_failsAt_iff.2 hfound
      cases hrun
      exact ⟨index, message, hfails, rfl⟩
    · cases hrun
  · rintro ⟨index, message, hfails, rfl⟩
    rw [run_of_failsAt form hfails]

/-- What stands behind the rule that fails the field may be anything. -/
lemma run_take_append (form : String) (others : List Rule)
    (h : FailsAt rules (contextOf field host.cleaned clock) index message) :
    (compile form field (rules.take (index + 1) ++ others)).1.run host clock =
      (compile form field rules).1.run host clock := by
  obtain ⟨front, r, back, rfl, rfl, hmessage, hfront⟩ := failsAt_iff_append.1 h
  rw [List.take_length_add_append, List.take_succ_cons, List.take_zero, List.append_assoc,
    List.singleton_append, run_append_cons form hfront hmessage,
    run_append_cons form hfront hmessage]

lemma run_eraseIdx (form : String)
    (h : ∀ message, ¬ FailsAt rules (contextOf field host.cleaned clock) index message) :
    ((compile form field (rules.eraseIdx index)).1.run host clock).1 =
      ((compile form field rules).1.run host clock).1 := by
  by_cases hlt : index < rules.length
  · have hchange := run_change form [] h hlt nofun
    rwa [List.append_nil, ← List.eraseIdx_eq_take_drop_succ] at hchange
  · rw [List.eraseIdx_of_length_le (Nat.le_of_not_lt hlt)]

lemma run_set (form : String) {silent : Rule}
    (h : ∀ message, ¬ FailsAt rules (contextOf field host.cleaned clock) index message)
    (hsilent : silent.message? (contextOf field host.cleaned clock) = none) :
    ((compile form field (rules.set index silent)).1.run host clock).1 =
      ((compile form field rules).1.run host clock).1 := by
  by_cases hlt : index < rules.length
  · have hset : rules.set index silent =
        rules.take index ++ [silent] ++ rules.drop (index + 1) := by
      rw [List.set_eq_take_append_cons_drop, if_pos hlt, List.append_assoc, List.singleton_append]
    rw [hset, run_change form [silent] h hlt (by simpa using hsilent)]
  · rw [List.set_eq_of_length_le (Nat.le_of_not_lt hlt)]

/-! ## The rule that decides -/

/-- The first rule that holds and has a message decides what the rules of a field come to, whatever
the others are. -/
structure FirstDecides (form field : String) (rules : List Rule) (host : Host) (clock : Clock) :
    Prop where
  /-- Every rule sees the value of the field, all cleaned data and the clock, and nothing else. -/
  sees : ∀ name, (contextOf field host.cleaned clock).find? name =
    if name = "timezone" then some (.clock clock)
    else if name = "cleaned_data" then some (.map (Value.ofMembers host.cleaned.entries))
    else if name = "value" then some (.ofJson ((host.cleaned.find? field).getD .null))
    else none
  fails_iff : (∃ failure, ((compile form field rules).1.run host clock).1 = .error failure) ↔
    ∃ r ∈ rules, r.HoldsIn (contextOf field host.cleaned clock) ∧ r.error ≠ none
  failure_iff : ∀ failure, ((compile form field rules).1.run host clock).1 = .error failure ↔
    ∃ index message, FailsAt rules (contextOf field host.cleaned clock) index message ∧
      failure = ⟨field, message⟩
  fails : ∀ index message, FailsAt rules (contextOf field host.cleaned clock) index message →
    (compile form field rules).1.run host clock =
      (.error ⟨field, message⟩,
        failureEvents form ("clean_" ++ field) (contextOf field host.cleaned clock) 0
          (rules.take index))
  passes : (∀ r ∈ rules, ¬ (r.HoldsIn (contextOf field host.cleaned clock) ∧ r.error ≠ none)) →
    (compile form field rules).1.run host clock =
      (.ok ((host.cleaned.find? field).getD .null),
        failureEvents form ("clean_" ++ field) (contextOf field host.cleaned clock) 0 rules)
  /-- What stands behind the rule that fails the field may be anything. -/
  later : ∀ index message others,
    FailsAt rules (contextOf field host.cleaned clock) index message →
    (compile form field (rules.take (index + 1) ++ others)).1.run host clock =
      (compile form field rules).1.run host clock
  erase : ∀ index,
    (∀ message, ¬ FailsAt rules (contextOf field host.cleaned clock) index message) →
    ((compile form field (rules.eraseIdx index)).1.run host clock).1 =
      ((compile form field rules).1.run host clock).1
  replace : ∀ index bad,
    (∀ message, ¬ FailsAt rules (contextOf field host.cleaned clock) index message) →
    bad.malformed ≠ none →
    ((compile form field (rules.set index bad)).1.run host clock).1 =
      ((compile form field rules).1.run host clock).1

/-- **The first rule that holds and has a message decides.**  Its message fails the field, the rules
before it that cannot run are reported, and no other rule changes the answer. -/
theorem run_firstDecides (form field : String) (rules : List Rule) (host : Host) (clock : Clock) :
    FirstDecides form field rules host clock where
  sees := find?_contextOf field host.cleaned clock
  fails_iff := by simpa only [Rule.message?_ne_none_iff] using exists_run_eq_error_iff form
  failure_iff := run_fst_eq_error_iff form
  fails := fun _ _ hfails => run_of_failsAt form hfails
  passes := by
    intro hquiet
    refine run_of_silent form fun r hr => ?_
    by_contra hmessage
    exact hquiet r hr (Rule.message?_ne_none_iff.1 hmessage)
  later := fun _ _ others hfails => run_take_append form others hfails
  erase := fun _ hnot => run_eraseIdx form hnot
  replace := fun _ _ hnot hbad => run_set form hnot (if_neg fun hholds => hbad hholds.1)

example :
    ((compile "signup" "age"
      [⟨none, some "value > 9", some "first", some "not a table"⟩,
        ⟨none, some "value <", some "second", none⟩, ⟨none, some "value > 9", none, none⟩,
        ⟨none, some "value > 9", some "fourth", none⟩, ⟨none, none, some "fifth", none⟩]).1.run
      (Host.of ["age"] (KeyMap.ofList [("age", .ofInt 10)]))
      ⟨Moment.ofLocal ⟨2024, 6, 15, by decide⟩ 12 0 0 0 0⟩).map
        (fun | .error failure => some failure | .ok _ => none) id =
    (some ⟨"age", "fourth"⟩,
      [⟨.executionError, some "signup", some "clean_age", some 0, "malformed rule: not a table"⟩,
        ⟨.executionError, some "signup", some "clean_age", some 2,
          "rule has no error message"⟩]) := by
  decide +kernel

end

end FieldValidator

end FormValidation
