import Mathlib.Data.List.Nodup
import FormValidation.Proofs.Engine.Admission

/-!
# What an attachment reports

The report of an attachment has two lists, of the groups that were installed and of those that were
not.  This file shows that the two lists together account for the groups of the form, each of them
once, and says exactly when they tell what has become of the slots.  All of it speaks of the slots
as they were before the attachment, while the attachment itself looks at the slots that it is
filling.

What is installed for a field is what the cache serves for it, and the slot that is filled is that
of the field which the validator names.  A cache that only attachments have filled serves every
field its own validator (`CompiledCache.ServesOwn`), but a cache takes any validator under any
field.  What a look at one group can do is said once (`Look`), and there are two invariants of a
sequence of looks: `Listed` holds whatever the cache serves, and `Told` as long as it serves own
validators.  Conversely, where all groups that were installed have their slots filled in the end,
each slot was filled at its own turn (`Looks.servesOwn`).  `Engine.attach_accounts` puts all three
together, and `Engine.attach_misfiled` is a cache for which a report is wrong.
-/

namespace FormValidation

/-! ## What the cache serves a field -/

namespace CompiledCache

variable {c d : CompiledCache} {g : Generation} {form : String} {key : GroupKey}
  {group : String × List Rule}

/-- What the cache keeps for a field validates that field, if it is of the generation that is asked
for. -/
def ServesOwn (c : CompiledCache) (g : Generation) (form : String) : GroupKey → Prop
  | .field name => c.generation = g → ∀ v, c.field? form name = some v → v.field = name
  | _ => True

lemma NamesFields.servesOwn (h : c.NamesFields) (g : Generation) (form : String)
    (key : GroupKey) : c.ServesOwn g form key := by
  cases key with
  | field name => exact fun _ v hv => h form name v hv
  | form | other raw => trivial

/-- The validator that is served for a group is for its field exactly if the one that is kept is. -/
lemma field_fieldValidator_iff :
    (c.fieldValidator g form group.1 fun _ =>
      FieldValidator.compile form group.1 group.2).validator.field = group.1 ↔
        c.ServesOwn g form (.field group.1) := by
  rw [fieldValidator]
  constructor
  · intro hserved hg v hv
    rw [hv, answer_of_kept hg] at hserved
    exact hserved
  · intro hown
    refine answer_induction (p := fun a => a.validator.field = group.1)
      (fun v hg hv => hown hg v hv) (fun _ => ?_) fun d _ => ?_
    · rfl
    · rfl

/-- A newer generation finds nothing in the cache, and the same one finds what is there. -/
lemma servesOwn_advance_iff (hd : c.advance? g = some d) :
    d.ServesOwn g form key ↔ c.ServesOwn g form key := by
  rw [advance?] at hd
  split at hd
  · cases hd
  · split at hd <;> cases hd
    · rename_i hlt
      cases key with
      | field name =>
          refine iff_of_true (fun _ v hv => ?_) fun hg => absurd hg (Nat.ne_of_lt hlt)
          exact absurd hv (Option.some_ne_none v).symm
      | form | other raw => exact Iff.rfl
    · exact Iff.rfl

/-- A request for one field does not change what another one is served. -/
lemma servesOwn_fieldValidator_iff {field : String} (hne : key ≠ .field field)
    (compile : Unit → FieldValidator × List Diagnostic) :
    (c.fieldValidator g form field compile).cache.ServesOwn g form key ↔
      c.ServesOwn g form key := by
  rw [fieldValidator]
  refine answer_induction (p := fun a => a.cache.ServesOwn g form key ↔ c.ServesOwn g form key)
    (fun _ _ _ => Iff.rfl) (fun _ => Iff.rfl) fun d hd => ?_
  rw [← servesOwn_advance_iff hd]
  cases key with
  | field name =>
      have hname : field ≠ name := fun heq => hne (heq ▸ rfl)
      simp [ServesOwn, field?_keepField, hname]
  | form | other raw => exact Iff.rfl

lemma servesOwn_formValidator_iff (compile : Unit → FormValidator × List Diagnostic) :
    (c.formValidator g form compile).cache.ServesOwn g form key ↔ c.ServesOwn g form key := by
  rw [formValidator]
  refine answer_induction (p := fun a => a.cache.ServesOwn g form key ↔ c.ServesOwn g form key)
    (fun _ _ _ => Iff.rfl) (fun _ => Iff.rfl) fun d hd => ?_
  rw [← servesOwn_advance_iff hd]
  cases key <;> exact Iff.rfl

end CompiledCache

/-! ## Looking at a group -/

namespace AttachPass

/-- What becomes of the slots and the cache when a group is installed. -/
structure Installs (target : FormClass) (g : Generation) (pass : AttachPass) (key : GroupKey)
    (hooks : Hooks) (cache : CompiledCache) : Prop where
  free : hindrance? target pass.hooks key = none
  filled_iff : (hooks.slot? key).isSome = true ↔ pass.cache.ServesOwn g target.form key
  others : pass.cache.ServesOwn g target.form key →
    ∀ other, other ≠ key → hooks.slot? other = pass.hooks.slot? other
  keeps : ∀ other v, pass.hooks.slot? other = some v → hooks.slot? other = some v
  cache_iff : ∀ other, other ≠ key →
    (cache.ServesOwn g target.form other ↔ pass.cache.ServesOwn g target.form other)

/-- What can become of a group that is looked at. -/
inductive Look (target : FormClass) (g : Generation) (pass : AttachPass) (key : GroupKey) :
    AttachPass → Prop
  | skip (why : Hindrance) (hwhy : hindrance? target pass.hooks key = some why) :
      Look target g pass key { pass with report := pass.report.skip key why }
  | install (hooks : Hooks) (cache : CompiledCache) (events : List Diagnostic)
      (h : Installs target g pass key hooks cache) :
      Look target g pass key ⟨hooks, cache, pass.report.install key, events⟩

/-- Looking at several groups, one after the other. -/
inductive Looks (target : FormClass) (g : Generation) : List GroupKey → AttachPass → AttachPass →
    Prop
  | nil (pass : AttachPass) : Looks target g [] pass pass
  | cons {key : GroupKey} {keys : List GroupKey} {pass next last : AttachPass}
      (look : Look target g pass key next) (looks : Looks target g keys next last) :
      Looks target g (key :: keys) pass last

variable {target : FormClass} {g : Generation} {rules : FormRules}
  {start pass next last : AttachPass} {seen keys : List GroupKey} {key : GroupKey}
  {why : Hindrance}

lemma look_attachForm (rules : List Rule) :
    Look target g pass .form (pass.attachForm target g rules) := by
  rw [attachForm]
  split
  next why hwhy => exact .skip why hwhy
  next hfree =>
    refine .install _ _ _ ⟨hfree, iff_of_true ?_ trivial,
      fun _ other hne => Hooks.slot?_installForm_of_ne _ hne _,
      fun other v hv => Hooks.slot?_installForm_of_eq_some hv _,
      fun other _ => CompiledCache.servesOwn_formValidator_iff _⟩
    rw [Hooks.isSome_slot?_form, Hooks.hasForm_installForm]

lemma look_attachField (group : String × List Rule) :
    Look target g pass (.field group.1) (attachField target g pass group) := by
  rw [attachField]
  split
  next why hwhy => exact .skip why hwhy
  next hfree =>
    refine .install _ _ _ ⟨hfree, ?_, fun hown other hne => ?_,
      fun other v hv => Hooks.slot?_installField_of_eq_some hv _,
      fun other hne => CompiledCache.servesOwn_fieldValidator_iff hne _⟩
    · -- The slot that is filled is that of the field which the validator names.
      have hempty := (fieldHindrance?_eq_none_iff.1 hfree).2.2
      rw [Hooks.isSome_slot?_field, Hooks.hasField_installField, hempty, Bool.or_false,
        decide_eq_true_iff]
      exact CompiledCache.field_fieldValidator_iff
    · refine Hooks.slot?_installField_of_ne _ ?_
      rw [CompiledCache.field_fieldValidator_iff.2 hown]
      exact hne

lemma looks_foldl_attachField (groups : List (String × List Rule)) (pass : AttachPass) :
    Looks target g (groups.map fun group => .field group.1) pass
      (groups.foldl (attachField target g) pass) := by
  induction groups generalizing pass with
  | nil => exact .nil pass
  | cons group groups ih => exact .cons (look_attachField group) (ih _)

lemma looks_run (target : FormClass) (rules : FormRules) (g : Generation) (start : AttachPass) :
    Looks target g rules.lookedAt start (run target rules g start) := by
  rw [FormRules.lookedAt, run]
  cases rules.formRules? with
  | none => exact looks_foldl_attachField rules.fieldGroups start
  | some group =>
      exact .cons (look_attachForm group) (looks_foldl_attachField rules.fieldGroups _)

/-! ## What is listed -/

/-- Whatever the cache serves: each group that was looked at is listed once, in order; none was
installed that had to be left out at the start, and those that had to be were, for the first reason.
What was in a slot is in it still. -/
structure Listed (target : FormClass) (start : AttachPass) (seen : List GroupKey)
    (pass : AttachPass) : Prop where
  perm : (pass.report.installed ++ pass.report.skipped.map (·.1)).Perm seen
  installed : pass.report.installed.Sublist seen
  skipped : (pass.report.skipped.map (·.1)).Sublist seen
  free : ∀ key ∈ pass.report.installed, hindrance? target start.hooks key = none
  hindered : ∀ key ∈ seen, ∀ why, hindrance? target start.hooks key = some why →
    (key, why) ∈ pass.report.skipped
  keeps : ∀ key v, start.hooks.slot? key = some v → pass.hooks.slot? key = some v

lemma listed_start (target : FormClass) (h : start.report = .empty) :
    Listed target start [] start where
  perm := by simp [h, AttachReport.empty]
  installed := by simp [h, AttachReport.empty]
  skipped := by simp [h, AttachReport.empty]
  free := by simp [h, AttachReport.empty]
  hindered := by simp
  keeps _ _ hv := hv

/-- One look keeps the lists. -/
lemma Listed.look (h : Listed target start seen pass) (hlook : Look target g pass key next) :
    Listed target start (seen ++ [key]) next := by
  have hkept : ∀ {why}, hindrance? target start.hooks key = some why →
      hindrance? target pass.hooks key = some why := fun hwhy =>
    hindrance?_of_keeps hwhy (h.keeps key)
  cases hlook with
  | skip why hwhy =>
      refine ⟨?_, h.installed.trans (List.sublist_append_left seen [key]), ?_, h.free,
        List.forall_mem_append.2 ⟨fun other hseen first hfirst => ?_,
          List.forall_mem_singleton.2 fun first hfirst => ?_⟩, h.keeps⟩
      · simpa [AttachReport.skip, ← List.append_assoc] using h.perm.append_right [key]
      · simpa [AttachReport.skip] using h.skipped.append (List.Sublist.refl [key])
      · exact List.mem_append_left _ (h.hindered other hseen first hfirst)
      · have hsame := hwhy.symm.trans (hkept hfirst)
        cases hsame
        exact List.mem_append_right _ (List.mem_singleton_self _)
  | install hooks cache events hinstalls =>
      have hfree : hindrance? target start.hooks key = none := by
        cases hwhy : hindrance? target start.hooks key with
        | none => rfl
        | some why => exact nomatch hinstalls.free.symm.trans (hkept hwhy)
      refine ⟨?_, ?_, h.skipped.trans (List.sublist_append_left seen [key]),
        List.forall_mem_append.2 ⟨h.free, List.forall_mem_singleton.2 hfree⟩,
        List.forall_mem_append.2 ⟨h.hindered, List.forall_mem_singleton.2 fun first hfirst => ?_⟩,
        fun other v hv => hinstalls.keeps other v (h.keeps other v hv)⟩
      · have hswap : ([key] ++ pass.report.skipped.map (·.1)).Perm
            (pass.report.skipped.map (·.1) ++ [key]) := List.perm_append_comm
        have hlast : (pass.report.installed ++ (pass.report.skipped.map (·.1) ++ [key])).Perm
            (seen ++ [key]) := by simpa using h.perm.append_right [key]
        simpa [AttachReport.install] using (hswap.append_left pass.report.installed).trans hlast
      · simpa [AttachReport.install] using h.installed.append (List.Sublist.refl [key])
      · exact nomatch hfree.symm.trans hfirst

/-- **Every group is listed once, in order.** -/
lemma Listed.looks (h : Listed target start seen pass) (hlooks : Looks target g keys pass last) :
    Listed target start (seen ++ keys) last := by
  induction hlooks generalizing seen with
  | nil pass => rwa [List.append_nil]
  | cons hlook _ ih => simpa using ih (h.look hlook)

/-! ## Where the cache serves own validators -/

/-- As long as the cache serves the groups their own validators, all groups that the slots admitted
at the start are installed, their slots are filled, and no other slot changes. -/
structure Told (target : FormClass) (g : Generation) (start : AttachPass) (seen : List GroupKey)
    (pass : AttachPass) : Prop extends Listed target start seen pass where
  complete : ∀ key ∈ seen, hindrance? target start.hooks key = none → key ∈ pass.report.installed
  filled : ∀ key ∈ pass.report.installed, (pass.hooks.slot? key).isSome = true
  stays : ∀ key, key ∉ pass.report.installed → pass.hooks.slot? key = start.hooks.slot? key
  cache_iff : ∀ key, key ∉ seen →
    (pass.cache.ServesOwn g target.form key ↔ start.cache.ServesOwn g target.form key)

lemma told_start (target : FormClass) (g : Generation) (h : start.report = .empty) :
    Told target g start [] start where
  toListed := listed_start target h
  complete _ hkey := nomatch hkey
  filled := by simp [h, AttachReport.empty]
  stays _ _ := rfl
  cache_iff _ _ := Iff.rfl

/-- The slot of a group that was not looked at yet is as it was. -/
lemma Told.hindrance?_eq (h : Told target g start seen pass) (hnew : key ∉ seen) :
    hindrance? target pass.hooks key = hindrance? target start.hooks key :=
  hindrance?_congr (h.stays key fun hkey => hnew (h.installed.subset hkey))

lemma Told.look (h : Told target g start seen pass) (hnew : key ∉ seen)
    (hown : hindrance? target start.hooks key = none → start.cache.ServesOwn g target.form key)
    (hlook : Look target g pass key next) : Told target g start (seen ++ [key]) next := by
  have hlisted := h.toListed.look hlook
  have hsame := h.hindrance?_eq hnew
  cases hlook with
  | skip why hwhy =>
      refine ⟨hlisted, List.forall_mem_append.2 ⟨h.complete, List.forall_mem_singleton.2 fun hfree =>
        ?_⟩, h.filled, h.stays, fun other hother => h.cache_iff other fun hseen =>
          hother (List.mem_append_left _ hseen)⟩
      exact nomatch hwhy.symm.trans (hsame.trans hfree)
  | install hooks cache events hinstalls =>
      have hserves : pass.cache.ServesOwn g target.form key :=
        (h.cache_iff key hnew).2 (hown (hsame ▸ hinstalls.free))
      have hothers := hinstalls.others hserves
      refine ⟨hlisted, List.forall_mem_append.2 ⟨fun other hseen hfree =>
        List.mem_append_left _ (h.complete other hseen hfree), fun other hother _ =>
          List.mem_append_right _ hother⟩, ?_, ?_, ?_⟩
      · intro other hother
        by_cases heq : other = key
        · rw [heq]
          exact hinstalls.filled_iff.2 hserves
        · rw [hothers other heq]
          exact h.filled other (by simpa [AttachReport.install, heq] using hother)
      · intro other hother
        obtain ⟨hold, hne⟩ : other ∉ pass.report.installed ∧ other ≠ key := by
          simpa [AttachReport.install] using hother
        rw [hothers other hne]
        exact h.stays other hold
      · intro other hother
        obtain ⟨hseen, hne⟩ : other ∉ seen ∧ other ≠ key := by simpa using hother
        exact (hinstalls.cache_iff other hne).trans (h.cache_iff other hseen)

/-- **Every group is told of once.** -/
lemma Told.looks (h : Told target g start seen pass) (hnodup : (seen ++ keys).Nodup)
    (hown : ∀ key ∈ keys, hindrance? target start.hooks key = none →
      start.cache.ServesOwn g target.form key)
    (hlooks : Looks target g keys pass last) : Told target g start (seen ++ keys) last := by
  induction hlooks generalizing seen with
  | nil pass => rwa [List.append_nil]
  | @cons key keys pass next last hlook _ ih =>
      obtain ⟨hfirst, hrest⟩ := List.forall_mem_cons.1 hown
      have hnew : key ∉ seen := fun hseen =>
        (List.nodup_append.1 hnodup).2.2 _ hseen _ List.mem_cons_self rfl
      simpa using ih (h.look hnew hfirst hlook) (by simpa using hnodup) hrest

/-- **Where nothing is left to do, every group had its own validator.**  The slot of the group that
was looked at last cannot have been filled by an earlier group, which would have kept it from being
installed, so it was filled by its own validator; and so on, backwards. -/
lemma Looks.servesOwn (h : Looks target g keys pass last) (hnodup : keys.Nodup)
    (hdone : ∀ key ∈ keys, hindrance? target last.hooks key ≠ none) :
    (∀ key ∈ keys, hindrance? target pass.hooks key = none →
      pass.cache.ServesOwn g target.form key) ∧
    ∀ other, other ∉ keys → last.hooks.slot? other = pass.hooks.slot? other := by
  induction h with
  | nil pass => exact ⟨fun _ hkey => (nomatch hkey), fun _ _ => rfl⟩
  | @cons key keys pass next last hlook _ ih =>
      obtain ⟨hnew, hrest⟩ := List.nodup_cons.1 hnodup
      obtain ⟨hfirst, hlater⟩ := List.forall_mem_cons.1 hdone
      obtain ⟨hserves, hstays⟩ := ih hrest hlater
      cases hlook with
      | skip why hwhy =>
          refine ⟨List.forall_mem_cons.2 ⟨fun hfree => ?_, hserves⟩, fun other hother =>
            hstays other (List.not_mem_of_not_mem_cons hother)⟩
          exact nomatch hwhy.symm.trans hfree
      | install hooks cache events hinstalls =>
          have hown : pass.cache.ServesOwn g target.form key := by
            by_contra hnot
            have hempty : hooks.slot? key = none := by
              simpa using mt hinstalls.filled_iff.1 hnot
            have hbefore : pass.hooks.slot? key = none := by
              by_contra hfull
              obtain ⟨v, hv⟩ := Option.ne_none_iff_exists'.1 hfull
              exact nomatch hempty.symm.trans (hinstalls.keeps key v hv)
            have hend := (hstays key hnew).trans (hempty.trans hbefore.symm)
            exact hfirst ((hindrance?_congr hend).trans hinstalls.free)
          have hothers := hinstalls.others hown
          refine ⟨List.forall_mem_cons.2 ⟨fun _ => hown, fun other hother hfree => ?_⟩,
            fun other hother => ?_⟩
          · have hne : other ≠ key := fun heq => hnew (heq ▸ hother)
            have hnext := hserves other hother ((hindrance?_congr (hothers other hne)).trans hfree)
            exact (hinstalls.cache_iff other hne).1 hnext
          · obtain ⟨hne, hnot⟩ : other ≠ key ∧ other ∉ keys := by simpa using hother
            exact (hstays other hnot).trans (hothers other hne)

/-! ## The account -/

/-- What a report says of the groups that the rules configure, whatever the cache serves.  Here
`before` are the slots as they were before the attachment. -/
structure Lists (rules : FormRules) (target : FormClass) (before : Hooks) (pass : AttachPass) :
    Prop where
  /-- The two lists name what is configured, and nothing else. -/
  named : ∀ key, key ∈ pass.report.installed ++ pass.report.skipped.map (·.1) ↔
    rules.Configures key
  /-- No group is named twice. -/
  once : (pass.report.installed ++ pass.report.skipped.map (·.1)).Nodup
  installed_ordered : pass.report.installed.Pairwise GroupKey.Precedes
  skipped_ordered : (pass.report.skipped.map (·.1)).Pairwise GroupKey.Precedes
  admitted : ∀ key ∈ pass.report.installed, target.Admits before key
  leavesOut : ∀ key why, rules.Configures key → target.LeavesOut before key why →
    (key, why) ∈ pass.report.skipped
  /-- What was in a slot is in it still. -/
  keeps : ∀ key v, before.slot? key = some v → pass.hooks.slot? key = some v

/-- The report of an attachment accounts for the groups that the rules configure, and for the
slots. -/
structure Accounts (rules : FormRules) (target : FormClass) (before : Hooks) (pass : AttachPass) :
    Prop extends Lists rules target before pass where
  installed_iff : ∀ key, key ∈ pass.report.installed ↔
    rules.Configures key ∧ target.Admits before key
  skipped_iff : ∀ key why, (key, why) ∈ pass.report.skipped ↔
    rules.Configures key ∧ target.LeavesOut before key why
  /-- The slots of the groups that were installed were empty, and are filled. -/
  fills : ∀ key ∈ pass.report.installed,
    before.slot? key = none ∧ (pass.hooks.slot? key).isSome
  /-- No other slot has changed. -/
  changes_only : ∀ key ∉ pass.report.installed, pass.hooks.slot? key = before.slot? key

lemma Listed.lists (h : Listed target start rules.lookedAt pass) :
    Lists rules target start.hooks pass where
  named key := h.perm.mem_iff.trans FormRules.mem_lookedAt_iff
  once := h.perm.nodup_iff.2 rules.nodup_lookedAt
  installed_ordered := rules.pairwise_lookedAt.sublist h.installed
  skipped_ordered := rules.pairwise_lookedAt.sublist h.skipped
  admitted key hkey := by
    have hconfigured := FormRules.mem_lookedAt_iff.1 (h.installed.subset hkey)
    exact (hindrance?_eq_none_iff hconfigured).1 (h.free key hkey)
  leavesOut key why hconfigured hwhy :=
    h.hindered key (FormRules.mem_lookedAt_iff.2 hconfigured) why (hindrance?_of_leavesOut hwhy)
  keeps := h.keeps

lemma Told.accounts (h : Told target g start rules.lookedAt pass) :
    Accounts rules target start.hooks pass := by
  have hlists := h.toListed.lists
  have hconfigured : ∀ {key}, key ∈ pass.report.installed ++ pass.report.skipped.map (·.1) →
      rules.Configures key := fun hkey => (hlists.named _).1 hkey
  have hinstalled : ∀ {key}, rules.Configures key → target.Admits start.hooks key →
      key ∈ pass.report.installed := fun hkey hadmits =>
    h.complete _ (FormRules.mem_lookedAt_iff.2 hkey) (hindrance?_of_admits hadmits)
  obtain ⟨-, hskipped, hdisjoint⟩ := List.nodup_append.1 hlists.once
  refine ⟨hlists, fun key => ⟨fun hkey => ?_, fun hkey => hinstalled hkey.1 hkey.2⟩,
    fun key why => ⟨fun hkey => ?_, fun hkey => hlists.leavesOut key why hkey.1 hkey.2⟩,
    fun key hkey => ⟨?_, h.filled key hkey⟩, h.stays⟩
  · exact ⟨hconfigured (List.mem_append_left _ hkey), hlists.admitted key hkey⟩
  · have hmem : key ∈ pass.report.skipped.map (·.1) := List.mem_map.2 ⟨_, hkey, rfl⟩
    have hgroup := hconfigured (List.mem_append_right _ hmem)
    rcases FormClass.admits_or_leavesOut hgroup target start.hooks with hadmits | ⟨first, hfirst⟩
    · exact absurd rfl (hdisjoint key (hinstalled hgroup hadmits) key hmem)
    · have hsame := List.inj_on_of_nodup_map hskipped (hlists.leavesOut key first hgroup hfirst)
        hkey rfl
      cases hsame
      exact ⟨hgroup, hfirst⟩
  · exact Hooks.slot?_eq_none_of_admits (hlists.admitted key hkey)

/-- Where the report accounts for an attachment, there is nothing left to install. -/
lemma Accounts.hindrance?_ne_none {before : Hooks} (h : Accounts rules target before pass)
    (hkey : rules.Configures key) : hindrance? target pass.hooks key ≠ none := by
  intro hfree
  rcases FormClass.admits_or_leavesOut hkey target before with hadmits | ⟨why, hwhy⟩
  · have hfilled := (h.fills key ((h.installed_iff key).2 ⟨hkey, hadmits⟩)).2
    rw [Hooks.slot?_eq_none_of_admits ((hindrance?_eq_none_iff hkey).1 hfree)] at hfilled
    cases hfilled
  · rw [hindrance?_of_keeps (hindrance?_of_leavesOut hwhy) (h.keeps key)] at hfree
    cases hfree

/-- **An attachment is accounted for exactly if the cache serves own validators** to the fields that
are to be installed. -/
lemma accounts_run_iff (target : FormClass) (rules : FormRules) (g : Generation)
    (start : AttachPass) (h : start.report = .empty) :
    Accounts rules target start.hooks (run target rules g start) ↔
      ∀ key, rules.Configures key → target.Admits start.hooks key →
        start.cache.ServesOwn g target.form key := by
  have hlooks := looks_run target rules g start
  constructor
  · intro haccounts key hkey hadmits
    have hdone : ∀ key ∈ rules.lookedAt,
        hindrance? target (run target rules g start).hooks key ≠ none := fun key hkey =>
      haccounts.hindrance?_ne_none (FormRules.mem_lookedAt_iff.1 hkey)
    exact (hlooks.servesOwn rules.nodup_lookedAt hdone).1 key (FormRules.mem_lookedAt_iff.2 hkey)
      (hindrance?_of_admits hadmits)
  · intro hown
    refine ((told_start target g h).looks rules.nodup_lookedAt (fun key hkey hfree => ?_)
      hlooks).accounts
    have hgroup := FormRules.mem_lookedAt_iff.1 hkey
    exact hown key hgroup ((hindrance?_eq_none_iff hgroup).1 hfree)

end AttachPass

namespace Engine

/-- **The report accounts for an attachment, if the cache serves own validators.**  Whatever an
engine serves and has compiled before, and whatever is in the slots of a form, an attachment lists
each group that is configured for the form once, in order, and nothing else; it installs no group
that the slots before the attachment do not admit, leaves out those that they do not for the first
reason, and keeps what is in a slot.

The groups that are admitted are installed, the slots that are filled are those of the groups that
were installed, and every other slot is as it was, exactly if for each field that is to be installed
what the cache keeps of the served generation validates that field.  A cache whose validators are
all kept under their own fields is of this kind, and it stays so.  An empty cache is one, and
whatever happens to an engine keeps it so (`SlotRun.namesFields_after`). -/
theorem attach_accounts (e : Engine) (now : SourceState) (target : FormClass) (hooks : Hooks) :
    let served := (e.source.look now).2
    let rules := served.document.formRules target.form
    let done := e.attach now target hooks
    done.2.Lists rules target hooks ∧
    (done.2.Accounts rules target hooks ↔
      ∀ field, rules.Configures (.field field) → target.Admits hooks (.field field) →
        e.cache.generation = served.generation →
          ∀ v, e.cache.field? target.form field = some v → v.field = field) ∧
    (e.cache.NamesFields → done.2.Accounts rules target hooks ∧ done.1.cache.NamesFields) := by
  intro served rules done
  have hiff : done.2.Accounts rules target hooks ↔ ∀ key, rules.Configures key →
      target.Admits hooks key → e.cache.ServesOwn served.generation target.form key :=
    AttachPass.accounts_run_iff target rules served.generation
      ⟨hooks, e.cache, .empty, served.events⟩ rfl
  refine ⟨?_, hiff.trans ⟨fun h field => h (.field field), fun h key => ?_⟩, fun hnames => ⟨?_, ?_⟩⟩
  · have hlisted := (AttachPass.listed_start target rfl).looks
      (AttachPass.looks_run target rules served.generation ⟨hooks, e.cache, .empty, served.events⟩)
    exact hlisted.lists
  · cases key with
    | field name => exact h name
    | form | other raw => exact fun _ _ => trivial
  · exact hiff.2 fun key _ _ => hnames.servesOwn served.generation target.form key
  · have hstart : AttachPass.Grown target hooks ⟨hooks, e.cache, .empty, served.events⟩ :=
      ⟨.refl _ _, hnames⟩
    exact (hstart.run rules served.generation).cache

/-- A document with the same rules in several groups of one form; two of the groups are for
nothing. -/
def severalGroups : Document :=
  let rules : List Rule := [⟨none, none, some "no", none⟩]
  ⟨KeyMap.ofList [("F", ⟨KeyMap.ofList
    (["clean", "clean_", "clean_z", "clean_c", "clean_b", "clean_a", "cleaned"].map (·, rules)),
    none⟩)]⟩

/-- The form validates its field `b` itself, and it has no field `z`. -/
def severalFields : FormClass := ⟨"F", ExplicitHooks.none.withField "b", ["c", "a", "b"]⟩

/-- The slot for the field `c` is filled before an attachment. -/
theorem attach_accounts_severalFields :
    let e := of (.memory (.of severalGroups))
    let hooks := Hooks.empty.installField (FieldValidator.compile "F" "c" []).1
    let pass := (e.attach .absent severalFields hooks).2
    e.cache.NamesFields ∧
      pass.report = ⟨[.form, .field "a"],
        [(.field "b", .explicitOverride), (.field "c", .alreadyInstalled),
          (.field "z", .unknownField)]⟩ ∧
      pass.Accounts (severalGroups.formRules "F") severalFields hooks := by
  intro e hooks pass
  have hcache : e.cache.NamesFields := CompiledCache.namesFields_empty
  exact ⟨hcache, by decide +kernel, ((attach_accounts e .absent severalFields hooks).2.2 hcache).1⟩

/-- An engine whose cache was asked for the validator of the field `a` of a form, and was handed one
for the field `b` of the form to keep. -/
def misfiled : Engine :=
  ⟨.memory (.of severalGroups), (CompiledCache.empty.fieldValidator 1 "F" "a" fun _ =>
    FieldValidator.compile "F" "b" []).cache⟩

/-- The report says that the rules for the field `a` were installed.  Its slot is empty, and that of
the field `b` is filled, which the form validates itself. -/
theorem attach_misfiled :
    let pass := (misfiled.attach .absent severalFields .empty).2
    pass.report.installed = [.form, .field "a", .field "c"] ∧
      pass.hooks.slot? (.field "a") = none ∧
      (pass.hooks.slot? (.field "b")).isSome = true ∧
      ¬ pass.Accounts (severalGroups.formRules "F") severalFields .empty := by
  intro pass
  have hinstalled : pass.report.installed = [.form, .field "a", .field "c"] := by decide +kernel
  have hempty : pass.hooks.slot? (.field "a") = none := by rfl
  refine ⟨hinstalled, hempty, by rfl, fun haccounts => ?_⟩
  have hfilled := (haccounts.fills (.field "a") (by simp [hinstalled])).2
  rw [hempty] at hfilled
  cases hfilled

end Engine

end FormValidation
