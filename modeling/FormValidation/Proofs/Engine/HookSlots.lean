import Mathlib.Data.List.Induction
import FormValidation.Proofs.Engine.CacheAgreement

/-!
# Slots are filled once

The slots of a form are filled whenever an engine attaches its rules to the form, which may happen
any number of times and with any rules.  This file says what that does to a slot over a whole run:
once filled it stays as it is, and it is only filled by an attachment at which the form has the
field, does not validate it itself, and finds the slot empty.

`Hooks.Grows` is what one attachment may do to the slots (`AttachPass.grows_run`), and
`AttachPass.Done` says that it leaves nothing for another one to do (`done_run`).  No bound on the
number of changes is needed here, and the source may be any other at any time: what a slot holds
may be out of date, but it validates the field of the slot, since that much holds of every
validator in the cache (`CompiledCache.NamesFields`).  `SlotRun` is the life of one form, and
`slots_after` the result about it.
-/

namespace FormValidation

/-! ## What the cache keeps under a field -/

/-- Every validator that is kept under a field validates that field. -/
def CompiledCache.NamesFields (c : CompiledCache) : Prop :=
  ∀ form field v, c.field? form field = some v → v.field = field

namespace CompiledCache

variable {c d : CompiledCache} {g : Generation}

lemma namesFields_empty : empty.NamesFields := fun _ _ _ h => nomatch h

lemma namesFields_clear (c : CompiledCache) : c.clear.NamesFields := fun _ _ _ h => nomatch h

lemma NamesFields.advance (h : c.NamesFields) (hd : c.advance? g = some d) : d.NamesFields := by
  rw [advance?] at hd
  split at hd
  · cases hd
  · split at hd <;> cases hd
    · exact namesFields_clear c
    · exact h

lemma NamesFields.keepField {form field : String} {v : FieldValidator} (h : c.NamesFields)
    (hv : v.field = field) : (c.keepField form field v).NamesFields := by
  intro form' field' w hw
  rw [field?_keepField] at hw
  split at hw
  · rename_i heq
    cases hw
    exact hv.trans heq.2
  · exact h form' field' w hw

/-- The validators of forms do not matter. -/
lemma NamesFields.formValidator {form : String} (h : c.NamesFields)
    (compile : Unit → FormValidator × List Diagnostic) :
    (c.formValidator g form compile).cache.NamesFields := by
  rw [CompiledCache.formValidator]
  refine answer_induction (p := fun a => a.cache.NamesFields) (fun v _ _ => h) (fun _ => h)
    fun d hd => ?_
  have hadvanced := h.advance hd
  exact fun form' field w hw => hadvanced form' field w hw

/-- The validator of a group is for the field of the group. -/
lemma NamesFields.fieldValidator (h : c.NamesFields) (g : Generation) (form : String)
    (group : String × List Rule) :
    let answer := c.fieldValidator g form group.1
      fun _ => FieldValidator.compile form group.1 group.2
    answer.validator.field = group.1 ∧ answer.cache.NamesFields := by
  dsimp only
  rw [CompiledCache.fieldValidator]
  refine answer_induction (p := fun a => a.validator.field = group.1 ∧ a.cache.NamesFields)
    (fun v _ hv => ⟨h form group.1 v hv, h⟩) (fun _ => ?_) fun d hd => ?_
  · exact ⟨rfl, h⟩
  · exact ⟨rfl, (h.advance hd).keepField rfl⟩

end CompiledCache

/-! ## What one attachment does to the slots -/

namespace Hooks

/-- A filled slot stays as it is.  One that is filled on the way belongs to a part that the form
does not validate itself, and to a field that the form has and that the validator is for. -/
structure Grows (target : FormClass) (before after : Hooks) : Prop where
  form_stays : ∀ v, before.form = some v → after.form = some v
  field_stays : ∀ field v, before.fields.find? field = some v →
    after.fields.find? field = some v
  form_new : ∀ v, before.form = none → after.form = some v → target.explicit.form = false
  field_new : ∀ field v, before.fields.find? field = none → after.fields.find? field = some v →
    v.field = field ∧ field ∈ target.available ∧ target.explicit.hasField field = false

variable {target : FormClass} {before middle after : Hooks}

lemma Grows.refl (target : FormClass) (h : Hooks) : Grows target h h where
  form_stays _ hv := hv
  field_stays _ _ hv := hv
  form_new v hnone hsome := by
    rw [hnone] at hsome
    cases hsome
  field_new field v hnone hsome := by
    rw [hnone] at hsome
    cases hsome

lemma Grows.trans (h : Grows target before middle) (h' : Grows target middle after) :
    Grows target before after where
  form_stays v hv := h'.form_stays v (h.form_stays v hv)
  field_stays field v hv := h'.field_stays field v (h.field_stays field v hv)
  form_new v hnone hsome := by
    cases hmiddle : middle.form with
    | none => exact h'.form_new v hmiddle hsome
    | some w => exact h.form_new w hnone hmiddle
  field_new field v hnone hsome := by
    cases hmiddle : middle.fields.find? field with
    | none => exact h'.field_new field v hmiddle hsome
    | some w =>
        have hkept := h'.field_stays field w hmiddle
        rw [hkept] at hsome
        cases hsome
        exact h.field_new field _ hnone hmiddle

lemma grows_installForm (h : Hooks) {v : FormValidator} (hown : target.explicit.form = false) :
    Grows target h (h.installForm v) := by
  rw [installForm]
  split
  · exact Grows.refl target h
  · rename_i hempty
    have hform : h.form = none := Option.not_isSome_iff_eq_none.1 hempty
    refine ⟨fun w hw => ?_, fun _ _ hw => hw, fun _ _ _ => hown, fun field w hnone hsome => ?_⟩
    · rw [hform] at hw
      cases hw
    · have hfields : h.fields.find? field = some w := hsome
      rw [hnone] at hfields
      cases hfields

lemma grows_installField (h : Hooks) {v : FieldValidator} (hhas : v.field ∈ target.available)
    (hown : target.explicit.hasField v.field = false) : Grows target h (h.installField v) := by
  rw [installField]
  split
  · exact Grows.refl target h
  · rename_i hempty
    have hnone : h.fields.find? v.field = none := Option.not_isSome_iff_eq_none.1 hempty
    refine ⟨fun _ hw => hw, fun field w hw => ?_, fun w hform hsome => ?_,
      fun field w hfield hsome => ?_⟩
    · rw [KeyMap.find?_insert, if_neg]
      · exact hw
      · rintro rfl
        rw [hnone] at hw
        cases hw
    · have hsame : h.form = some w := hsome
      rw [hform] at hsame
      cases hsame
    · rw [KeyMap.find?_insert] at hsome
      split at hsome
      · rename_i heq
        cases hsome
        exact ⟨heq, heq ▸ hhas, heq ▸ hown⟩
      · rw [hfield] at hsome
        cases hsome

end Hooks

namespace AttachPass

variable {target : FormClass} {before : Hooks} {pass : AttachPass} {g : Generation}

lemma formHindrance?_eq_none_iff {hooks : Hooks} : formHindrance? target hooks = none ↔
    target.explicit.form = false ∧ hooks.hasForm = false := by
  rw [formHindrance?]
  split
  · simp_all
  · split <;> simp_all

lemma fieldHindrance?_eq_none_iff {hooks : Hooks} {field : String} :
    fieldHindrance? target hooks field = none ↔
      field ∈ target.available ∧ target.explicit.hasField field = false ∧
        hooks.hasField field = false := by
  rw [fieldHindrance?]
  split
  · simp_all
  · split
    · simp_all
    · split <;> simp_all

/-- The slots have grown from what they were, and the cache still names fields. -/
structure Grown (target : FormClass) (before : Hooks) (pass : AttachPass) : Prop where
  hooks : Hooks.Grows target before pass.hooks
  cache : pass.cache.NamesFields

lemma Grown.attachForm (h : Grown target before pass) (g : Generation) (rules : List Rule) :
    Grown target before (pass.attachForm target g rules) := by
  rw [AttachPass.attachForm]
  split
  · exact ⟨h.hooks, h.cache⟩
  · rename_i hfree
    have hown := (formHindrance?_eq_none_iff.1 hfree).1
    exact ⟨h.hooks.trans (Hooks.grows_installForm pass.hooks hown), h.cache.formValidator _⟩

lemma Grown.attachField (h : Grown target before pass) (g : Generation)
    (group : String × List Rule) : Grown target before (attachField target g pass group) := by
  rw [AttachPass.attachField]
  split
  · exact ⟨h.hooks, h.cache⟩
  · rename_i hfree
    obtain ⟨hhas, hown, -⟩ := fieldHindrance?_eq_none_iff.1 hfree
    obtain ⟨hfield, hcache⟩ := h.cache.fieldValidator g target.form group
    refine ⟨h.hooks.trans (Hooks.grows_installField pass.hooks ?_ ?_), hcache⟩
    · rw [hfield]
      exact hhas
    · rw [hfield]
      exact hown

lemma Grown.foldl_attachField (g : Generation) (groups : List (String × List Rule))
    (h : Grown target before pass) :
    Grown target before (groups.foldl (AttachPass.attachField target g) pass) := by
  induction groups generalizing pass with
  | nil => exact h
  | cons group groups ih => exact ih (h.attachField g group)

/-- **One attachment only fills slots that may be filled.** -/
lemma Grown.run (h : Grown target before pass) (rules : FormRules) (g : Generation) :
    Grown target before (run target rules g pass) := by
  rw [AttachPass.run]
  refine .foldl_attachField g _ ?_
  split
  · exact h.attachForm g _
  · exact h

/-! ## What one attachment leaves to do -/

section

variable {hooks later : Hooks} {field : String}

/-- What keeps a group from being installed does not go away. -/
lemma formHindrance?_ne_none_of_grows (h : Hooks.Grows target hooks later)
    (hkept : formHindrance? target hooks ≠ none) : formHindrance? target later ≠ none := by
  intro hfree
  obtain ⟨hown, hempty⟩ := formHindrance?_eq_none_iff.1 hfree
  refine hkept (formHindrance?_eq_none_iff.2 ⟨hown, ?_⟩)
  cases hform : hooks.form with
  | none => rw [Hooks.hasForm, hform]; rfl
  | some v =>
      rw [Hooks.hasForm, h.form_stays v hform] at hempty
      cases hempty

lemma fieldHindrance?_ne_none_of_grows (h : Hooks.Grows target hooks later)
    (hkept : fieldHindrance? target hooks field ≠ none) :
    fieldHindrance? target later field ≠ none := by
  intro hfree
  obtain ⟨hhas, hown, hempty⟩ := fieldHindrance?_eq_none_iff.1 hfree
  refine hkept (fieldHindrance?_eq_none_iff.2 ⟨hhas, hown, ?_⟩)
  cases hfield : hooks.fields.find? field with
  | none => rw [Hooks.hasField, KeyMap.contains, hfield]; rfl
  | some v =>
      rw [Hooks.hasField, KeyMap.contains, h.field_stays field v hfield] at hempty
      cases hempty

end

lemma formHindrance?_attachForm (target : FormClass) (g : Generation) (rules : List Rule)
    (pass : AttachPass) : formHindrance? target (pass.attachForm target g rules).hooks ≠ none := by
  rw [attachForm]
  split
  · rename_i why hkept
    rw [hkept]
    exact Option.some_ne_none why
  · intro hfree
    have hempty := (formHindrance?_eq_none_iff.1 hfree).2
    rw [Hooks.hasForm_installForm] at hempty
    cases hempty

lemma fieldHindrance?_attachField (h : pass.cache.NamesFields) (group : String × List Rule) :
    fieldHindrance? target (attachField target g pass group).hooks group.1 ≠ none := by
  rw [attachField]
  split
  · rename_i why hkept
    rw [hkept]
    exact Option.some_ne_none why
  · intro hfree
    have hempty := (fieldHindrance?_eq_none_iff.1 hfree).2.2
    have hfield := (h.fieldValidator g target.form group).1
    rw [Hooks.hasField_installField, hfield, decide_eq_true rfl, Bool.true_or] at hempty
    cases hempty

lemma fieldHindrance?_foldl_attachField (groups : List (String × List Rule))
    (h : Grown target before pass) : ∀ group ∈ groups,
      fieldHindrance? target (groups.foldl (attachField target g) pass).hooks group.1 ≠ none := by
  induction groups generalizing pass before with
  | nil => exact fun _ hgroup => nomatch hgroup
  | cons head groups ih =>
      have hstep := h.attachField g head
      intro group hgroup
      rcases List.mem_cons.1 hgroup with rfl | hgroup
      · have hlater : Grown target (attachField target g pass group).hooks _ :=
          Grown.foldl_attachField g groups ⟨Hooks.Grows.refl _ _, hstep.cache⟩
        exact fieldHindrance?_ne_none_of_grows hlater.hooks
          (fieldHindrance?_attachField h.cache group)
      · exact ih hstep group hgroup

/-- Every group of the rules is kept from being installed. -/
structure Done (target : FormClass) (rules : FormRules) (hooks : Hooks) : Prop where
  form : rules.formRules? ≠ none → formHindrance? target hooks ≠ none
  field : ∀ group ∈ rules.fieldGroups, fieldHindrance? target hooks group.1 ≠ none

/-- **An attachment leaves nothing to do.** -/
lemma done_run (pass : AttachPass) (hcache : pass.cache.NamesFields) (target : FormClass)
    (rules : FormRules) (g : Generation) : Done target rules (run target rules g pass).hooks := by
  have hstart : Grown target pass.hooks pass := ⟨.refl _ _, hcache⟩
  rw [run]
  cases hrules : rules.formRules? with
  | none =>
      exact ⟨fun h => absurd hrules h, fieldHindrance?_foldl_attachField _ hstart⟩
  | some group =>
      have hform := hstart.attachForm g group
      refine ⟨fun _ => ?_, fieldHindrance?_foldl_attachField _ hform⟩
      have hlater : Grown target (pass.attachForm target g group).hooks _ :=
        Grown.foldl_attachField g rules.fieldGroups ⟨Hooks.Grows.refl _ _, hform.cache⟩
      exact formHindrance?_ne_none_of_grows hlater.hooks
        (formHindrance?_attachForm target g group pass)

/-- Nothing happens to the slots and the cache, and nothing more is installed. -/
structure Idle (before after : AttachPass) : Prop where
  hooks : after.hooks = before.hooks
  cache : after.cache = before.cache
  installed : after.report.installed = before.report.installed

lemma Idle.trans {first second third : AttachPass} (h : Idle first second)
    (h' : Idle second third) : Idle first third :=
  ⟨h'.hooks.trans h.hooks, h'.cache.trans h.cache, h'.installed.trans h.installed⟩

lemma idle_attachForm (h : formHindrance? target pass.hooks ≠ none) (rules : List Rule) :
    Idle pass (pass.attachForm target g rules) := by
  rw [attachForm]
  split
  · exact ⟨rfl, rfl, rfl⟩
  · rename_i hfree
    exact absurd hfree h

lemma idle_attachField {group : String × List Rule}
    (h : fieldHindrance? target pass.hooks group.1 ≠ none) :
    Idle pass (attachField target g pass group) := by
  rw [attachField]
  split
  · exact ⟨rfl, rfl, rfl⟩
  · rename_i hfree
    exact absurd hfree h

lemma idle_foldl_attachField {groups : List (String × List Rule)}
    (h : ∀ group ∈ groups, fieldHindrance? target pass.hooks group.1 ≠ none) :
    Idle pass (groups.foldl (attachField target g) pass) := by
  induction groups generalizing pass with
  | nil => exact ⟨rfl, rfl, rfl⟩
  | cons head groups ih =>
      have hidle : Idle pass (attachField target g pass head) :=
        idle_attachField (h head List.mem_cons_self)
      refine hidle.trans (ih fun group hgroup => ?_)
      rw [hidle.hooks]
      exact h group (List.mem_cons_of_mem _ hgroup)

/-- Where everything is done, an attachment has nothing to do. -/
lemma Done.idle (pass : AttachPass) {rules : FormRules} (h : Done target rules pass.hooks)
    (g : Generation) : Idle pass (run target rules g pass) := by
  rw [run]
  cases hrules : rules.formRules? with
  | none => exact idle_foldl_attachField h.field
  | some group =>
      have hform : Idle pass (pass.attachForm target g group) :=
        idle_attachForm (h.form (by rw [hrules]; exact Option.some_ne_none group)) group
      refine hform.trans (idle_foldl_attachField ?_)
      rw [hform.hooks]
      exact h.field

end AttachPass

/-! ## The life of a form -/

/-- A source that is asked twice serves the same document twice. -/
lemma RuleSource.document_look_look (source : RuleSource) (now : SourceState) :
    ((source.look now).1.look now).2.document = (source.look now).2.document := by
  cases source with
  | memory m => rfl
  | manual m => rfl
  | store s =>
      simp only [look, Store.load, StoreSource.snapshot_eq_refresh]
      exact StoreSource.document_refresh_refresh s.source s.state now

/-- The form with other fields. -/
def FormClass.having (target : FormClass) (available : List String) : FormClass :=
  { target with available }

/-- What may happen while a form lives. -/
inductive SlotStep where
  /-- Something happens to the engine, or to another form by it. -/
  | engine (s : EngineStep)
  /-- The engine has any other source, with something else at its path. -/
  | source (source : RuleSource) (now : SourceState)
  /-- The engine attaches its rules to the form, which has these fields at that moment. -/
  | attach (available : List String)

/-- An engine, and the slots of one form. -/
structure SlotRun where
  run : EngineRun
  hooks : Hooks

namespace SlotRun

/-- A new engine, and empty slots. -/
def start (source : RuleSource) (now : SourceState) : SlotRun := ⟨.start source now, .empty⟩

/-- What an attachment would come to now. -/
def attach (r : SlotRun) (target : FormClass) (available : List String) : AttachPass :=
  r.run.attach (target.having available) r.hooks

/-- One step in the life of a form. -/
def step (target : FormClass) (r : SlotRun) : SlotStep → SlotRun
  | .engine s => { r with run := r.run.step s }
  | .source source now => { r with run := ⟨{ r.run.engine with source }, now⟩ }
  | .attach available =>
    ⟨r.run.step (.attach (target.having available) r.hooks), (r.attach target available).hooks⟩

/-- Any number of steps. -/
def after (r : SlotRun) (target : FormClass) (steps : List SlotStep) : SlotRun :=
  steps.foldl (step target) r

variable {target : FormClass} {r : SlotRun}

lemma after_concat (r : SlotRun) (target : FormClass) (steps : List SlotStep) (s : SlotStep) :
    r.after target (steps ++ [s]) = (r.after target steps).step target s := by
  rw [after, List.foldl_append]
  rfl

lemma grown_attach {e : EngineRun} (h : e.engine.cache.NamesFields) (target : FormClass)
    (hooks : Hooks) : (e.attach target hooks).Grown target hooks := by
  have hstart : AttachPass.Grown target hooks
      ⟨hooks, e.engine.cache, .empty, (e.engine.source.look e.now).2.events⟩ := ⟨.refl _ _, h⟩
  exact hstart.run _ _

lemma namesFields_engineStep {e : EngineRun} (h : e.engine.cache.NamesFields) (s : EngineStep) :
    (e.step s).engine.cache.NamesFields := by
  cases s with
  | replace d => exact h
  | change now => exact h
  | load isReload => exact h
  | clear => exact CompiledCache.namesFields_clear _
  | attach other hooks => exact (grown_attach h other hooks).cache

lemma namesFields_step (h : r.run.engine.cache.NamesFields) (target : FormClass) (s : SlotStep) :
    (r.step target s).run.engine.cache.NamesFields := by
  cases s with
  | engine s => exact namesFields_engineStep h s
  | source source now => exact h
  | attach available => exact namesFields_engineStep h _

lemma namesFields_after (h : r.run.engine.cache.NamesFields) (target : FormClass)
    (steps : List SlotStep) : (r.after target steps).run.engine.cache.NamesFields := by
  induction steps generalizing r with
  | nil => exact h
  | cons s steps ih => exact ih (namesFields_step h target s)

/-- A slot that is filled stays as it is, whatever happens. -/
lemma stays_step (h : r.run.engine.cache.NamesFields) (target : FormClass) (s : SlotStep) :
    (∀ v, r.hooks.form = some v → (r.step target s).hooks.form = some v) ∧
      ∀ field v, r.hooks.fields.find? field = some v →
        (r.step target s).hooks.fields.find? field = some v := by
  cases s with
  | engine s => exact ⟨fun _ hv => hv, fun _ _ hv => hv⟩
  | source source now => exact ⟨fun _ hv => hv, fun _ _ hv => hv⟩
  | attach available =>
      have hgrows := (grown_attach h (target.having available) r.hooks).hooks
      exact ⟨hgrows.form_stays, hgrows.field_stays⟩

lemma stays_after (h : r.run.engine.cache.NamesFields) (target : FormClass)
    (steps : List SlotStep) :
    (∀ v, r.hooks.form = some v → (r.after target steps).hooks.form = some v) ∧
      ∀ field v, r.hooks.fields.find? field = some v →
        (r.after target steps).hooks.fields.find? field = some v := by
  induction steps generalizing r with
  | nil => exact ⟨fun _ hv => hv, fun _ _ hv => hv⟩
  | cons s steps ih =>
      obtain ⟨hform, hfield⟩ := stays_step h target s
      obtain ⟨hform', hfield'⟩ := ih (namesFields_step h target s)
      exact ⟨fun v hv => hform' v (hform v hv),
        fun field v hv => hfield' field v (hfield field v hv)⟩

/-! ## Where what is in a slot comes from -/

/-- The slot for a field was empty after some steps, and the attachment that came next filled it. -/
structure FilledAt (start : SlotRun) (target : FormClass) (field : String) (v : FieldValidator)
    (before : List SlotStep) (available : List String) : Prop where
  empty : (start.after target before).hooks.fields.find? field = none
  filled : (start.after target (before ++ [.attach available])).hooks.fields.find? field = some v
  available : field ∈ available

/-- Only an attachment fills the slot for the whole form, and only if the form does not validate
itself. -/
lemma form_new (h : r.run.engine.cache.NamesFields) {s : SlotStep} {v : FormValidator}
    (hnone : r.hooks.form = none) (hsome : (r.step target s).hooks.form = some v) :
    target.explicit.form = false := by
  cases s with
  | engine s | source source now =>
      have hsame : r.hooks.form = some v := hsome
      rw [hnone] at hsame
      cases hsame
  | attach available =>
      exact (grown_attach h (target.having available) r.hooks).hooks.form_new v hnone hsome

/-- Only an attachment fills the slot for a field, and only if the form has the field and does not
validate it itself. -/
lemma field_new (h : r.run.engine.cache.NamesFields) {s : SlotStep} {field : String}
    {v : FieldValidator} (hnone : r.hooks.fields.find? field = none)
    (hsome : (r.step target s).hooks.fields.find? field = some v) :
    v.field = field ∧ target.explicit.hasField field = false ∧
      ∃ available, s = .attach available ∧ field ∈ available := by
  cases s with
  | engine s | source source now =>
      have hsame : r.hooks.fields.find? field = some v := hsome
      rw [hnone] at hsame
      cases hsame
  | attach available =>
      obtain ⟨hfield, hhas, hown⟩ :=
        (grown_attach h (target.having available) r.hooks).hooks.field_new field v hnone hsome
      exact ⟨hfield, hown, available, rfl, hhas⟩

lemma explicit_of_form (h : r.run.engine.cache.NamesFields) (hempty : r.hooks.form = none)
    {steps : List SlotStep} {v : FormValidator} (hv : (r.after target steps).hooks.form = some v) :
    target.explicit.form = false := by
  induction steps generalizing r with
  | nil =>
      have hsame : r.hooks.form = some v := hv
      rw [hempty] at hsame
      cases hsame
  | cons s steps ih =>
      cases hnext : (r.step target s).hooks.form with
      | none => exact ih (namesFields_step h target s) hnext hv
      | some w => exact form_new h hempty hnext

/-- **What is in the slot for a field was put there by an attachment.** -/
lemma exists_filledAt (h : r.run.engine.cache.NamesFields) {field : String} {v : FieldValidator}
    (hempty : r.hooks.fields.find? field = none) {steps : List SlotStep}
    (hv : (r.after target steps).hooks.fields.find? field = some v) :
    v.field = field ∧ target.explicit.hasField field = false ∧
      ∃ before available later, steps = before ++ .attach available :: later ∧
        r.FilledAt target field v before available := by
  induction steps using List.reverseRecOn with
  | nil =>
      have hsame : r.hooks.fields.find? field = some v := hv
      rw [hempty] at hsame
      cases hsame
  | append_singleton steps s ih =>
      have hcache := namesFields_after h target steps
      cases hbefore : (r.after target steps).hooks.fields.find? field with
      | none =>
          have hfilled := hv
          rw [after_concat] at hv
          obtain ⟨hfield, hown, available, rfl, hhas⟩ := field_new hcache hbefore hv
          exact ⟨hfield, hown, steps, available, [], rfl, hbefore, hfilled, hhas⟩
      | some w =>
          -- It was filled before, and so it has stayed as it was.
          have hsame := (stays_step hcache target s).2 field w hbefore
          rw [← after_concat, hv] at hsame
          cases hsame
          obtain ⟨hfield, hown, before, available, later, rfl, hfilled⟩ := ih hbefore
          exact ⟨hfield, hown, before, available, later ++ [s], by simp, hfilled⟩

lemma field_of_runField {hooks : Hooks} {field : String} {host : Host} {clock : Clock}
    {failure : ValidationFailure} (h : (hooks.runField field host clock).1 = .error failure) :
    ∃ v, hooks.fields.find? field = some v ∧ failure.field = v.field := by
  rw [Hooks.runField] at h
  cases hv : hooks.fields.find? field with
  | none =>
      rw [hv] at h
      cases h
  | some v =>
      rw [hv] at h
      refine ⟨v, rfl, ?_⟩
      simp only [FieldValidator.run] at h
      split at h <;> cases h
      rfl

/-- An attachment that follows another one has nothing to do. -/
lemma idle_attach (h : r.run.engine.cache.NamesFields) (target : FormClass)
    (available : List String) :
    let once := r.step target (.attach available)
    AttachPass.Idle ⟨once.hooks, once.run.engine.cache, .empty,
      (once.run.engine.source.look once.run.now).2.events⟩ (once.attach target available) := by
  intro once
  have hfirst : AttachPass.Done (target.having available)
      ((r.run.engine.source.look r.run.now).2.document.formRules target.form) once.hooks :=
    AttachPass.done_run ⟨r.hooks, r.run.engine.cache, .empty, _⟩ h (target.having available) _ _
  have hserved : (once.run.engine.source.look once.run.now).2.document =
      (r.run.engine.source.look r.run.now).2.document :=
    RuleSource.document_look_look r.run.engine.source r.run.now
  rw [← hserved] at hfirst
  exact AttachPass.Done.idle ⟨once.hooks, once.run.engine.cache, .empty, _⟩ hfirst _

/-- **A slot is filled once, and never where the form validates itself.** Whatever happens to the
engine and its source while a form lives, and whichever fields the form has whenever rules are
attached to it:
* a slot that is filled stays as it is;
* the slots for what the form validates itself are empty;
* what is in the slot for a field validates that field.  It was put there by an attachment at which
  the form had the field, so that whatever the field fails with names the field;
* an attachment that repeats another one at once installs nothing, and changes neither the slots
  nor the cache. -/
theorem slots_after (target : FormClass) (source : RuleSource) (now : SourceState)
    (steps : List SlotStep) :
    let r := (start source now).after target steps
    (∀ later,
      (∀ v, r.hooks.form = some v → (r.after target later).hooks.form = some v) ∧
      ∀ field v, r.hooks.fields.find? field = some v →
        (r.after target later).hooks.fields.find? field = some v) ∧
    (target.explicit.form = true → r.hooks.form = none) ∧
    (∀ field, target.explicit.hasField field = true → r.hooks.fields.find? field = none) ∧
    (∀ field v, r.hooks.fields.find? field = some v →
      v.field = field ∧
      ∃ before available later, steps = before ++ .attach available :: later ∧
        (start source now).FilledAt target field v before available) ∧
    (∀ field host clock failure, (r.hooks.runField field host clock).1 = .error failure →
      failure.field = field) ∧
    ∀ available,
      let once := r.step target (.attach available)
      let twice := once.step target (.attach available)
      (once.attach target available).report.installed = [] ∧
      twice.hooks = once.hooks ∧ twice.run.engine.cache = once.run.engine.cache := by
  intro r
  have hstart : (start source now).run.engine.cache.NamesFields :=
    CompiledCache.namesFields_empty
  have hcache : r.run.engine.cache.NamesFields := namesFields_after hstart target steps
  have hfilled : ∀ field v, r.hooks.fields.find? field = some v → v.field = field ∧
      target.explicit.hasField field = false ∧
        ∃ before available later, steps = before ++ .attach available :: later ∧
          (start source now).FilledAt target field v before available :=
    fun field v hv => exists_filledAt hstart rfl hv
  refine ⟨stays_after hcache target, fun hown => ?_, fun field hown => ?_, fun field v hv => ?_,
    fun field host clock failure hfails => ?_, fun available => ?_⟩
  · by_contra hform
    obtain ⟨v, hv⟩ := Option.ne_none_iff_exists'.1 hform
    rw [explicit_of_form hstart rfl hv] at hown
    cases hown
  · by_contra hfield
    obtain ⟨v, hv⟩ := Option.ne_none_iff_exists'.1 hfield
    rw [(hfilled field v hv).2.1] at hown
    cases hown
  · exact ⟨(hfilled field v hv).1, (hfilled field v hv).2.2⟩
  · obtain ⟨v, hv, hfailure⟩ := field_of_runField hfails
    exact hfailure.trans (hfilled field v hv).1
  · have hidle := idle_attach hcache target available
    exact ⟨hidle.installed, hidle.hooks, hidle.cache⟩

/-- A document with a rule for a form and one for its field `a`. -/
def twoGroups (message : String) : Document :=
  let rules : List Rule := [⟨none, none, some message, none⟩]
  ⟨KeyMap.ofList [("F", ⟨KeyMap.ofList [("clean", rules), ("clean_a", rules)], none⟩)]⟩

/-- A form that validates itself as a whole. -/
def ownForm : FormClass := ⟨"F", ExplicitHooks.none.withForm, []⟩

/-- Rules are attached before the form has the field and again when it has it; then the document is
replaced, and the new rules are attached too. -/
def lateField : List SlotStep :=
  [.attach [], .attach ["a"], .engine (.replace (twoGroups "new")), .attach ["a"]]

/-- The field keeps the validator of the rules that were there when the form first had it. -/
theorem slots_after_lateField :
    let r := (start (.memory (.of (twoGroups "old"))) .absent).after ownForm lateField
    r.hooks.form = none ∧
      r.hooks.fields.find? "a" =
        some (FieldValidator.compile "F" "a" [⟨none, none, some "old", none⟩]).1 ∧
      ∃ before available later, lateField = before ++ .attach available :: later ∧
        (start (.memory (.of (twoGroups "old"))) .absent).FilledAt ownForm "a"
          (FieldValidator.compile "F" "a" [⟨none, none, some "old", none⟩]).1 before available := by
  have hslots := slots_after ownForm (.memory (.of (twoGroups "old"))) .absent lateField
  have hfilled : ((start (.memory (.of (twoGroups "old"))) .absent).after ownForm
      lateField).hooks.fields.find? "a" =
      some (FieldValidator.compile "F" "a" [⟨none, none, some "old", none⟩]).1 := by
    rfl
  exact ⟨hslots.2.1 rfl, hfilled, (hslots.2.2.2.1 "a" _ hfilled).2⟩

end SlotRun
end FormValidation
