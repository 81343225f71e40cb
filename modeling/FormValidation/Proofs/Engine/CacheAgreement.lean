import FormValidation.Engine.Basic
import FormValidation.Proofs.Source.GenerationCount

/-!
# Validators from the cache

An engine compiles the rules for a form or a field once in each generation and hands out what it
has kept afterwards.  This file says that what it hands out is what compiling would give: whatever
has happened to the source, to the cache and to other forms before, the slots that are filled hold
the validators compiled from the document that is served at that moment.

`Document.formValidator?` and `Document.fieldValidator?` compile straight from a document.
`CompiledCache.Agrees` says that a cache holds nothing else for a generation and its document, and
that it is not ahead of that generation; a source that goes on can only leave it behind
(`Agrees.follow`).  `AttachPass.Fills` says the same of the slots of a form, and `fills_run` carries
both through the groups of a form.  `EngineRun.Sound` is the invariant of whole runs, and
`attach_after_fills` the result.
-/

namespace FormValidation

/-! ## Compiling straight from a document -/

/-- The groups for fields are those that are found under the keys of the fields. -/
lemma FormRules.rules?_of_mem_fieldGroups {f : FormRules} {field : String} {rules : List Rule}
    (h : (field, rules) ∈ f.fieldGroups) : f.rules? (.field field) = some rules := by
  exact KeyMap.find?_of_mem (mem_fieldGroups_iff.1 h).2

namespace Document

/-- The validator of a form as a whole that is compiled from the rules in a document. -/
def formValidator? (d : Document) (form : String) : Option FormValidator :=
  (d.formRules form).formRules?.map fun rules => (FormValidator.compile form rules).1

/-- The validator of a field that is compiled from the rules in a document. -/
def fieldValidator? (d : Document) (form field : String) : Option FieldValidator :=
  ((d.formRules form).rules? (.field field)).map fun rules =>
    (FieldValidator.compile form field rules).1

end Document

/-! ## What a cache holds -/

/-- A cache is not ahead of a generation, and if it is of that generation then it holds what is
compiled from the document of the generation. -/
structure CompiledCache.Agrees (c : CompiledCache) (g : Generation) (d : Document) : Prop where
  generation_le : c.generation ≤ g
  form : c.generation = g → ∀ form v, c.form? form = some v → d.formValidator? form = some v
  field : c.generation = g → ∀ form field v, c.field? form field = some v →
    d.fieldValidator? form field = some v

namespace CompiledCache

variable {c c' : CompiledCache} {g : Generation} {d : Document}

/-- A cache that holds nothing agrees with any document that is not of an earlier generation. -/
lemma agrees_of_holds_nothing (hle : c.generation ≤ g) (hform : ∀ form, c.form? form = none)
    (hfield : ∀ form field, c.field? form field = none) : c.Agrees g d where
  generation_le := hle
  form _ form v hv := by
    rw [hform] at hv
    cases hv
  field _ form field v hv := by
    rw [hfield] at hv
    cases hv

lemma agrees_empty (g : Generation) (d : Document) : empty.Agrees g d :=
  agrees_of_holds_nothing (Nat.zero_le g) (fun _ => rfl) (fun _ _ => rfl)

lemma Agrees.clear (h : c.Agrees g d) : c.clear.Agrees g d :=
  agrees_of_holds_nothing h.generation_le (fun _ => rfl) (fun _ _ => rfl)

/-- A source that has gone on to a later generation has left the cache behind. -/
lemma Agrees.follow {source next : RuleSource} (h : c.Agrees source.generation source.document)
    (hnext : source.Follows next) : c.Agrees next.generation next.document := by
  rcases hnext with ⟨hg, hd⟩ | hlt
  · rw [hg, hd]
    exact h
  · have hbehind : c.generation < next.generation := Nat.lt_of_le_of_lt h.generation_le hlt
    exact ⟨Nat.le_of_lt hbehind, fun heq => absurd heq (Nat.ne_of_lt hbehind),
      fun heq => absurd heq (Nat.ne_of_lt hbehind)⟩

lemma Agrees.advance (h : c.Agrees g d) (hadvance : c.advance? g = some c') : c'.Agrees g d := by
  rw [advance?] at hadvance
  split at hadvance
  · cases hadvance
  · split at hadvance
    · cases hadvance
      exact agrees_of_holds_nothing (Nat.le_refl g) (fun _ => rfl) (fun _ _ => rfl)
    · cases hadvance
      exact h

lemma Agrees.keepForm {form : String} {v : FormValidator} (h : c.Agrees g d)
    (hv : d.formValidator? form = some v) : (c.keepForm form v).Agrees g d where
  generation_le := h.generation_le
  form hg other w hw := by
    rw [form?_keepForm] at hw
    split at hw
    · rename_i heq
      rw [← heq, hv, hw]
    · exact h.form hg other w hw
  field := h.field

lemma Agrees.keepField {form field : String} {v : FieldValidator} (h : c.Agrees g d)
    (hv : d.fieldValidator? form field = some v) : (c.keepField form field v).Agrees g d where
  generation_le := h.generation_le
  form := h.form
  field hg form' field' w hw := by
    rw [field?_keepField] at hw
    split at hw
    · rename_i heq
      rw [← heq.1, ← heq.2, hv, hw]
    · exact h.field hg form' field' w hw

/-- **An answer is what compiling gives**, whether it was kept or compiled for the purpose, as long
as what is kept of the generation is what compiling gives. -/
lemma Agrees.answer {α : Type} (h : c.Agrees g d) (kept : Option α)
    (keep : CompiledCache → α → CompiledCache) (compile : Unit → α × List Diagnostic)
    (hkept : c.generation = g → ∀ v, kept = some v → v = (compile ()).1)
    (hkeep : ∀ c', c'.Agrees g d → (keep c' (compile ()).1).Agrees g d) :
    (c.answer g kept keep compile).validator = (compile ()).1 ∧
      (c.answer g kept keep compile).cache.Agrees g d := by
  unfold CompiledCache.answer
  split
  · rename_i v hg
    exact ⟨hkept (of_decide_eq_true hg) v rfl, h⟩
  · cases hadvance : c.advance? g with
    | none => exact ⟨rfl, h⟩
    | some c' => exact ⟨rfl, hkeep c' (h.advance hadvance)⟩

lemma Agrees.formValidator {form : String} {rules : List Rule} (h : c.Agrees g d)
    (hrules : (d.formRules form).formRules? = some rules) :
    let answer := c.formValidator g form fun _ => FormValidator.compile form rules
    d.formValidator? form = some answer.validator ∧ answer.cache.Agrees g d := by
  have hcompile : d.formValidator? form = some (FormValidator.compile form rules).1 := by
    rw [Document.formValidator?, hrules]
    rfl
  have hanswer := h.answer (c.form? form) (fun c v => c.keepForm form v)
    (fun _ => FormValidator.compile form rules)
    (fun hg v hv => Option.some.inj ((h.form hg form v hv).symm.trans hcompile))
    (fun c' hc' => hc'.keepForm hcompile)
  exact ⟨hcompile.trans (congrArg some hanswer.1.symm), hanswer.2⟩

lemma Agrees.fieldValidator {form field : String} {rules : List Rule} (h : c.Agrees g d)
    (hrules : (d.formRules form).rules? (.field field) = some rules) :
    let answer := c.fieldValidator g form field fun _ => FieldValidator.compile form field rules
    d.fieldValidator? form field = some answer.validator ∧ answer.cache.Agrees g d := by
  have hcompile : d.fieldValidator? form field =
      some (FieldValidator.compile form field rules).1 := by
    rw [Document.fieldValidator?, hrules]
    rfl
  have hanswer := h.answer (c.field? form field) (fun c v => c.keepField form field v)
    (fun _ => FieldValidator.compile form field rules)
    (fun hg v hv => Option.some.inj ((h.field hg form field v hv).symm.trans hcompile))
    (fun c' hc' => hc'.keepField hcompile)
  exact ⟨hcompile.trans (congrArg some hanswer.1.symm), hanswer.2⟩

end CompiledCache

/-! ## What an attachment fills -/

namespace AttachPass

/-- The slots that are reported as installed were empty, and they hold the validators compiled from
the document; every other slot is as it was before. -/
structure Fills (d : Document) (target : FormClass) (before : Hooks) (pass : AttachPass) :
    Prop where
  form : pass.hooks.form =
    if .form ∈ pass.report.installed then d.formValidator? target.form else before.form
  field : ∀ field, pass.hooks.fields.find? field =
    if .field field ∈ pass.report.installed then d.fieldValidator? target.form field
    else before.fields.find? field
  form_new : .form ∈ pass.report.installed →
    before.form = none ∧ (d.formValidator? target.form).isSome
  field_new : ∀ field, .field field ∈ pass.report.installed →
    before.fields.find? field = none ∧ (d.fieldValidator? target.form field).isSome

variable {d : Document} {target : FormClass} {before : Hooks} {g : Generation} {pass : AttachPass}

lemma fills_start (d : Document) (target : FormClass) (hooks : Hooks) (cache : CompiledCache)
    (events : List Diagnostic) : Fills d target hooks ⟨hooks, cache, .empty, events⟩ where
  form := by simp [AttachReport.empty]
  field field := by simp [AttachReport.empty]
  form_new h := nomatch h
  field_new field h := nomatch h

/-- A group that is not installed changes nothing. -/
lemma Fills.skip (h : Fills d target before pass) (key : GroupKey) (why : Hindrance) :
    Fills d target before { pass with report := pass.report.skip key why } :=
  ⟨h.form, h.field, h.form_new, h.field_new⟩

/-- A slot that is empty now was empty before, and nothing was installed in it. -/
lemma Fills.form_eq_none (h : Fills d target before pass) (hempty : pass.hooks.form = none) :
    .form ∉ pass.report.installed ∧ before.form = none := by
  by_cases hmem : .form ∈ pass.report.installed
  · have hsome := (h.form_new hmem).2
    have hform := h.form
    rw [hempty, if_pos hmem] at hform
    rw [← hform] at hsome
    cases hsome
  · have hform := h.form
    rw [hempty, if_neg hmem] at hform
    exact ⟨hmem, hform.symm⟩

lemma Fills.field_eq_none {field : String} (h : Fills d target before pass)
    (hempty : pass.hooks.fields.find? field = none) :
    .field field ∉ pass.report.installed ∧ before.fields.find? field = none := by
  by_cases hmem : .field field ∈ pass.report.installed
  · have hsome := (h.field_new field hmem).2
    have hfield := h.field field
    rw [hempty, if_pos hmem] at hfield
    rw [← hfield] at hsome
    cases hsome
  · have hfield := h.field field
    rw [hempty, if_neg hmem] at hfield
    exact ⟨hmem, hfield.symm⟩

lemma Fills.installForm {v : FormValidator} (h : Fills d target before pass)
    (hempty : pass.hooks.form = none) (hv : d.formValidator? target.form = some v)
    (cache : CompiledCache) (events : List Diagnostic) :
    Fills d target before
      ⟨pass.hooks.installForm v, cache, pass.report.install .form, events⟩ where
  form := by
    have hfull : pass.hooks.hasForm = false := by rw [Hooks.hasForm, hempty]; rfl
    simp [Hooks.installForm, AttachReport.install, hfull, hv]
  field field := by
    have hfields : (pass.hooks.installForm v).fields = pass.hooks.fields := by
      rw [Hooks.installForm]
      split <;> rfl
    simp [AttachReport.install, hfields, h.field field]
  form_new _ := ⟨(h.form_eq_none hempty).2, by rw [hv]; rfl⟩
  field_new field hmem := h.field_new field (by simpa [AttachReport.install] using hmem)

lemma Fills.installField {v : FieldValidator} {field : String} (h : Fills d target before pass)
    (hfield : v.field = field) (hempty : pass.hooks.fields.find? field = none)
    (hv : d.fieldValidator? target.form field = some v) (cache : CompiledCache)
    (events : List Diagnostic) :
    Fills d target before
      ⟨pass.hooks.installField v, cache, pass.report.install (.field field), events⟩ where
  form := by
    have hform : (pass.hooks.installField v).form = pass.hooks.form := by
      rw [Hooks.installField]
      split <;> rfl
    simp [AttachReport.install, hform, h.form]
  field other := by
    have hfull : pass.hooks.hasField field = false := by
      rw [Hooks.hasField, KeyMap.contains, hempty]
      rfl
    simp only [Hooks.installField, hfield, hfull, Bool.false_eq_true, if_false,
      KeyMap.find?_insert]
    by_cases heq : field = other
    · subst heq
      simp [AttachReport.install, hv]
    · simp [AttachReport.install, heq, Ne.symm heq, h.field other]
  form_new hmem := h.form_new (by simpa [AttachReport.install] using hmem)
  field_new other hmem := by
    by_cases heq : field = other
    · subst heq
      exact ⟨(h.field_eq_none hempty).2, by rw [hv]; rfl⟩
    · exact h.field_new other (by simpa [AttachReport.install, Ne.symm heq] using hmem)

lemma form_of_formHindrance? {hooks : Hooks} (h : formHindrance? target hooks = none) :
    hooks.form = none := by
  rw [formHindrance?] at h
  split at h
  · cases h
  · split at h
    · cases h
    · rename_i hempty
      exact Option.not_isSome_iff_eq_none.1 hempty

lemma find?_of_fieldHindrance? {hooks : Hooks} {field : String}
    (h : fieldHindrance? target hooks field = none) : hooks.fields.find? field = none := by
  rw [fieldHindrance?] at h
  split at h
  · cases h
  · split at h
    · cases h
    · split at h
      · cases h
      · rename_i hempty
        exact Option.not_isSome_iff_eq_none.1 hempty

lemma fills_attachForm {rules : List Rule} (h : Fills d target before pass)
    (hcache : pass.cache.Agrees g d) (hrules : (d.formRules target.form).formRules? = some rules) :
    Fills d target before (pass.attachForm target g rules) ∧
      (pass.attachForm target g rules).cache.Agrees g d := by
  unfold attachForm
  split
  · exact ⟨h.skip _ _, hcache⟩
  · rename_i hhindrance
    obtain ⟨hv, hagrees⟩ := hcache.formValidator hrules
    exact ⟨h.installForm (form_of_formHindrance? hhindrance) hv _ _, hagrees⟩

lemma fills_attachField {group : String × List Rule} (h : Fills d target before pass)
    (hcache : pass.cache.Agrees g d) (hgroup : group ∈ (d.formRules target.form).fieldGroups) :
    Fills d target before (attachField target g pass group) ∧
      (attachField target g pass group).cache.Agrees g d := by
  unfold attachField
  split
  · exact ⟨h.skip _ _, hcache⟩
  · rename_i hhindrance
    obtain ⟨hv, hagrees⟩ := hcache.fieldValidator (FormRules.rules?_of_mem_fieldGroups hgroup)
    -- The slot that is filled is that of the validator, whose field is the one of the group.
    have hfield : (pass.cache.fieldValidator g target.form group.1 fun _ =>
        FieldValidator.compile target.form group.1 group.2).validator.field = group.1 := by
      obtain ⟨rules, -, hcompiled⟩ := Option.map_eq_some_iff.1 hv
      rw [← hcompiled]
      rfl
    exact ⟨h.installField hfield (find?_of_fieldHindrance? hhindrance) hv _ _, hagrees⟩

lemma fills_foldl_attachField {groups : List (String × List Rule)}
    (hgroups : ∀ group ∈ groups, group ∈ (d.formRules target.form).fieldGroups)
    (h : Fills d target before pass) (hcache : pass.cache.Agrees g d) :
    Fills d target before (groups.foldl (attachField target g) pass) ∧
      (groups.foldl (attachField target g) pass).cache.Agrees g d := by
  induction groups generalizing pass with
  | nil => exact ⟨h, hcache⟩
  | cons group groups ih =>
      obtain ⟨hfills, hagrees⟩ := fills_attachField h hcache (hgroups group (by simp))
      exact ih (fun other hother => hgroups other (List.mem_cons_of_mem _ hother)) hfills hagrees

/-- Looking at all rules of a form fills its slots from the document, and leaves a cache that still
agrees with the document. -/
lemma fills_run (h : Fills d target before pass) (hcache : pass.cache.Agrees g d) :
    Fills d target before (run target (d.formRules target.form) g pass) ∧
      (run target (d.formRules target.form) g pass).cache.Agrees g d := by
  unfold run
  cases hrules : (d.formRules target.form).formRules? with
  | none => exact fills_foldl_attachField (fun group hgroup => hgroup) h hcache
  | some rules =>
      obtain ⟨hfills, hagrees⟩ := fills_attachForm h hcache hrules
      exact fills_foldl_attachField (fun group hgroup => hgroup) hfills hagrees

end AttachPass

/-! ## Runs of an engine -/

/-- What may happen to an engine or around it. -/
inductive EngineStep where
  /-- The document in memory is replaced. -/
  | replace (d : Document)
  /-- There is something else at the path of the source. -/
  | change (now : SourceState)
  /-- Somebody loads the document of the source. -/
  | load (isReload : Bool)
  /-- The compiled validators are dropped. -/
  | clear
  /-- The slots of a form are filled. -/
  | attach (target : FormClass) (hooks : Hooks)

namespace EngineStep

/-- Whether the step changes what there is to serve. -/
def isChange : EngineStep → Bool
  | .replace _ | .change _ => true
  | .load _ | .clear | .attach _ _ => false

/-- How many steps change what there is to serve. -/
def changes (steps : List EngineStep) : Nat := steps.countP isChange

end EngineStep

/-- An engine with what there is at the path of its source. -/
structure EngineRun where
  engine : Engine
  now : SourceState

namespace EngineRun

/-- A new engine. -/
def start (source : RuleSource) (now : SourceState) : EngineRun := ⟨.of source, now⟩

/-- The run with its source in another state. -/
def withSource (r : EngineRun) (source : RuleSource) : EngineRun :=
  { r with engine := { r.engine with source } }

/-- One step. -/
def step (r : EngineRun) : EngineStep → EngineRun
  | .replace d => r.withSource (r.engine.source.replace d)
  | .change now => { r with now }
  | .load isReload => r.withSource (r.engine.source.load ⟨isReload, r.now⟩)
  | .clear => { r with engine := { r.engine with cache := r.engine.cache.clear } }
  | .attach target hooks => { r with engine := (r.engine.attach r.now target hooks).1 }

/-- Any number of steps. -/
def after (r : EngineRun) (steps : List EngineStep) : EngineRun := steps.foldl step r

/-- The document that an attachment would be served now. -/
def served (r : EngineRun) : Document := (r.engine.source.look r.now).2.document

/-- What an attachment would come to now. -/
def attach (r : EngineRun) (target : FormClass) (hooks : Hooks) : AttachPass :=
  (r.engine.attach r.now target hooks).2

/-- The cache agrees with the source, and the source has counted no further than the changes
allow. -/
structure Sound (r : EngineRun) (changes : Nat) : Prop where
  counted : r.engine.source.Counted r.now changes
  agrees : r.engine.cache.Agrees r.engine.source.generation r.engine.source.document

variable {r : EngineRun} {changes : Nat}

lemma sound_start {source : RuleSource} (h : source.IsNew) (now : SourceState) :
    (start source now).Sound 0 :=
  ⟨RuleSource.counted_of_isNew h now, CompiledCache.agrees_empty _ _⟩

/-- Where a run is sound, an attachment fills the slots from the document that it is served, and the
run stays sound. -/
lemma Sound.attach (h : r.Sound changes) (hroom : changes < Generation.last) (target : FormClass)
    (hooks : Hooks) :
    (r.attach target hooks).Fills r.served target hooks ∧
      (r.step (.attach target hooks)).Sound changes := by
  obtain ⟨hload, hdocument, hgeneration⟩ := RuleSource.look_eq r.engine.source r.now
  obtain ⟨hcounted, hfollows⟩ := RuleSource.counted_load h.counted hroom false
  rw [← hload] at hcounted hfollows
  have hagrees := h.agrees.follow hfollows
  rw [← hdocument, ← hgeneration] at hagrees
  obtain ⟨hfills, hcache⟩ := AttachPass.fills_run
    (AttachPass.fills_start r.served target hooks r.engine.cache _) hagrees
  refine ⟨hfills, hcounted, ?_⟩
  show CompiledCache.Agrees _ (r.engine.source.look r.now).1.generation
    (r.engine.source.look r.now).1.document
  rw [← hdocument, ← hgeneration]
  exact hcache

lemma Sound.step (h : r.Sound changes) (s : EngineStep)
    (hroom : changes + (if s.isChange then 1 else 0) < Generation.last) :
    (r.step s).Sound (changes + if s.isChange then 1 else 0) := by
  cases s with
  | replace d =>
      exact ⟨RuleSource.counted_replace h.counted d,
        h.agrees.follow (RuleSource.follows_replace h.counted hroom d)⟩
  | change now => exact ⟨h.counted.change now, h.agrees⟩
  | load isReload =>
      obtain ⟨hcounted, hfollows⟩ := RuleSource.counted_load h.counted hroom isReload
      exact ⟨hcounted, h.agrees.follow hfollows⟩
  | clear => exact ⟨h.counted, h.agrees.clear⟩
  | attach target hooks => exact (h.attach hroom target hooks).2

lemma Sound.after (h : r.Sound changes) (steps : List EngineStep)
    (hroom : changes + EngineStep.changes steps < Generation.last) :
    (r.after steps).Sound (changes + EngineStep.changes steps) := by
  induction steps generalizing r changes with
  | nil => exact h
  | cons s steps ih =>
      have hcount : EngineStep.changes (s :: steps) =
          EngineStep.changes steps + if s.isChange then 1 else 0 := List.countP_cons
      rw [hcount] at hroom ⊢
      have hstep := h.step s (by omega)
      have hafter := ih hstep (by omega)
      rw [Nat.add_comm (EngineStep.changes steps), ← Nat.add_assoc]
      exact hafter

/-- **The cache never shows.**  Whatever has happened before, an attachment fills the slots that it
reports as installed with the validators compiled from the rules of the document that it is served,
for this form and for these fields, and it leaves every other slot as it was.  The one condition is
that the changes so far are fewer than a generation can count. -/
theorem attach_after_fills {source : RuleSource} (hnew : source.IsNew) (now : SourceState)
    (steps : List EngineStep) (hcount : EngineStep.changes steps < Generation.last)
    (target : FormClass) (hooks : Hooks) :
    (((start source now).after steps).attach target hooks).Fills
      ((start source now).after steps).served target hooks := by
  have hsound := (sound_start hnew now).after steps (by rwa [Nat.zero_add])
  rw [Nat.zero_add] at hsound
  exact (hsound.attach hcount target hooks).1

/-- A document with one rule for one form. -/
def messageDocument (message : String) : Document :=
  ⟨KeyMap.ofList
    [("F", ⟨KeyMap.ofList [("clean", [⟨none, some "age is None", some message, none⟩])], none⟩)]⟩

/-- A document in memory is replaced after its rules have been compiled and kept: the next
attachment installs what the new document says. -/
theorem attach_after_fills_replaced :
    (((start (.memory (.of (messageDocument "old"))) .absent).after
        [.attach ⟨"F", .none, []⟩ .empty, .replace (messageDocument "new")]).attach
      ⟨"F", .none, []⟩ .empty).hooks.form =
      some (FormValidator.compile "F" [⟨none, some "age is None", some "new", none⟩]).1 := by
  have hfills := attach_after_fills (.document (messageDocument "old")) .absent
    [.attach ⟨"F", .none, []⟩ .empty, .replace (messageDocument "new")] (by decide)
    ⟨"F", .none, []⟩ .empty
  have hinstalled : .form ∈ (((start (.memory (.of (messageDocument "old"))) .absent).after
      [.attach ⟨"F", .none, []⟩ .empty, .replace (messageDocument "new")]).attach
    ⟨"F", .none, []⟩ .empty).report.installed := by
    decide +kernel
  rw [hfills.form, if_pos hinstalled]
  rfl

end EngineRun

end FormValidation
