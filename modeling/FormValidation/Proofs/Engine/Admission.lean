import Mathlib.Data.List.Basic
import FormValidation.Proofs.Engine.HookSlots

/-!
# Which groups may be installed

The groups of a form that an attachment looks at, and what it looks for.  The words of a report are
written down here without the attachment: the groups that rules configure
(`FormRules.Configures`), the order of a list (`GroupKey.Precedes`), which slots may be filled
(`FormClass.Admits`), and why a group is left out otherwise (`FormClass.LeavesOut`).

No group is looked at twice, since a field has one key (`FormRules.nodup_lookedAt`).  A group is
installed where its slot may be filled and left out for the first reason otherwise
(`AttachPass.hindrance?_eq_none_iff`, `hindrance?_of_leavesOut`), which depends on its own slot alone
(`hindrance?_congr`), and a reason does not go away (`hindrance?_of_keeps`).
-/

namespace FormValidation

/-! ## The groups of a form -/

namespace GroupKey

/-- The order of a list of groups: the whole form comes first, and fields follow in the order of
their raw keys. -/
def Precedes : GroupKey → GroupKey → Prop
  | .form, .field _ => True
  | .field a, .field b => (GroupKey.field a).text < (GroupKey.field b).text
  | _, _ => False

lemma Precedes.ne {a b : GroupKey} (h : a.Precedes b) : a ≠ b := by
  rintro rfl
  cases a with
  | form | other raw => exact h
  | field name => exact String.lt_irrefl _ h

end GroupKey

namespace FormRules

variable {f : FormRules} {key : GroupKey}

/-- The rules have a group for the whole form, or for a field. -/
def Configures (f : FormRules) : GroupKey → Prop
  | .form => f.groups.contains "clean"
  | .field name => name ≠ "" ∧ f.groups.contains ("clean_" ++ name)
  | .other _ => False

/-- The groups that an attachment looks at, in its order. -/
def lookedAt (f : FormRules) : List GroupKey :=
  (f.formRules?.map fun _ => GroupKey.form).toList ++ f.fieldGroups.map fun group => .field group.1

/-- **What is looked at is what is configured.** -/
lemma mem_lookedAt_iff : key ∈ f.lookedAt ↔ f.Configures key := by
  cases key with
  | form =>
      simp [lookedAt, Configures, formRules?, GroupKey.formText, KeyMap.contains,
        Option.isSome_iff_exists]
  | field name =>
      simp [lookedAt, Configures, mem_fieldGroups_iff, GroupKey.fieldStem, KeyMap.contains,
        KeyMap.mem_entries_iff, Option.isSome_iff_exists]
  | other raw => simp [lookedAt, Configures]

/-- The groups for fields are listed in the order of their raw keys. -/
lemma pairwise_fieldGroups (f : FormRules) :
    f.fieldGroups.Pairwise fun a b => (GroupKey.field a.1).Precedes (.field b.1) := by
  rw [fieldGroups, keyedGroups, List.filterMap_map]
  refine List.Pairwise.filterMap _ (fun a b hlt first hfirst second hsecond => ?_) f.groups.sorted
  obtain ⟨field, hfield, rfl⟩ := Option.map_eq_some_iff.1 hfirst
  obtain ⟨other, hother, rfl⟩ := Option.map_eq_some_iff.1 hsecond
  have ha := (GroupKey.parse_eq_field_iff.1 (GroupKey.field?_eq_some_iff.1 hfield)).2
  have hb := (GroupKey.parse_eq_field_iff.1 (GroupKey.field?_eq_some_iff.1 hother)).2
  rw [ha, hb] at hlt
  exact hlt

/-- **Groups are looked at in order.** -/
lemma pairwise_lookedAt (f : FormRules) : f.lookedAt.Pairwise GroupKey.Precedes := by
  have hfields : (f.fieldGroups.map fun group => GroupKey.field group.1).Pairwise
      GroupKey.Precedes := List.pairwise_map.2 f.pairwise_fieldGroups
  rw [lookedAt]
  cases f.formRules? with
  | none => exact hfields
  | some rules =>
      refine List.pairwise_cons.2 ⟨fun key hkey => ?_, hfields⟩
      obtain ⟨group, -, rfl⟩ := List.mem_map.1 hkey
      trivial

lemma nodup_lookedAt (f : FormRules) : f.lookedAt.Nodup :=
  f.pairwise_lookedAt.imp GroupKey.Precedes.ne

end FormRules

/-! ## What may be filled -/

/-- What is in the slot for a group. -/
def Hooks.slot? (hooks : Hooks) : GroupKey → Option (FormValidator ⊕ FieldValidator)
  | .form => hooks.form.map .inl
  | .field name => (hooks.fields.find? name).map .inr
  | .other _ => none

namespace FormClass

/-- The form has the part that a group is for and does not validate it itself, and its slot is
empty. -/
def Admits (target : FormClass) (hooks : Hooks) : GroupKey → Prop
  | .form => target.explicit.form = false ∧ hooks.form = none
  | .field name =>
    name ∈ target.available ∧ name ∉ target.explicit.fields ∧ hooks.fields.find? name = none
  | .other _ => False

/-- The first reason there is for leaving out a group. -/
inductive LeavesOut (target : FormClass) (hooks : Hooks) : GroupKey → Hindrance → Prop
  | ownForm : target.explicit.form = true → LeavesOut target hooks .form .explicitOverride
  | filledForm : target.explicit.form = false → hooks.form ≠ none →
      LeavesOut target hooks .form .alreadyInstalled
  | unknownField {name : String} : name ∉ target.available →
      LeavesOut target hooks (.field name) .unknownField
  | ownField {name : String} : name ∈ target.available → name ∈ target.explicit.fields →
      LeavesOut target hooks (.field name) .explicitOverride
  | filledField {name : String} : name ∈ target.available → name ∉ target.explicit.fields →
      hooks.fields.find? name ≠ none → LeavesOut target hooks (.field name) .alreadyInstalled

/-- Where a group may not be installed there is a reason. -/
lemma admits_or_leavesOut {rules : FormRules} {key : GroupKey} (h : rules.Configures key)
    (target : FormClass) (hooks : Hooks) :
    target.Admits hooks key ∨ ∃ why, target.LeavesOut hooks key why := by
  cases key with
  | form =>
      cases hown : target.explicit.form with
      | true => exact .inr ⟨_, .ownForm hown⟩
      | false =>
          by_cases hempty : hooks.form = none
          · exact .inl ⟨hown, hempty⟩
          · exact .inr ⟨_, .filledForm hown hempty⟩
  | field name =>
      by_cases hhas : name ∈ target.available
      · by_cases hown : name ∈ target.explicit.fields
        · exact .inr ⟨_, .ownField hhas hown⟩
        · by_cases hempty : hooks.fields.find? name = none
          · exact .inl ⟨hhas, hown, hempty⟩
          · exact .inr ⟨_, .filledField hhas hown hempty⟩
      · exact .inr ⟨_, .unknownField hhas⟩
  | other raw => exact h.elim

end FormClass

namespace Hooks

variable {hooks : Hooks} {key : GroupKey}

lemma slot?_eq_none_of_admits {target : FormClass} (h : target.Admits hooks key) :
    hooks.slot? key = none := by
  cases key with
  | form => rw [slot?, h.2, Option.map_none]
  | field name => rw [slot?, h.2.2, Option.map_none]
  | other raw => rfl

/-- Filling the slot for the whole form changes no other slot. -/
lemma slot?_installForm_of_ne (hooks : Hooks) (hne : key ≠ .form) (v : FormValidator) :
    (hooks.installForm v).slot? key = hooks.slot? key := by
  rw [installForm]
  split
  · rfl
  · cases key with
    | form => exact absurd rfl hne
    | field name | other raw => rfl

/-- Filling the slot for a field changes no other slot. -/
lemma slot?_installField_of_ne (hooks : Hooks) {v : FieldValidator}
    (hne : key ≠ .field v.field) : (hooks.installField v).slot? key = hooks.slot? key := by
  rw [installField]
  split
  · rfl
  · cases key with
    | form | other raw => rfl
    | field name =>
        have hname : v.field ≠ name := fun heq => hne (heq ▸ rfl)
        simp only [slot?, KeyMap.find?_insert, if_neg hname]

lemma isSome_slot?_form : (hooks.slot? .form).isSome = hooks.hasForm := Option.isSome_map

lemma isSome_slot?_field {name : String} :
    (hooks.slot? (.field name)).isSome = hooks.hasField name := Option.isSome_map

/-- What is in a slot stays there when another validator is installed. -/
lemma slot?_installForm_of_eq_some {w : FormValidator ⊕ FieldValidator}
    (h : hooks.slot? key = some w) (v : FormValidator) :
    (hooks.installForm v).slot? key = some w := by
  by_cases hkey : key = .form
  · subst hkey
    have hfull : hooks.hasForm = true := by rw [← isSome_slot?_form, h]; rfl
    rw [installForm, if_pos hfull, h]
  · rw [slot?_installForm_of_ne hooks hkey, h]

lemma slot?_installField_of_eq_some {w : FormValidator ⊕ FieldValidator}
    (h : hooks.slot? key = some w) (v : FieldValidator) :
    (hooks.installField v).slot? key = some w := by
  by_cases hkey : key = .field v.field
  · subst hkey
    have hfull : hooks.hasField v.field = true := by rw [← isSome_slot?_field, h]; rfl
    rw [installField, if_pos hfull, h]
  · rw [slot?_installField_of_ne hooks hkey, h]

end Hooks

namespace AttachPass

variable {target : FormClass} {hooks : Hooks} {key : GroupKey} {why : Hindrance}

/-- What keeps a group from being installed. -/
def hindrance? (target : FormClass) (hooks : Hooks) : GroupKey → Option Hindrance
  | .form => formHindrance? target hooks
  | .field name => fieldHindrance? target hooks name
  | .other _ => none

lemma hindrance?_of_admits (h : target.Admits hooks key) : hindrance? target hooks key = none := by
  cases key with
  | form => exact formHindrance?_eq_none_iff.2 ⟨h.1, by rw [Hooks.hasForm, h.2]; rfl⟩
  | field name =>
      obtain ⟨hhas, hown, hempty⟩ := h
      refine fieldHindrance?_eq_none_iff.2 ⟨hhas, ?_, ?_⟩
      · simpa [ExplicitHooks.hasField] using hown
      · rw [Hooks.hasField, KeyMap.contains, hempty]
        rfl
  | other raw => rfl

lemma hindrance?_of_leavesOut (h : target.LeavesOut hooks key why) :
    hindrance? target hooks key = some why := by
  cases h with
  | ownForm hown => simp [hindrance?, formHindrance?, hown]
  | filledForm hown hfull =>
      simp [hindrance?, formHindrance?, Hooks.hasForm, hown, Option.isSome_iff_ne_none.2 hfull]
  | unknownField hnot => simp [hindrance?, fieldHindrance?, hnot]
  | ownField hhas hown =>
      simp [hindrance?, fieldHindrance?, ExplicitHooks.hasField, hhas, hown]
  | filledField hhas hown hfull =>
      simp [hindrance?, fieldHindrance?, ExplicitHooks.hasField, Hooks.hasField, KeyMap.contains,
        hhas, hown, Option.isSome_iff_ne_none.2 hfull]

/-- **A group is installed where it may be.** -/
lemma hindrance?_eq_none_iff {rules : FormRules} (h : rules.Configures key) :
    hindrance? target hooks key = none ↔ target.Admits hooks key := by
  refine ⟨fun hnone => ?_, hindrance?_of_admits⟩
  rcases FormClass.admits_or_leavesOut h target hooks with hadmits | ⟨why, hwhy⟩
  · exact hadmits
  · rw [hindrance?_of_leavesOut hwhy] at hnone
    cases hnone

/-- A reason does not go away when slots are filled. -/
lemma hindrance?_of_keeps {later : Hooks} (h : hindrance? target hooks key = some why)
    (hkeeps : ∀ v, hooks.slot? key = some v → later.slot? key = some v) :
    hindrance? target later key = some why := by
  have hfull : (hooks.slot? key).isSome = true → (later.slot? key).isSome = true := by
    intro hsome
    obtain ⟨v, hv⟩ := Option.isSome_iff_exists.1 hsome
    rw [hkeeps v hv]
    rfl
  cases key with
  | form =>
      rw [Hooks.isSome_slot?_form, Hooks.isSome_slot?_form] at hfull
      grind [hindrance?, formHindrance?]
  | field name =>
      rw [Hooks.isSome_slot?_field, Hooks.isSome_slot?_field] at hfull
      grind [hindrance?, fieldHindrance?]
  | other raw => cases h

/-- Whether a group may be installed depends on its own slot alone. -/
lemma hindrance?_congr {later : Hooks} (h : later.slot? key = hooks.slot? key) :
    hindrance? target later key = hindrance? target hooks key := by
  cases key with
  | form =>
      have hfull : later.hasForm = hooks.hasForm := by
        rw [← Hooks.isSome_slot?_form, h, Hooks.isSome_slot?_form]
      rw [hindrance?, formHindrance?, hfull]
      rfl
  | field name =>
      have hfull : later.hasField name = hooks.hasField name := by
        rw [← Hooks.isSome_slot?_field, h, Hooks.isSome_slot?_field]
      rw [hindrance?, fieldHindrance?, hfull]
      rfl
  | other raw => rfl

end AttachPass

end FormValidation
