import FormValidation.Validator.Field

/-!
# Hooks

A form has slots for validators: one for the form as a whole and one for each field. A slot that is
filled stays as it is, and an empty one validates nothing. Forms may have validation of their own,
which `ExplicitHooks` lists; nothing is put beside it.

Installing a validator fills its slot (`hasForm_installForm`, `hasField_installField`) and changes no
slot that was filled before (`form_installForm_of_hasForm`, `find?_installField_of_hasField`).
-/

namespace FormValidation

/-- The validation that a form already has. -/
structure ExplicitHooks where
  /-- Whether it validates itself as a whole. -/
  form : Bool
  /-- The fields that it validates. -/
  fields : List String

namespace ExplicitHooks

/-- No validation. -/
def none : ExplicitHooks := ⟨false, []⟩

/-- The hooks with one for the form as a whole. -/
def withForm (e : ExplicitHooks) : ExplicitHooks := { e with form := true }

/-- The hooks with one for a field. -/
def withField (e : ExplicitHooks) (field : String) : ExplicitHooks :=
  { e with fields := field :: e.fields }

/-- Whether a field is validated. -/
def hasField (e : ExplicitHooks) (field : String) : Bool := e.fields.contains field

end ExplicitHooks

/-- The slots of a form. -/
structure Hooks where
  form : Option FormValidator
  /-- The validators of fields, by field. -/
  fields : KeyMap FieldValidator

namespace Hooks

/-- Empty slots. -/
def empty : Hooks := ⟨none, ∅⟩

instance : Inhabited Hooks := ⟨empty⟩

/-- Whether the slot for the whole form is filled. -/
def hasForm (h : Hooks) : Bool := h.form.isSome

/-- Whether the slot for a field is filled. -/
def hasField (h : Hooks) (field : String) : Bool := h.fields.contains field

/-- Fills the slot for the whole form, if it is empty. -/
def installForm (h : Hooks) (v : FormValidator) : Hooks :=
  if h.hasForm then h else { h with form := some v }

/-- Fills the slot for the field of a validator, if it is empty. -/
def installField (h : Hooks) (v : FieldValidator) : Hooks :=
  if h.hasField v.field then h else { h with fields := h.fields.insert v.field v }

/-- Validates a form as a whole: the form with its new errors, the outcome and the events. -/
def runForm (h : Hooks) (host : Host) (clock : Clock) : Host × Outcome × List Diagnostic :=
  match h.form with
  | some v =>
    let pass := v.run host clock
    (pass.host, pass.outcome, pass.events)
  | none => (host, .unchanged host.cleaned, [])

/-- Validates a field. -/
def runField (h : Hooks) (field : String) (host : Host) (clock : Clock) :
    Except ValidationFailure Json × List Diagnostic :=
  match h.fields.find? field with
  | some v => v.run host clock
  | none => (.ok (cleanedField host.cleaned field), [])

/-! ## Slots stay as they are -/

@[simp] theorem hasForm_installForm (h : Hooks) (v : FormValidator) :
    (h.installForm v).hasForm = true := by
  rw [installForm]
  split
  next hfull => exact hfull
  next => rfl

/-- A filled slot keeps its validator. -/
theorem form_installForm_of_hasForm {h : Hooks} (hfull : h.hasForm = true) (v : FormValidator) :
    (h.installForm v).form = h.form := by
  rw [installForm, if_pos hfull]

theorem hasField_installField (h : Hooks) (v : FieldValidator) (field : String) :
    (h.installField v).hasField field = (decide (v.field = field) || h.hasField field) := by
  rw [installField]
  split
  next hfull =>
    by_cases hfield : v.field = field
    · simp [← hfield, hfull]
    · simp [hfield]
  next =>
    simp only [hasField, KeyMap.contains, KeyMap.find?_insert]
    by_cases hfield : v.field = field <;> simp [hfield]

/-- A filled slot for a field keeps its validator. -/
theorem find?_installField_of_hasField {h : Hooks} {field : String}
    (hfull : h.hasField field = true) (v : FieldValidator) :
    (h.installField v).fields.find? field = h.fields.find? field := by
  rw [installField]
  split
  next => rfl
  next hempty =>
    rw [KeyMap.find?_insert, if_neg]
    intro heq
    exact hempty (heq ▸ hfull)

end Hooks

end FormValidation
