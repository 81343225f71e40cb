import FormValidation.Rule.Basic
import FormValidation.Rule.Key

/-!
# The rules of a form

The rules of one form in groups, listed in the order of the raw group keys. Reading them fails as
little as reading a rule does: an entry that is no map has no groups and says so, a group that is
no list becomes one unreadable rule, and an empty group may be written `null`.
-/

namespace FormValidation

/-- The rules of a form, in groups. -/
structure FormRules where
  /-- The rules under the raw keys of their groups. -/
  groups : KeyMap (List Rule)
  /-- What is wrong with the entry that the rules were read from. -/
  malformed : Option String
  deriving DecidableEq

namespace FormRules

/-- No rules. -/
def empty : FormRules := ⟨∅, none⟩

instance : Inhabited FormRules := ⟨empty⟩

/-- Reads a group. -/
def groupOfJson : Json → List Rule
  | .null => []
  | .array items => items.map Rule.ofJson
  | other => [Rule.unreadable ("rule group must be a list, found " ++ other.kindName)]

/-- Reads the rules of a form. -/
def ofJson (raw : Json) : FormRules :=
  match raw with
  | .object members => ⟨KeyMap.ofList (members.map fun m => (m.1, groupOfJson m.2)), none⟩
  | raw => ⟨∅, some ("form rules must be a map, found " ++ raw.kindName)⟩

/-- The entry of the rules of a form. -/
def toJson (f : FormRules) : Json :=
  .object (f.groups.entries.map fun g => (g.1, .array (g.2.map Rule.toJson)))

/-- The rules with a group put in place of any other under its key. -/
def withGroup (f : FormRules) (key : GroupKey) (rules : List Rule) : FormRules :=
  { f with groups := f.groups.insert key.text rules }

/-- Whether there are no groups. -/
def isEmpty (f : FormRules) : Bool := f.groups.isEmpty

/-- The rules of a group. -/
def rules? (f : FormRules) (key : GroupKey) : Option (List Rule) := f.groups.find? key.text

/-- The rules for the form as a whole. -/
def formRules? (f : FormRules) : Option (List Rule) := f.groups.find? GroupKey.formText

/-- All groups, with what their keys mean. -/
def keyedGroups (f : FormRules) : List (GroupKey × List Rule) :=
  f.groups.entries.map fun g => (GroupKey.parse g.1, g.2)

/-- The groups for fields, with the names of the fields. -/
def fieldGroups (f : FormRules) : List (String × List Rule) :=
  f.keyedGroups.filterMap fun g => g.1.field?.map fun field => (field, g.2)

/-- The groups for fields are those whose keys are the keys of fields. -/
theorem mem_fieldGroups_iff {f : FormRules} {name : String} {rules : List Rule} :
    (name, rules) ∈ f.fieldGroups ↔
      name ≠ "" ∧ (GroupKey.fieldStem ++ name, rules) ∈ f.groups.entries := by
  simp only [fieldGroups, keyedGroups, List.filterMap_map, List.mem_filterMap, Function.comp_apply,
    Option.map_eq_some_iff, GroupKey.field?_eq_some_iff, GroupKey.parse_eq_field_iff]
  constructor
  · rintro ⟨⟨raw, group⟩, hmem, field, ⟨hname, hraw⟩, heq⟩
    cases heq
    exact ⟨hname, hraw ▸ hmem⟩
  · rintro ⟨hname, hmem⟩
    exact ⟨_, hmem, name, ⟨hname, rfl⟩, rfl⟩

end FormRules

end FormValidation
