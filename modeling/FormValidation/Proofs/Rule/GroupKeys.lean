import FormValidation.Rule.Form
import Mathlib

/-!
# Group keys are a faithful coding

A group is stored under a raw key, looked up under what its key means, and listed with that meaning.
So two codings meet: `GroupKey.parse` reads raw keys and `GroupKey.text` writes them.  This file says
that nothing is lost between them: every raw key is written back as it was (`GroupKey.text_parse`),
so the meanings of the groups of a form are as distinct as their raw keys are, and each meaning
finds the group that it was read from (`FormRules.groupKeys_faithful`).

Not every key can be read from a raw one: a field without a name has none, and a key that is kept as
it is must not be one that means something.  Those that can be (`GroupKey.IsRead`) are exactly the
ones that come back when they are written and read.
-/

namespace FormValidation

namespace GroupKey

/-- The key is what some raw key means: a field has a name, and any other key is neither the key of
the form nor that of a field with a name. -/
def IsRead : GroupKey → Prop
  | .form => True
  | .field name => name ≠ ""
  | .other raw => raw ≠ formText ∧ ∀ name, name ≠ "" → raw ≠ fieldStem ++ name

lemma parse_injective : Function.Injective parse := Function.LeftInverse.injective text_parse

lemma parse_formText : parse formText = .form := if_pos rfl

lemma isRead_parse (raw : String) : (parse raw).IsRead := by
  cases h : parse raw with
  | form => trivial
  | field name => exact ne_empty_of_parse h
  | other key =>
      -- What is kept as it is would have been read as something else.
      have hkey : parse key = .other key := by
        have htext := text_parse raw
        rw [h] at htext
        exact (congrArg parse htext).trans h
      constructor
      · rintro rfl
        rw [parse_formText] at hkey
        cases hkey
      · rintro name hname rfl
        rw [parse_fieldStem hname] at hkey
        cases hkey

/-- A key that can be read comes back when it is written. -/
lemma parse_text_of_isRead {key : GroupKey} (h : key.IsRead) : parse key.text = key := by
  cases key with
  | form => exact parse_formText
  | field name => exact parse_fieldStem h
  | other raw =>
      obtain ⟨hform, hfield⟩ := h
      show parse raw = .other raw
      cases hparse : parse raw with
      | form =>
          have htext := text_parse raw
          rw [hparse] at htext
          exact absurd htext.symm hform
      | field name =>
          obtain ⟨hname, hraw⟩ := parse_eq_field_iff.1 hparse
          exact absurd hraw (hfield name hname)
      | other key =>
          have htext := text_parse raw
          rw [hparse] at htext
          exact congrArg GroupKey.other htext

/-- **The keys that come back** are those that some raw key means. -/
lemma mem_range_parse_iff {key : GroupKey} : key ∈ Set.range parse ↔ key.IsRead :=
  ⟨by rintro ⟨raw, rfl⟩; exact isRead_parse raw, fun h => ⟨key.text, parse_text_of_isRead h⟩⟩

/-- The stem alone is kept as it is, since no field is without a name; a name may begin with the stem. -/
example : parse "clean_" = .other "clean_" ∧ parse "clean_clean_" = .field "clean_" := by decide

lemma parse_text_eq_iff {key : GroupKey} : parse key.text = key ↔ key ∈ Set.range parse :=
  ⟨fun h => ⟨key.text, h⟩, fun h => parse_text_of_isRead (mem_range_parse_iff.1 h)⟩

end GroupKey

namespace FormRules

variable (f : FormRules)

lemma map_fst_keyedGroups : f.keyedGroups.map (·.1) = f.groups.keys.map GroupKey.parse := by
  rw [keyedGroups, KeyMap.keys, List.map_map, List.map_map]
  rfl

lemma nodup_keyedGroups : (f.keyedGroups.map (·.1)).Nodup := by
  rw [map_fst_keyedGroups]
  exact f.groups.nodup_keys.map GroupKey.parse_injective

/-- The fields are the names among the meanings of the keys. -/
lemma map_fst_fieldGroups :
    f.fieldGroups.map (·.1) = (f.keyedGroups.map (·.1)).filterMap GroupKey.field? := by
  rw [fieldGroups, List.map_filterMap, List.filterMap_map]
  refine List.filterMap_congr fun g _ => ?_
  show ((g.1.field?.map fun field => (field, g.2)).map fun g => g.1) = g.1.field?
  cases g.1.field? <;> rfl

lemma nodup_fieldGroups : (f.fieldGroups.map (·.1)).Nodup := by
  rw [map_fst_fieldGroups]
  refine List.Nodup.filterMap (fun key key' name hkey hkey' => ?_) f.nodup_keyedGroups
  rw [Option.mem_def, GroupKey.field?_eq_some_iff] at hkey hkey'
  rw [hkey, hkey']

lemma rules?_parse (raw : String) : f.rules? (GroupKey.parse raw) = f.groups.find? raw := by
  rw [rules?, GroupKey.text_parse]

lemma mem_keyedGroups_iff {raw : String} {rules : List Rule} :
    (GroupKey.parse raw, rules) ∈ f.keyedGroups ↔ f.groups.find? raw = some rules := by
  rw [← KeyMap.mem_entries_iff, keyedGroups, List.mem_map]
  constructor
  · rintro ⟨⟨raw', rules'⟩, hmem, heq⟩
    obtain ⟨hkey, hrules⟩ := Prod.mk.inj heq
    rw [← GroupKey.parse_injective hkey, ← hrules]
    exact hmem
  · intro hmem
    exact ⟨_, hmem, rfl⟩

/-- **Group keys are a faithful coding.**  A raw key is written back from its meaning, so no two have
the same one.  The groups of a form have distinct meanings, and those for fields distinct fields with
a name; the meaning of a raw key finds the rules that are listed with it, which are those stored
under the raw key, or none if the form has no such group, and the rules for the form are those of its
meaning.  A key comes back when it is written and read exactly if some raw key means it, and `IsRead`
says which these are. -/
theorem groupKeys_faithful :
    (∀ raw, (GroupKey.parse raw).text = raw) ∧
    Function.Injective GroupKey.parse ∧
    (f.keyedGroups.map (·.1)).Nodup ∧
    (f.fieldGroups.map (·.1)).Nodup ∧ "" ∉ f.fieldGroups.map (·.1) ∧
    (∀ raw, f.rules? (GroupKey.parse raw) = f.groups.find? raw) ∧
    (∀ raw, f.rules? (GroupKey.parse raw) = none ↔ raw ∉ f.groups.keys) ∧
    (∀ raw rules, (GroupKey.parse raw, rules) ∈ f.keyedGroups ↔
      f.rules? (GroupKey.parse raw) = some rules) ∧
    f.formRules? = f.rules? .form ∧
    ∀ key, (GroupKey.parse key.text = key ↔ key ∈ Set.range GroupKey.parse) ∧
      (key ∈ Set.range GroupKey.parse ↔ key.IsRead) := by
  refine ⟨GroupKey.text_parse, GroupKey.parse_injective, f.nodup_keyedGroups, f.nodup_fieldGroups,
    fun hempty => ?_, f.rules?_parse, fun raw => ?_, fun raw rules => ?_, rfl, fun key => ?_⟩
  · obtain ⟨⟨name, rules⟩, hmem, hname⟩ := List.mem_map.1 hempty
    exact (mem_fieldGroups_iff.1 hmem).1 hname
  · rw [rules?_parse, KeyMap.mem_keys_iff, Bool.not_eq_true, Option.isSome_eq_false_iff,
      Option.isNone_iff_eq_none]
  · rw [rules?_parse]
    exact f.mem_keyedGroups_iff
  · exact ⟨GroupKey.parse_text_eq_iff, GroupKey.mem_range_parse_iff⟩

end FormRules

end FormValidation
