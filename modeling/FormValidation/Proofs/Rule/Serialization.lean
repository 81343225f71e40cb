import FormValidation.Proofs.Json.TextRoundTrip
import FormValidation.Proofs.Value.JsonData
import FormValidation.Rule.Form
import Mathlib

/-!
# Rules are read back from their entries

The rules of a form are written as the entry that they could have been read from: a rule has only the
texts that it has, and what was wrong with a rule or with the form as a whole is not written.  Reading
is lenient, but what was written has the right shape everywhere, so nothing is lost between the two
but these marks.  The order in which the texts of a rule stand does not matter to reading, since no
key stands twice (`Rule.ofJson_inOrder`); it is lost when the entry is read from its text, which puts
the members of each object in the order of their keys.

So the rules that are read back are those that were written with all marks cleared, and rules without
marks are read back as they were (`FormRules.toJson_round_trip`).
-/

namespace FormValidation

namespace Rule

/-- The rule without what was wrong with its entry. -/
def cleared (r : Rule) : Rule := { r with malformed := none }

variable (r : Rule)

lemma cleared_eq_self (h : r.malformed = none) : r.cleared = r := by rw [cleared, ← h]

/-! ## The texts of a rule -/

lemma find?_member_self (key : String) (s : Option String) :
    Entries.find? key (member key s) = s.map Json.string := by
  cases s with
  | none => rfl
  | some s => exact if_pos rfl

lemma find?_member_of_ne {key other : String} (h : key ≠ other) (s : Option String) :
    Entries.find? other (member key s) = none := by
  cases s with
  | none => rfl
  | some s => exact if_neg h

/-- A text that is there, or not, is read with nothing wrong. -/
lemma textMember_of_find? {members : List (String × Json)} {key : String} {s : Option String}
    (h : Entries.find? key members = s.map Json.string) : textMember members key = (s, none) := by
  rw [textMember, h]
  cases s <;> rfl

/-- The members of the entry of a rule. -/
def members : List (String × Json) :=
  member "field" r.field ++ member "condition" r.condition ++ member "error" r.error

lemma find?_members :
    Entries.find? "field" r.members = r.field.map Json.string ∧
      Entries.find? "condition" r.members = r.condition.map Json.string ∧
      Entries.find? "error" r.members = r.error.map Json.string := by
  simp [members, Entries.find?_append, find?_member_self, find?_member_of_ne]

lemma nodup_members : (r.members.map (·.1)).Nodup := by
  obtain ⟨_ | field, _ | condition, _ | error, malformed⟩ := r <;> simp [members, member]

/-- Members that have the texts of a rule, in whatever order, are read as the rule. -/
lemma ofJson_of_find? {members : List (String × Json)}
    (h : ∀ key, Entries.find? key members = Entries.find? key r.members) :
    ofJson (.object members) = r.cleared := by
  obtain ⟨hfield, hcondition, herror⟩ := r.find?_members
  have hfield := textMember_of_find? ((h _).trans hfield)
  have hcondition := textMember_of_find? ((h _).trans hcondition)
  have herror := textMember_of_find? ((h _).trans herror)
  simp only [ofJson, hfield, hcondition, herror]
  rfl

/-! ## The entry of a rule -/

lemma ofJson_toJson : ofJson r.toJson = r.cleared := r.ofJson_of_find? fun _ => rfl

lemma isExact_of_mem_members {m : String × Json} (h : m ∈ r.members) : m.2.IsExact 0 := by
  simp only [members, List.mem_append] at h
  rcases h with (h | h) | h
  all_goals
    unfold member at h
    split at h
    · rw [List.mem_singleton.1 h]
      exact .string _
    · cases h

/-- The texts are in order as they are, so only the members have to be put in order. -/
lemma inOrder_toJson : r.toJson.inOrder = Json.ofMembers r.members := by
  have htexts : r.members.map (fun m => (m.1, m.2.inOrder)) = r.members :=
    Json.map_eq_self_iff.2 fun m hm => Prod.ext rfl (r.isExact_of_mem_members hm).inOrder_eq
  have hentry : r.toJson = .object r.members := rfl
  rw [hentry, Json.inOrder, Json.membersInOrder_eq, htexts]

/-- A rule is read from its entry in order as well. -/
lemma ofJson_inOrder : ofJson r.toJson.inOrder = r.cleared := by
  rw [inOrder_toJson]
  exact r.ofJson_of_find? (Entries.find?_ofList r.nodup_members)

lemma isExact_toJson : r.toJson.IsExact 1 := .object fun _ => r.isExact_of_mem_members

end Rule

namespace FormRules

/-- The rules without what was wrong with their entries and with the entry of the form. -/
def cleared (f : FormRules) : FormRules :=
  ⟨f.groups.map fun _ rules => rules.map Rule.cleared, none⟩

/-- Nothing was wrong with the entries of the rules and with that of the form. -/
def IsIntact (f : FormRules) : Prop :=
  f.malformed = none ∧ ∀ g ∈ f.groups.entries, ∀ r ∈ g.2, r.malformed = none

variable (f : FormRules)

/-- However the rules are written, if they are read back from it, so are their groups. -/
lemma ofJson_groups {write : Rule → Json} (h : ∀ r, Rule.ofJson (write r) = r.cleared) :
    ofJson (.object (f.groups.entries.map fun g => (g.1, .array (g.2.map write)))) = f.cleared := by
  have hgroup : ∀ rules : List Rule,
      groupOfJson (.array (rules.map write)) = rules.map Rule.cleared := by
    intro rules
    rw [groupOfJson, List.map_map]
    exact List.map_congr_left fun r _ => h r
  have hgroups : KeyMap.ofList (f.cleared.groups.entries) = f.cleared.groups :=
    KeyMap.ext (Entries.ofList_of_sorted f.cleared.groups.sorted)
  rw [ofJson, List.map_map]
  simp only [Function.comp_def, hgroup]
  exact congrArg (FormRules.mk · none) hgroups

lemma ofJson_toJson : ofJson f.toJson = f.cleared := f.ofJson_groups Rule.ofJson_toJson

/-- The groups are in order as they are, so only the members of the rules have to be put in order. -/
lemma inOrder_toJson : f.toJson.inOrder =
    .object (f.groups.entries.map fun g => (g.1, .array (g.2.map fun r => r.toJson.inOrder))) := by
  have hmembers : f.toJson.inOrder = Json.ofMembers
      (f.groups.entries.map fun g => (g.1, .array (g.2.map fun r => r.toJson.inOrder))) := by
    rw [toJson, Json.inOrder, Json.membersInOrder_eq, List.map_map]
    simp only [Function.comp_def, Json.inOrder, Json.itemsInOrder_eq, List.map_map]
  rw [hmembers, Json.ofMembers, Entries.ofList_of_sorted]
  exact Entries.sorted_map (fun _ rules => Json.array (rules.map fun r => r.toJson.inOrder))
    f.groups.sorted

lemma isExact_toJson : f.toJson.IsExact 3 := by
  refine .object fun m hm => ?_
  obtain ⟨g, -, rfl⟩ := List.mem_map.1 hm
  refine .array fun x hx => ?_
  obtain ⟨r, -, rfl⟩ := List.mem_map.1 hx
  exact r.isExact_toJson

/-- The rules of a form are read back from the text of their entry. -/
lemma read?_toJson : (Json.read? f.toJson.text).map ofJson = some f.cleared := by
  rw [f.isExact_toJson.read?_text (by decide), Option.map_some, inOrder_toJson,
    f.ofJson_groups Rule.ofJson_inOrder]

lemma toJson_cleared : f.cleared.toJson = f.toJson := by
  rw [toJson, toJson, cleared, KeyMap.map, List.map_map]
  simp only [Function.comp_def, List.map_map]
  rfl

lemma isIntact_cleared : f.cleared.IsIntact := by
  refine ⟨rfl, fun g hg r hr => ?_⟩
  obtain ⟨g', -, rfl⟩ := List.mem_map.1 hg
  obtain ⟨r', -, rfl⟩ := List.mem_map.1 hr
  rfl

/-- Rules stay as they are without their marks exactly if there are none. -/
lemma cleared_eq_self_iff : f.cleared = f ↔ f.IsIntact := by
  constructor
  · intro h
    rw [← h]
    exact f.isIntact_cleared
  · rintro ⟨hform, hrules⟩
    have hgroups : f.cleared.groups = f.groups := by
      refine KeyMap.ext (Json.map_eq_self_iff.2 fun g hg => ?_)
      have hgroup : g.2.map Rule.cleared = g.2 :=
        Json.map_eq_self_iff.2 fun r hr => r.cleared_eq_self (hrules g hg r hr)
      exact Prod.ext rfl hgroup
    calc f.cleared = ⟨f.groups, none⟩ := congrArg (FormRules.mk · none) hgroups
      _ = f := by rw [← hform]

/-- **Rules are read back from their entry**, and from the text of their entry, with all marks cleared:
the same groups in the same order, each with the same rules in the same order, and each rule with its
texts.  So the rules of a form are read back as they were exactly if nothing was wrong with them, and
what has been read, from whatever data, is written the same way again when it has been written and
read. -/
theorem toJson_round_trip :
    ofJson f.toJson = f.cleared ∧
    (Json.read? f.toJson.text).map ofJson = some f.cleared ∧
    (ofJson f.toJson = f ↔ f.IsIntact) ∧
    ∀ raw, (ofJson (ofJson raw).toJson).toJson = (ofJson raw).toJson := by
  refine ⟨f.ofJson_toJson, f.read?_toJson, ?_, fun raw => ?_⟩
  · rw [ofJson_toJson]
    exact f.cleared_eq_self_iff
  · rw [ofJson_toJson, toJson_cleared]

end FormRules

end FormValidation
