import FormValidation.Json.Reader
import FormValidation.Validator.Field
import FormValidation.Validator.Form
import FormValidation.Proofs.Condition.KeyedValues
import Mathlib

/-!
# Rules see keyed values

The laws of equality need maps that list each key once and in order, and conditions compute such
values from such bindings (`Condition.keyed_of_eval`).  This file says that the rules of a form
have no other bindings.

What they see comes from JSON data.  A JSON text is read token by token, and each member is put into
its place among those before it, also if its key is written twice or out of order.  So whatever part
of a value is complete is keyed (`Json.Building.Keyed`), and in the end the whole of it is.  The
words among the tokens are read as values, too, but none of them is a container
(`Json.Token.Keyed`).

So the laws hold of whatever rules compute (`equality_of_computed`).
-/

namespace FormValidation

/-- What each step keeps, if its input is of a kind, holds behind all inputs of that kind. -/
lemma of_foldlM {σ τ : Type} {step : σ → τ → Option σ} {P : σ → Prop} {Q : τ → Prop}
    (hstep : ∀ s t s', P s → Q t → step s t = some s' → P s') {inputs : List τ} {s s' : σ}
    (hs : P s) (hinputs : ∀ t ∈ inputs, Q t) (h : inputs.foldlM step s = some s') : P s' := by
  induction inputs generalizing s with
  | nil =>
      cases h
      exact hs
  | cons t inputs ih =>
      obtain ⟨ht, hinputs⟩ := List.forall_mem_cons.1 hinputs
      obtain ⟨next, hnext, hrest⟩ := Option.bind_eq_some_iff.1 h
      exact ih (hstep s t next hs ht hnext) hinputs hrest

namespace Json

/-- The keys of every object within the data strictly increase. -/
inductive Keyed : Json → Prop
  | null : Keyed .null
  | bool (b : Bool) : Keyed (.bool b)
  | number (n : JsonNumber) : Keyed (.number n)
  | string (s : String) : Keyed (.string s)
  | array {items : List Json} (h : ∀ x ∈ items, Keyed x) : Keyed (.array items)
  | object {members : List (String × Json)} (hsorted : Entries.Sorted members)
      (h : ∀ m ∈ members, Keyed m.2) : Keyed (.object members)

/-! ## Tokens -/

/-- The value of a token, if it has one, is keyed. -/
def Token.Keyed : Token → Prop
  | .word v => v.Keyed
  | _ => True

lemma Token.keyed_of_mark? {c : Char} {t : Token} (h : mark? c = some t) : t.Keyed := by
  unfold mark? at h
  split at h <;> cases h <;> trivial

/-- A word is no container. -/
lemma Token.keyed_of_word? {cs : List Char} {v : Json} (h : word? cs = some v) :
    (word v).Keyed := by
  have hnumber : ∀ {n : Option JsonNumber}, n.map Json.number = some v → (word v).Keyed := by
    intro n h
    obtain ⟨n, -, rfl⟩ := Option.map_eq_some_iff.1 h
    exact Json.Keyed.number n
  unfold word? at h
  split at h
  · cases h; exact Json.Keyed.null
  split at h
  · cases h; exact Json.Keyed.bool true
  split at h
  · cases h; exact Json.Keyed.bool false
  split at h
  · exact hnumber h
  · exact hnumber h

lemma Scan.keyed_start {tokens : List Token} (h : ∀ t ∈ tokens, t.Keyed) (c : Char) :
    ∀ t ∈ (start tokens c).2, t.Keyed := by
  unfold start
  split
  · exact h
  split
  · exact h
  split
  · rename_i hmark
    exact List.forall_mem_cons.2 ⟨Token.keyed_of_mark? hmark, h⟩
  · exact h

lemma Scan.keyed_step {scan scan' : Scan × List Token} {c : Char} (h : ∀ t ∈ scan.2, t.Keyed)
    (hstep : step scan c = some scan') : ∀ t ∈ scan'.2, t.Keyed := by
  unfold step at hstep
  split at hstep
  · -- Between tokens.
    cases hstep
    exact keyed_start h c
  · -- In a word, which a space, a quote or a mark ends.
    split at hstep
    · obtain ⟨v, hv, rfl⟩ := Option.map_eq_some_iff.1 hstep
      exact keyed_start (List.forall_mem_cons.2 ⟨Token.keyed_of_word? hv, h⟩) c
    · cases hstep
      exact h
  · -- In a text; the other states read its escapes and leave the tokens as they are.
    split at hstep
    · cases hstep
      exact List.forall_mem_cons.2 ⟨trivial, h⟩
    split at hstep
    · cases hstep
      exact h
    split at hstep
    · cases hstep
    · cases hstep
      exact h
  · split at hstep
    · cases hstep
      exact h
    · obtain ⟨d, -, rfl⟩ := Option.map_eq_some_iff.1 hstep
      exact h
  · obtain ⟨digit, -, hstep⟩ := Option.bind_eq_some_iff.1 hstep
    dsimp only at hstep
    split at hstep
    · obtain ⟨next, -, rfl⟩ := Option.map_eq_some_iff.1 hstep
      exact h
    · cases hstep
      exact h
  · split at hstep <;> cases hstep
    exact h
  · split at hstep <;> cases hstep
    exact h

lemma Scan.keyed_finish {scan : Scan × List Token} {tokens : List Token}
    (h : ∀ t ∈ scan.2, t.Keyed) (hfinish : finish scan = some tokens) :
    ∀ t ∈ tokens, t.Keyed := by
  unfold finish at hfinish
  split at hfinish
  · cases hfinish
    exact fun t ht => h t (List.mem_reverse.1 ht)
  · obtain ⟨v, hv, rfl⟩ := Option.map_eq_some_iff.1 hfinish
    exact fun t ht =>
      List.forall_mem_cons.2 ⟨Token.keyed_of_word? hv, h⟩ t (List.mem_reverse.1 ht)
  · cases hfinish

lemma keyed_of_tokens? {cs : List Char} {tokens : List Token} (h : tokens? cs = some tokens) :
    ∀ t ∈ tokens, t.Keyed := by
  obtain ⟨scan, hscan, hfinish⟩ := Option.bind_eq_some_iff.1 h
  have hkeyed : ∀ t ∈ scan.2, t.Keyed :=
    of_foldlM (P := fun scan => ∀ t ∈ scan.2, t.Keyed) (Q := fun _ => True)
      (fun _ _ _ hs _ hstep => Scan.keyed_step hs hstep) nofun (fun _ _ => trivial) hscan
  exact Scan.keyed_finish hkeyed hfinish

/-! ## Values -/

/-- What an open container holds so far is keyed. -/
def Holder.Keyed : Holder → Prop
  | .item items => ∀ x ∈ items, x.Keyed
  | .member members _ => Entries.Sorted members ∧ ∀ m ∈ members, m.2.Keyed

/-- What is complete of a value is keyed. -/
def Building.Keyed : Building → Prop
  | .value around | .firstItem around | .firstKey around => ∀ holder ∈ around, holder.Keyed
  | .key ms around | .colon ms _ around | .members ms around =>
    (Entries.Sorted ms ∧ ∀ m ∈ ms, m.2.Keyed) ∧ ∀ holder ∈ around, holder.Keyed
  | .items vs around => (∀ x ∈ vs, x.Keyed) ∧ ∀ holder ∈ around, holder.Keyed
  | .done v => v.Keyed

namespace Building

/-- A value that is put in its place is put among the members in the order of their keys. -/
lemma keyed_place {v : Json} {around : List Holder} (hv : v.Keyed)
    (h : ∀ holder ∈ around, holder.Keyed) : (place v around).Keyed := by
  cases around with
  | nil => exact hv
  | cons holder around =>
      obtain ⟨hholder, haround⟩ := List.forall_mem_cons.1 h
      cases holder with
      | item items => exact ⟨List.forall_mem_cons.2 ⟨hv, hholder⟩, haround⟩
      | member members key =>
          obtain ⟨hsorted, hmembers⟩ := hholder
          refine ⟨⟨Entries.sorted_insert key v hsorted, fun m hm => ?_⟩, haround⟩
          rcases Entries.mem_insert hm with rfl | hm
          · exact hv
          · exact hmembers m hm

lemma keyed_begin? {around : List Holder} {t : Token} {building : Building}
    (h : ∀ holder ∈ around, holder.Keyed) (ht : t.Keyed)
    (hbegin : begin? around t = some building) : building.Keyed := by
  unfold begin? at hbegin
  split at hbegin
  · split at hbegin <;> cases hbegin
    exact h
  · split at hbegin <;> cases hbegin
    exact h
  · cases hbegin
    exact keyed_place (.string _) h
  · cases hbegin
    exact keyed_place ht h
  · cases hbegin

/-- **One more token** keeps what is complete keyed. -/
lemma keyed_step {building building' : Building} {t : Token} (h : building.Keyed) (ht : t.Keyed)
    (hstep : step building t = some building') : building'.Keyed := by
  have hempty : Entries.Sorted ([] : List (String × Json)) ∧
      ∀ m ∈ ([] : List (String × Json)), m.2.Keyed := ⟨Entries.sorted_nil, nofun⟩
  have hitem : (Holder.item []).Keyed := nofun
  unfold step at hstep
  split at hstep
  · exact keyed_begin? h ht hstep
  · cases hstep
    exact keyed_place (.array nofun) h
  · exact keyed_begin? (List.forall_mem_cons.2 ⟨hitem, h⟩) ht hstep
  · cases hstep
    exact keyed_place (.object hempty.1 hempty.2) h
  · cases hstep
    exact ⟨hempty, h⟩
  · cases hstep
    exact h
  · cases hstep
    exact List.forall_mem_cons.2 ⟨h.1, h.2⟩
  · cases hstep
    exact List.forall_mem_cons.2 ⟨h.1, h.2⟩
  · cases hstep
    exact keyed_place (.array fun x hx => h.1 x (List.mem_reverse.1 hx)) h.2
  · cases hstep
    exact h
  · cases hstep
    exact keyed_place (.object h.1.1 h.1.2) h.2
  · cases hstep

end Building

/-- **Data that are read are keyed**, in whatever order they are written. -/
theorem keyed_of_read? {cs : List Char} {v : Json} (h : read? cs = some v) : v.Keyed := by
  obtain ⟨tokens, htokens, hrest⟩ := Option.bind_eq_some_iff.1 h
  obtain ⟨building, hbuilding, hfinish⟩ := Option.bind_eq_some_iff.1 hrest
  have hstart : (Building.value []).Keyed := nofun
  have hkeyed : building.Keyed :=
    of_foldlM (fun _ _ _ => Building.keyed_step) hstart (keyed_of_tokens? htokens) hbuilding
  cases building with
  | done w =>
      cases hfinish
      exact hkeyed
  | _ => cases hfinish

end Json

/-! ## Bindings -/

namespace Value

lemma ofItems_eq_map (items : List Json) : ofItems items = items.map ofJson := by
  induction items with
  | nil => rfl
  | cons item items ih => rw [ofItems, ih, List.map_cons]

lemma ofMembers_eq_map (members : List (String × Json)) :
    ofMembers members = members.map fun m => (m.1, ofJson m.2) := by
  induction members with
  | nil => rfl
  | cons m members ih =>
      obtain ⟨key, item⟩ := m
      rw [ofMembers, ih, List.map_cons]

lemma keyed_ofNumber (n : JsonNumber) : (ofNumber n).Keyed := by
  unfold ofNumber
  split
  · split
    · exact keyed_int _
    · exact keyed_of_kind nofun nofun
  · exact keyed_of_kind nofun nofun

/-- A map of keyed data is keyed. -/
lemma keyed_ofMembers {members : List (String × Json)} (hsorted : Entries.Sorted members)
    (h : ∀ m ∈ members, (ofJson m.2).Keyed) : (map (ofMembers members)).Keyed := by
  rw [ofMembers_eq_map]
  exact .map (Entries.sorted_map (fun _ => ofJson) hsorted) (List.forall_mem_map.2 h)

/-- The value of keyed data is keyed. -/
lemma keyed_ofJson {j : Json} (h : j.Keyed) : (ofJson j).Keyed := by
  induction h with
  | null => exact keyed_null
  | bool b => exact keyed_bool b
  | number n => exact keyed_ofNumber n
  | string s => exact keyed_text s
  | array _ ih =>
      rw [ofJson, ofItems_eq_map]
      exact .list (List.forall_mem_map.2 ih)
  | object hsorted _ ih =>
      rw [ofJson]
      exact keyed_ofMembers hsorted ih

end Value

lemma Context.Keyed.insert {context : Context} (h : context.Keyed) (x : String) {v : Value}
    (hv : v.Keyed) : Context.Keyed (context.insert x v) := by
  intro y w hw
  rw [KeyMap.find?_insert] at hw
  split at hw
  · cases hw
    exact hv
  · exact h y w hw

/-- All values of the cleaned data are keyed. -/
def CleanedData.Keyed (cleaned : CleanedData) : Prop := ∀ e ∈ cleaned.entries, e.2.Keyed

namespace CleanedData.Keyed

variable {cleaned : CleanedData}

lemma cleanedField (h : Keyed cleaned) (field : String) :
    (Value.ofJson (cleanedField cleaned field)).Keyed := by
  unfold FormValidation.cleanedField
  cases hfound : cleaned.find? field with
  | none => exact Value.keyed_null
  | some j => exact Value.keyed_ofJson (h _ (KeyMap.mem_entries_iff.2 hfound))

lemma cleanedValue (h : Keyed cleaned) : (cleanedValue cleaned).Keyed :=
  Value.keyed_ofMembers cleaned.sorted fun m hm => Value.keyed_ofJson (h m hm)

/-- What the rules for a field see. -/
lemma contextOf (h : Keyed cleaned) (field : String) (clock : Clock) :
    (FieldValidator.contextOf field cleaned clock).Keyed := by
  have hstart : Context.Keyed ∅ := fun _ _ hv => nomatch hv
  exact ((hstart.insert "value" (h.cleanedField field)).insert "cleaned_data"
    h.cleanedValue).insert "timezone" (Value.keyed_of_kind nofun nofun)

/-- What the first rule for a form sees. -/
lemma startContext (h : Keyed cleaned) (clock : Clock) :
    (FormValidator.startContext cleaned clock).Keyed := by
  have hfields : Context.Keyed (cleaned.map fun _ v => Value.ofJson v) := by
    intro x v hv
    rw [KeyMap.find?_map] at hv
    obtain ⟨j, hj, rfl⟩ := Option.map_eq_some_iff.1 hv
    exact Value.keyed_ofJson (h _ (KeyMap.mem_entries_iff.2 hj))
  exact (hfields.insert "cleaned_data" h.cleanedValue).insert "timezone"
    (Value.keyed_of_kind nofun nofun)

/-- What a rule sees that names a field. -/
lemma bindField (h : Keyed cleaned) (r : CompiledRule) {context : Context}
    (hcontext : context.Keyed) : (FormValidator.bindField cleaned r context).Keyed := by
  unfold FormValidator.bindField
  split
  · exact hcontext.insert _ (h.cleanedField _)
  · exact hcontext

end CleanedData.Keyed

/-- The data of the form and what its next rule sees are keyed. -/
def FormPass.Keyed (pass : FormPass) : Prop :=
  CleanedData.Keyed pass.host.cleaned ∧ pass.context.Keyed

namespace FormValidator

/-- Whatever becomes of a rule, the next one has the data as they were and sees its field. -/
lemma keyed_step (form : String) {pass : FormPass} (h : pass.Keyed) (r : CompiledRule) :
    (step form pass r).Keyed := by
  obtain ⟨hcleaned, hcontext⟩ := h
  have hnext := hcleaned.bindField r hcontext
  unfold step
  dsimp only
  split <;> exact ⟨hcleaned, hnext⟩

/-- **All rules of a form see keyed values**, if the data of the form are keyed. -/
theorem keyed_foldl_step (form : String) {host : Host} (h : CleanedData.Keyed host.cleaned)
    (clock : Clock) (rules : List CompiledRule) :
    (rules.foldl (step form)
      ⟨host, startContext host.cleaned clock, .unchanged host.cleaned, []⟩).Keyed := by
  induction rules using List.reverseRecOn with
  | nil => exact ⟨h, h.startContext clock⟩
  | append_singleton rules r ih =>
      rw [List.foldl_concat]
      exact keyed_step form ih r

end FormValidator

/-! ## What rules compute -/

/-- What a rule sees.  A rule for the form sees what a run of the rules up to it ends in, and a rule
for a field what all of them see. -/
inductive RuleSees (host : Host) (clock : Clock) : Context → Prop
  | form (form : String) (rules : List Rule) :
      RuleSees host clock ((FormValidator.compile form rules).1.run host clock).context
  | field (field : String) :
      RuleSees host clock (FieldValidator.contextOf field host.cleaned clock)

lemma RuleSees.keyed {host : Host} {clock : Clock} {context : Context}
    (h : RuleSees host clock context) (hdata : CleanedData.Keyed host.cleaned) :
    context.Keyed := by
  cases h with
  | form form rules => exact (FormValidator.keyed_foldl_step form hdata clock _).2
  | field field => exact hdata.contextOf field clock

/-- **The laws of equality hold of whatever rules compute.**  If the data of a form have been read,
in whatever order they are written, then what two conditions compute for a rule is loosely equal if
it is the same, and loosely equal from both sides or from none; and one of them is in the other, if
that is a list, exactly if it is loosely equal to some item. -/
theorem equality_of_computed {host : Host} {clock : Clock} {context : Context}
    {left right : String} {d e : Expr} {v w : Value}
    (hread : ∀ field j, host.cleaned.find? field = some j → ∃ text, Json.read? text = some j)
    (hsees : RuleSees host clock context) (hleft : Condition.parse left = .ok d)
    (hright : Condition.parse right = .ok e) (hv : d.eval context = .ok v)
    (hw : e.eval context = .ok w) :
    (v.same w = true → v.looseEq w = true) ∧ v.looseEq w = w.looseEq v ∧
      ∀ items, w = .list items →
        Comparison.isIn.holds v w = .ok (items.any fun x => v.looseEq x) := by
  have hdata : CleanedData.Keyed host.cleaned := by
    intro entry hentry
    obtain ⟨text, htext⟩ := hread _ _ (KeyMap.mem_entries_iff.1 hentry)
    exact Json.keyed_of_read? htext
  have hcontext : context.Keyed := hsees.keyed hdata
  have hvkeyed : v.Keyed := Condition.keyed_of_eval hleft hcontext hv
  have hwkeyed : w.Keyed := Condition.keyed_of_eval hright hcontext hw
  refine ⟨Value.looseEq_of_same hwkeyed, Value.looseEq_comm hvkeyed hwkeyed, ?_⟩
  rintro items rfl
  exact Value.holds_isIn_list hvkeyed hwkeyed

end FormValidation
