import FormValidation.Json.Reader
import FormValidation.Proofs.Json.TokenReading

/-!
# Written values are read back

The compact text of a JSON value is scanned into tokens, and from these a value is built, with the
containers that are still open kept aside.  `Takes` says of a text that it brings this building from
one stage to another, and `Reads` that it does so as the text of a value has to: wherever a value is
awaited, this value is put in its place.  A container is read with one more level of nesting than what
is in it (`Reads.array`, `Reads.object`), by an induction over its items or members with the ones
before them as the part that is built already.

The members of an object are listed in the order of their keys once they have been read, and in any
order before.  So a value without doubles is read back as the same value with all members in order
(`read?_text`), as long as its containers are not nested deeper than a reader can follow.
-/

namespace FormValidation

namespace Json

open Building (maxOpen place)
open Scan (EndsWord isBreak rest?)

variable {cs cs' : List Char} {a b c : Building} {v : Json} {depth : Nat}

/-! ## Stages of building -/

/-- Scanning the text gives the tokens, in front of what ends a word. -/
def Spells (cs : List Char) (ts : List Token) : Prop :=
  ∀ tokens rest, EndsWord rest →
    rest? (Scan.between, tokens) (cs ++ rest) = rest? (Scan.between, ts.reverse ++ tokens) rest

/-- Reading the text brings a building from one stage to another. -/
def Takes (cs : List Char) (a b : Building) : Prop :=
  ∃ ts, Spells cs ts ∧ ts.foldlM Building.step a = some b

lemma endsWord_append (h : EndsWord cs) {rest : List Char} (hrest : EndsWord rest) :
    EndsWord (cs ++ rest) := by
  cases cs with
  | nil => exact hrest
  | cons c cs => exact h

lemma Spells.append {ts ts' : List Token} (h : Spells cs ts) (h' : Spells cs' ts')
    (hends : EndsWord cs') : Spells (cs ++ cs') (ts ++ ts') := by
  intro tokens rest hrest
  rw [List.append_assoc, h _ _ (endsWord_append hends hrest), h' _ _ hrest, List.reverse_append,
    List.append_assoc]

lemma Takes.refl (a : Building) : Takes [] a a := ⟨[], fun _ _ _ => rfl, rfl⟩

lemma Takes.append (h : Takes cs a b) (h' : Takes cs' b c) (hends : EndsWord cs') :
    Takes (cs ++ cs') a c := by
  obtain ⟨ts, hspells, hbuilds⟩ := h
  obtain ⟨ts', hspells', hbuilds'⟩ := h'
  refine ⟨ts ++ ts', hspells.append hspells' hends, ?_⟩
  rw [List.foldlM_append, hbuilds]
  exact hbuilds'

lemma endsWord_mark {mark : Char} {m : Token} (h : Token.mark? mark = some m) :
    EndsWord (mark :: cs) := by
  intro c hc
  cases hc
  rw [isBreak, h, Option.isSome_some, Bool.or_true]

/-- A token that ends by itself, in front of a text. -/
lemma Takes.token {word : List Char} {t : Token}
    (hscan : ∀ tokens rest,
      rest? (Scan.between, tokens) (word ++ rest) = rest? (Scan.between, t :: tokens) rest)
    (hstep : Building.step a t = some b) (hrest : Takes cs b c) : Takes (word ++ cs) a c := by
  obtain ⟨ts, hspells, hbuilds⟩ := hrest
  refine ⟨t :: ts, fun tokens rest hrest => ?_, ?_⟩
  · rw [List.append_assoc, hscan, hspells _ _ hrest, List.reverse_cons, List.append_assoc]
    rfl
  · rw [List.foldlM_cons, hstep]
    exact hbuilds

lemma Takes.mark {mark : Char} {m : Token} (h : Token.mark? mark = some m)
    (hstep : Building.step a m = some b) (hrest : Takes cs b c) : Takes (mark :: cs) a c := by
  have hscan : ∀ tokens rest,
      rest? (Scan.between, tokens) ([mark] ++ rest) = rest? (Scan.between, m :: tokens) rest :=
    fun _ rest => Scan.rest?_mark h rest
  exact .token hscan hstep hrest

lemma Takes.close {mark : Char} {m : Token} (h : Token.mark? mark = some m)
    (hstep : Building.step a m = some b) : Takes [mark] a b :=
  .mark h hstep (.refl b)

lemma Takes.quoted {s : String} (hstep : Building.step a (.text s) = some b) (hrest : Takes cs b c) :
    Takes (Quoted.quote s.toList ++ cs) a c := by
  refine .token (fun tokens rest => ?_) hstep hrest
  rw [Scan.rest?_quote, String.ofList_toList]

/-! ## Values -/

/-- Reading the text puts the value wherever one is awaited, if that many more containers may be
opened there. -/
def Reads (depth : Nat) (cs : List Char) (v : Json) : Prop :=
  ∀ around, around.length + depth ≤ maxOpen → Takes cs (.value around) (place v around)

/-- A text that reads as a value is read as the value. -/
lemma Reads.read?_eq (h : Reads depth cs v) (hdepth : depth ≤ maxOpen) : read? cs = some v := by
  obtain ⟨ts, hspells, hbuilds⟩ := h [] (by rwa [List.length_nil, Nat.zero_add])
  have hscan : rest? (Scan.between, []) cs = some ts := by
    have hend := hspells [] [] nofun
    rw [List.append_nil, List.append_nil] at hend
    rw [hend]
    show some ts.reverse.reverse = some ts
    rw [List.reverse_reverse]
  have htokens : tokens? cs = some ts := hscan
  rw [read?, htokens, Option.bind_eq_bind, Option.bind_some, hbuilds]
  rfl

lemma Reads.mono {depth' : Nat} (h : Reads depth cs v) (hle : depth ≤ depth') : Reads depth' cs v :=
  fun around hroom => h around (by omega)

/-- A word that has a value reads as this value. -/
lemma reads_word {word : List Char} (hne : word ≠ []) (hword : ∀ c ∈ word, isBreak c = false)
    (h : Token.word? word = some v) : Reads 0 word v := by
  intro around _
  have hspells : Spells word [.word v] := fun _ _ hrest => Scan.rest?_word hne hword h hrest
  exact ⟨[.word v], hspells, rfl⟩

lemma reads_null : Reads 0 "null".toList .null :=
  reads_word (by decide) (by simp [isBreak, Scan.isSpace, Token.mark?]) (if_pos rfl)

lemma reads_bool (b : Bool) : Reads 0 (text (.bool b)) (.bool b) := by
  have hfalse : Reads 0 "false".toList (.bool false) :=
    reads_word (by decide) (by simp [isBreak, Scan.isSpace, Token.mark?]) rfl
  have htrue : Reads 0 "true".toList (.bool true) :=
    reads_word (by decide) (by simp [isBreak, Scan.isSpace, Token.mark?]) rfl
  cases b with
  | false => exact hfalse
  | true => exact htrue

/-- A quoted text reads as the text. -/
lemma reads_quote (s : String) : Reads 0 (Quoted.quote s.toList) (.string s) := by
  intro around _
  have h : Takes (Quoted.quote s.toList ++ []) (.value around) (place (.string s) around) :=
    .quoted rfl (.refl _)
  rwa [List.append_nil] at h

/-- An integer reads as itself. -/
lemma reads_ofInt {n : Int} (h : InWordRange n) :
    Reads 0 (Numeral.ofInt n) (.number (.integer n h)) := by
  refine reads_word ?_ (fun _ => Scan.isBreak_of_mem_ofInt) (Token.word?_ofInt h)
  rw [Numeral.ofInt]
  split
  · exact List.cons_ne_nil _ _
  · exact Numeral.ofNat_ne_nil _

/-! ## Containers -/

lemma intercalate_comma_cons_cons (text other : List Char) (texts : List (List Char)) :
    [','].intercalate (text :: other :: texts) =
      text ++ ',' :: [','].intercalate (other :: texts) := by
  rw [List.intercalate_cons_cons, List.append_assoc]
  rfl

/-- Texts with commas between them are the first one and each other one behind a comma. -/
lemma intercalate_comma_cons (text : List Char) (texts : List (List Char)) :
    [','].intercalate (text :: texts) = text ++ texts.flatMap (',' :: ·) := by
  induction texts generalizing text with
  | nil => rw [List.intercalate_singleton, List.flatMap_nil, List.append_nil]
  | cons other texts ih =>
      rw [intercalate_comma_cons_cons, ih, List.flatMap_cons]
      rfl

/-- Where an item may come first, an item is read as where one must come. -/
lemma Reads.firstItem (h : Reads depth cs v) {around : List Holder}
    (hroom : around.length + (depth + 1) ≤ maxOpen) :
    Takes cs (.firstItem around) (.items [v] around) := by
  obtain ⟨ts, hspells, hbuilds⟩ := h (.item [] :: around) (by rw [List.length_cons]; omega)
  refine ⟨ts, hspells, ?_⟩
  cases ts with
  | nil => cases hbuilds
  | cons t ts =>
      -- The first token of an item does not close the array, so both stages take it alike.
      have hfirst : Building.step (.firstItem around) t =
          Building.step (.value (.item [] :: around)) t := by
        cases t with
        | closeArray => cases hbuilds
        | _ => rfl
      rw [List.foldlM_cons, hfirst]
      exact hbuilds

/-- The items behind the ones that have been read, and the end of their array. -/
lemma takes_items {texts : List (List Char)} {items : List Json}
    (h : List.Forall₂ (Reads depth) texts items) {around : List Holder}
    (hroom : around.length + (depth + 1) ≤ maxOpen) (seen : List Json) :
    Takes (texts.flatMap (',' :: ·) ++ [']']) (.items seen around)
      (place (.array (seen.reverse ++ items)) around) := by
  induction h generalizing seen with
  | nil =>
      rw [List.append_nil]
      exact .close rfl rfl
  | @cons cs v texts items hitem _ ih =>
      have hvalue : Takes cs (.value (.item seen :: around)) (.items (v :: seen) around) :=
        hitem _ (by rw [List.length_cons]; omega)
      have hrest := ih (v :: seen)
      rw [List.reverse_cons, List.append_assoc] at hrest
      rw [List.flatMap_cons, List.append_assoc]
      refine .mark rfl rfl (hvalue.append hrest ?_)
      cases texts <;> exact endsWord_mark rfl

/-- The texts of items read as the array of the items. -/
lemma Reads.array {texts : List (List Char)} {items : List Json}
    (h : List.Forall₂ (Reads depth) texts items) :
    Reads (depth + 1) ('[' :: [','].intercalate texts ++ [']']) (.array items) := by
  intro around hroom
  have hopen : Building.step (.value around) .openArray = some (.firstItem around) :=
    if_pos (by omega)
  cases h with
  | nil => exact .mark rfl hopen (.close rfl rfl)
  | @cons cs v texts items hitem hitems =>
      rw [intercalate_comma_cons, List.cons_append, List.append_assoc]
      refine .mark rfl hopen ((hitem.firstItem hroom).append (takes_items hitems hroom [v]) ?_)
      cases texts <;> exact endsWord_mark rfl

/-- The key of a member, with a text that reads as its value. -/
def IsMemberText (depth : Nat) (w : String × List Char) (m : String × Json) : Prop :=
  w.1 = m.1 ∧ Reads depth w.2 m.2

lemma IsMemberText.takes {w : String × List Char} {m : String × Json}
    (h : IsMemberText depth w m) {seen : List (String × Json)} {around : List Holder}
    (hroom : around.length + (depth + 1) ≤ maxOpen)
    (hkey : ∀ key, Building.step a (.text key) = some (.colon seen key around)) :
    Takes (Quoted.quote w.1.toList ++ ':' :: w.2) a
      (.members (Entries.insert m.1 m.2 seen) around) := by
  obtain ⟨hsame, hvalue⟩ := h
  rw [hsame]
  exact .quoted (hkey m.1) (.mark rfl rfl (hvalue _ (by rw [List.length_cons]; omega)))

/-- The members behind the ones that have been read, and the end of their object. -/
lemma takes_members {written : List (String × List Char)} {members : List (String × Json)}
    (h : List.Forall₂ (IsMemberText depth) written members) {around : List Holder}
    (hroom : around.length + (depth + 1) ≤ maxOpen) (seen : List (String × Json)) :
    Takes
      ((written.map fun w => Quoted.quote w.1.toList ++ ':' :: w.2).flatMap (',' :: ·) ++ ['\x7d'])
      (.members seen around)
      (place (.object (members.foldl (fun ms m => Entries.insert m.1 m.2 ms) seen)) around) := by
  induction h generalizing seen with
  | nil => exact .close rfl rfl
  | @cons w m written members hmember _ ih =>
      rw [List.map_cons, List.flatMap_cons, List.append_assoc]
      have hfirst := hmember.takes (a := .key seen around) hroom fun _ => rfl
      refine .mark rfl rfl (hfirst.append (ih (Entries.insert m.1 m.2 seen)) ?_)
      cases written <;> exact endsWord_mark rfl

/-- The texts of members read as the object of the members. -/
lemma Reads.object {written : List (String × List Char)} {members : List (String × Json)}
    (h : List.Forall₂ (IsMemberText depth) written members) :
    Reads (depth + 1) ('\x7b' :: writtenMembers written ++ ['\x7d']) (ofMembers members) := by
  intro around hroom
  have hopen : Building.step (.value around) .openObject = some (.firstKey around) :=
    if_pos (by omega)
  cases h with
  | nil => exact .mark rfl hopen (.close rfl rfl)
  | @cons w m written members hmember hmembers =>
      rw [writtenMembers, List.map_cons, intercalate_comma_cons, List.cons_append,
        List.append_assoc]
      have hfirst := hmember.takes (a := .firstKey around) hroom fun _ => rfl
      refine .mark rfl hopen (hfirst.append (takes_members hmembers hroom _) ?_)
      cases written <;> exact endsWord_mark rfl

/-! ## Whole values -/

lemma itemsText_eq (items : List Json) : itemsText items = [','].intercalate (items.map text) := by
  induction items with
  | nil => rfl
  | cons v items ih =>
      cases items with
      | nil => exact List.intercalate_singleton.symm
      | cons w items =>
          rw [itemsText, ih]
          exact (intercalate_comma_cons_cons _ _ _).symm

lemma membersText_eq (members : List (String × Json)) :
    membersText members = writtenMembers (members.map fun m => (m.1, m.2.text)) := by
  induction members with
  | nil => rfl
  | cons m members ih =>
      cases members with
      | nil => exact List.intercalate_singleton.symm
      | cons m' members =>
          rw [membersText, ih]
          exact (intercalate_comma_cons_cons _ _ _).symm

/-- A value without doubles, with at most so many containers one in another. -/
inductive IsExact : Nat → Json → Prop where
  | null {depth : Nat} : IsExact depth .null
  | bool {depth : Nat} (b : Bool) : IsExact depth (.bool b)
  | integer {depth : Nat} (n : Int) (inRange : InWordRange n) :
      IsExact depth (.number (.integer n inRange))
  | string {depth : Nat} (s : String) : IsExact depth (.string s)
  | array {depth : Nat} {items : List Json} (h : ∀ x ∈ items, IsExact depth x) :
      IsExact (depth + 1) (.array items)
  | object {depth : Nat} {members : List (String × Json)} (h : ∀ m ∈ members, IsExact depth m.2) :
      IsExact (depth + 1) (.object members)

mutual

/-- The value with the members of all objects in the order of their keys, of which the last one of a
key counts. -/
def inOrder : Json → Json
  | .array items => .array (itemsInOrder items)
  | .object members => ofMembers (membersInOrder members)
  | v => v

/-- The items with their members in order. -/
def itemsInOrder : List Json → List Json
  | [] => []
  | item :: rest => inOrder item :: itemsInOrder rest

/-- The members, where they stand, with the members of their values in order. -/
def membersInOrder : List (String × Json) → List (String × Json)
  | [] => []
  | (key, value) :: rest => (key, inOrder value) :: membersInOrder rest

end

lemma itemsInOrder_eq (items : List Json) : itemsInOrder items = items.map inOrder := by
  induction items with
  | nil => rfl
  | cons item items ih => rw [itemsInOrder, ih, List.map_cons]

lemma membersInOrder_eq (members : List (String × Json)) :
    membersInOrder members = members.map fun m => (m.1, m.2.inOrder) := by
  induction members with
  | nil => rfl
  | cons m members ih =>
      obtain ⟨key, value⟩ := m
      rw [membersInOrder, ih, List.map_cons]

/-- The text of a value without doubles reads as the value. -/
lemma IsExact.reads (h : IsExact depth v) : Reads depth v.text v.inOrder := by
  induction h with
  | null => exact reads_null.mono (Nat.zero_le _)
  | bool b => exact (reads_bool b).mono (Nat.zero_le _)
  | integer n inRange => exact (reads_ofInt inRange).mono (Nat.zero_le _)
  | string s => exact (reads_quote s).mono (Nat.zero_le _)
  | @array depth items _ ih =>
      rw [text, itemsText_eq, inOrder, itemsInOrder_eq]
      refine .array ?_
      rw [List.forall₂_map_left_iff, List.forall₂_map_right_iff, List.forall₂_same]
      exact ih
  | @object depth members _ ih =>
      rw [text, membersText_eq, inOrder, membersInOrder_eq]
      refine .object ?_
      rw [List.forall₂_map_left_iff, List.forall₂_map_right_iff, List.forall₂_same]
      exact fun m hm => ⟨rfl, ih m hm⟩

/-- **A value without doubles is read back** from its text, with its members in order, unless its
containers are nested too deep. -/
theorem IsExact.read?_text (h : IsExact depth v) (hdepth : depth ≤ maxOpen) :
    read? v.text = some v.inOrder :=
  h.reads.read?_eq hdepth

/-- A value that is no container has no members to be put in order. -/
lemma IsExact.inOrder_eq (h : IsExact 0 v) : v.inOrder = v := by
  cases h <;> rfl

lemma IsExact.reads_self (h : IsExact 0 v) : Reads 0 v.text v := by
  have hreads := h.reads
  rwa [h.inOrder_eq] at hreads

/-! ## Line breaks -/

/-- The text has no line breaks, nor other control characters. -/
def Unbroken (cs : List Char) : Prop := ∀ c ∈ cs, 32 ≤ c.toNat

lemma Unbroken.not_mem_newline (h : Unbroken cs) : '\n' ∉ cs := fun hmem =>
  absurd (h _ hmem) (by decide)

lemma unbroken_nil : Unbroken [] := List.forall_mem_nil _

lemma unbroken_cons {c : Char} : Unbroken (c :: cs) ↔ 32 ≤ c.toNat ∧ Unbroken cs :=
  List.forall_mem_cons

lemma unbroken_append : Unbroken (cs ++ cs') ↔ Unbroken cs ∧ Unbroken cs' := List.forall_mem_append

/-- Whatever a character is, what stands for it between quotes has no control characters. -/
lemma unbroken_encodeChar (c : Char) : Unbroken (Quoted.encodeChar c) := by
  have hdigit : ∀ n < 16, 32 ≤ (Quoted.hexDigit n).toNat := by decide
  unfold Quoted.encodeChar
  split_ifs with _ _ _ _ _ _ _ hcontrol
  iterate 7 exact by simp [Unbroken]
  · have hhigh := hdigit (c.toNat / 16) (by omega)
    have hlow := hdigit (c.toNat % 16) (by omega)
    simp [Unbroken, hhigh, hlow]
  · simpa [Unbroken] using hcontrol

lemma unbroken_encode (cs : List Char) : Unbroken (Quoted.encode cs) := by
  intro c hc
  obtain ⟨d, -, hd⟩ := List.mem_flatMap.1 hc
  exact unbroken_encodeChar d c hd

lemma unbroken_quote (cs : List Char) : Unbroken (Quoted.quote cs) := by
  rw [Quoted.quote, List.cons_append, unbroken_cons, unbroken_append, unbroken_cons]
  exact ⟨by decide, unbroken_encode cs, by decide, unbroken_nil⟩

lemma unbroken_ofNat (n : Nat) : Unbroken (Numeral.ofNat n) := by
  intro c hc
  have hdigit : '0'.toNat ≤ c.toNat :=
    (Char.isDigit_iff_toNat.1 (Numeral.isDigit_of_mem_ofNat hc)).1
  exact le_trans (by decide) hdigit

lemma unbroken_ofInt (n : Int) : Unbroken (Numeral.ofInt n) := by
  rw [Numeral.ofInt]
  split
  · exact unbroken_cons.2 ⟨by decide, unbroken_ofNat _⟩
  · exact unbroken_ofNat _

lemma unbroken_intercalate {texts : List (List Char)} (h : ∀ text ∈ texts, Unbroken text) :
    Unbroken ([','].intercalate texts) := by
  cases texts with
  | nil => exact unbroken_nil
  | cons text texts =>
      obtain ⟨htext, htexts⟩ := List.forall_mem_cons.1 h
      rw [intercalate_comma_cons, unbroken_append]
      refine ⟨htext, fun c hc => ?_⟩
      obtain ⟨other, hother, hc⟩ := List.mem_flatMap.1 hc
      exact unbroken_cons.2 ⟨by decide, htexts other hother⟩ c hc

lemma unbroken_writtenMembers {written : List (String × List Char)}
    (h : ∀ w ∈ written, Unbroken w.2) : Unbroken (writtenMembers written) := by
  refine unbroken_intercalate fun text htext => ?_
  obtain ⟨w, hw, rfl⟩ := List.mem_map.1 htext
  rw [unbroken_append, unbroken_cons]
  exact ⟨unbroken_quote _, by decide, h w hw⟩

/-- **A value without doubles is written on one line.** -/
theorem IsExact.unbroken (h : IsExact depth v) : Unbroken v.text := by
  induction h with
  | null => simp [text, Unbroken]
  | bool b => cases b <;> simp [text, Unbroken]
  | integer n inRange => exact unbroken_ofInt n
  | string s => exact unbroken_quote _
  | @array depth items _ ih =>
      rw [text, itemsText_eq, List.cons_append, unbroken_cons, unbroken_append]
      refine ⟨by decide, unbroken_intercalate fun text htext => ?_, by simp [Unbroken]⟩
      obtain ⟨x, hx, rfl⟩ := List.mem_map.1 htext
      exact ih x hx
  | @object depth members _ ih =>
      rw [text, membersText_eq, List.cons_append, unbroken_cons, unbroken_append]
      refine ⟨by decide, unbroken_writtenMembers fun w hw => ?_, by simp [Unbroken]⟩
      obtain ⟨m, hm, rfl⟩ := List.mem_map.1 hw
      exact ih m hm

end Json

end FormValidation
