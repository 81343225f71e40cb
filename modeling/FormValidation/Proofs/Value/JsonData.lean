import FormValidation.Proofs.Condition.ExactIntegers
import FormValidation.Proofs.Value.KeyedData

/-!
# What JSON data keep as values

A value is taken over from JSON data part by part: nothing is lost of texts, lists and keys, and an
integer that 64 bits with a sign hold stays that integer.  But JSON has integers up to twice as
large, without a sign, and these become doubles.

This file says exactly what is lost by this.  Whatever the data are, `Value.json?` takes them back
from their value, except that each integer beyond the words has been replaced by the nearest double
(`Json.rounded`).  So data are taken back unchanged if and only if all integers within them, at any
depth, fit into a word, and data become the same value if and only if they are the same when rounded
(`Value.ofJson_lossless_iff`).  Two large integers can be, and then no rule can tell the one from the
other (`Value.large_integers_collide`).
-/

namespace FormValidation

instance (z : Int) : Decidable (FitsInt z) := inferInstanceAs (Decidable (_ ∧ _))

lemma inWordRange_toInt (n : Int64) : InWordRange n.toInt := by
  have hlow := n.le_toInt
  have hhigh := n.toInt_lt
  exact ⟨hlow, by omega⟩

/-- An integer is kept as a word exactly if it fits. -/
lemma int64?_eq_ite (z : Int) : int64? z = if FitsInt z then some (Int64.ofInt z) else none := by
  have hrange : (Int64.minValue.toInt ≤ z ∧ z ≤ Int64.maxValue.toInt) ↔ FitsInt z := by
    rw [Int64.toInt_minValue, Int64.toInt_maxValue, FitsInt]
    omega
  rw [int64?]
  exact if_congr hrange rfl rfl

/-! ## The integers within data, and their rounding -/

/-- The number with the nearest double in place of an integer that does not fit into a word. -/
def JsonNumber.rounded : JsonNumber → JsonNumber
  | .integer n inRange => if FitsInt n then .integer n inRange else .real (Float.ofInt n)
  | .real x => .real x

namespace Json

mutual

/-- The integers within JSON data, in the order in which they stand there. -/
def integers : Json → List Int
  | .number (.integer n _) => [n]
  | .array items => itemIntegers items
  | .object members => memberIntegers members
  | _ => []

/-- The integers within a list of JSON data. -/
def itemIntegers : List Json → List Int
  | [] => []
  | item :: rest => integers item ++ itemIntegers rest

/-- The integers within the members of a JSON object. -/
def memberIntegers : List (String × Json) → List Int
  | [] => []
  | (_, item) :: rest => integers item ++ memberIntegers rest

end

mutual

/-- The data with all numbers within them rounded. -/
def rounded : Json → Json
  | .number n => .number n.rounded
  | .array items => .array (roundedItems items)
  | .object members => .object (roundedMembers members)
  | j => j

/-- A list of JSON data, all rounded. -/
def roundedItems : List Json → List Json
  | [] => []
  | item :: rest => rounded item :: roundedItems rest

/-- The members of a JSON object with their values rounded. -/
def roundedMembers : List (String × Json) → List (String × Json)
  | [] => []
  | (key, item) :: rest => (key, rounded item) :: roundedMembers rest

end

lemma itemIntegers_eq (items : List Json) : itemIntegers items = items.flatMap integers := by
  induction items with
  | nil => rfl
  | cons item items ih => rw [itemIntegers, ih, List.flatMap_cons]

lemma memberIntegers_eq (members : List (String × Json)) :
    memberIntegers members = members.flatMap fun m => m.2.integers := by
  induction members with
  | nil => rfl
  | cons m members ih =>
      obtain ⟨key, item⟩ := m
      rw [memberIntegers, ih, List.flatMap_cons]

lemma roundedItems_eq (items : List Json) : roundedItems items = items.map rounded := by
  induction items with
  | nil => rfl
  | cons item items ih => rw [roundedItems, ih, List.map_cons]

lemma roundedMembers_eq (members : List (String × Json)) :
    roundedMembers members = members.map fun m => (m.1, m.2.rounded) := by
  induction members with
  | nil => rfl
  | cons m members ih =>
      obtain ⟨key, item⟩ := m
      rw [roundedMembers, ih, List.map_cons]

lemma map_eq_self_iff {α : Type} {f : α → α} {xs : List α} :
    xs.map f = xs ↔ ∀ x ∈ xs, f x = x := by
  have h := List.map_inj_left (l := xs) (f := f) (g := id)
  rwa [List.map_id] at h

/-- Data stay as they are exactly if all integers within them fit. -/
lemma rounded_eq_self_iff (j : Json) : j.rounded = j ↔ ∀ n ∈ j.integers, FitsInt n := by
  induction j using tree_induction with
  | null => exact iff_of_true rfl nofun
  | bool b => exact iff_of_true rfl nofun
  | string s => exact iff_of_true rfl nofun
  | number n =>
      cases n with
      | real x => exact iff_of_true rfl nofun
      | integer n inRange =>
          rw [rounded, JsonNumber.rounded, integers, List.forall_mem_singleton]
          by_cases hfits : FitsInt n
          · rw [if_pos hfits]
            exact iff_of_true rfl hfits
          · rw [if_neg hfits]
            exact iff_of_false nofun hfits
  | array items ih =>
      rw [rounded, integers, itemIntegers_eq, roundedItems_eq, Json.array.injEq,
        map_eq_self_iff]
      simp only [List.mem_flatMap, forall_exists_index, and_imp]
      constructor
      · intro h n x hx hn
        exact (ih x hx).1 (h x hx) n hn
      · intro h x hx
        exact (ih x hx).2 fun n hn => h n x hx hn
  | object members ih =>
      rw [rounded, integers, memberIntegers_eq, roundedMembers_eq, Json.object.injEq,
        map_eq_self_iff]
      simp only [List.mem_flatMap, forall_exists_index, and_imp]
      constructor
      · intro h n m hm hn
        exact (ih m hm).1 (congrArg Prod.snd (h m hm)) n hn
      · intro h m hm
        exact Prod.ext rfl ((ih m hm).2 fun n hn => h n m hm hn)

end Json

namespace Value

/-! ## Taking data back from their value -/

mutual

/-- The JSON data that a value without dates, moments and clocks is the value of. -/
def json? : Value → Option Json
  | .null => some .null
  | .bool b => some (.bool b)
  | .int n => some (.number (.integer n.toInt (inWordRange_toInt n)))
  | .float x => some (.number (.real x))
  | .text s => some (.string s)
  | .list items => (itemsJson? items).map .array
  | .map entries => (entriesJson? entries).map .object
  | .date _ | .moment _ | .clock _ => none

/-- The JSON data of a list of values. -/
def itemsJson? : List Value → Option (List Json)
  | [] => some []
  | item :: rest => (json? item).bind fun j => (itemsJson? rest).map (j :: ·)

/-- The JSON data of the entries of a map, under their keys. -/
def entriesJson? : List (String × Value) → Option (List (String × Json))
  | [] => some []
  | (key, item) :: rest =>
    (json? item).bind fun j => (entriesJson? rest).map ((key, j) :: ·)

end

lemma itemsJson?_ofItems {items : List Json}
    (h : ∀ x ∈ items, (ofJson x).json? = some x.rounded) :
    itemsJson? (ofItems items) = some (items.map Json.rounded) := by
  induction items with
  | nil => rfl
  | cons item items ih =>
      obtain ⟨hitem, hitems⟩ := List.forall_mem_cons.1 h
      rw [ofItems, itemsJson?, hitem, ih hitems]
      rfl

lemma entriesJson?_ofMembers {members : List (String × Json)}
    (h : ∀ m ∈ members, (ofJson m.2).json? = some m.2.rounded) :
    entriesJson? (ofMembers members) = some (members.map fun m => (m.1, m.2.rounded)) := by
  induction members with
  | nil => rfl
  | cons m members ih =>
      obtain ⟨hmember, hmembers⟩ := List.forall_mem_cons.1 h
      rw [ofMembers, entriesJson?, hmember, ih hmembers]
      rfl

lemma json?_ofNumber (n : JsonNumber) : (ofNumber n).json? = some (.number n.rounded) := by
  cases n with
  | real x => rfl
  | integer n inRange =>
      rw [ofNumber, int64?_eq_ite, JsonNumber.rounded]
      by_cases hfits : FitsInt n
      · have hword : (Int64.ofInt n).toInt = n := Int64.toInt_ofInt_of_le hfits.1 hfits.2
        simp only [if_pos hfits, json?, hword]
      · simp only [if_neg hfits, json?]

/-- **All but the size of large integers** can be taken back. -/
lemma json?_ofJson (j : Json) : (ofJson j).json? = some j.rounded := by
  induction j using Json.tree_induction with
  | null => rfl
  | bool b => rfl
  | string s => rfl
  | number n => exact json?_ofNumber n
  | array items ih =>
      rw [ofJson, json?, itemsJson?_ofItems ih, Json.rounded, Json.roundedItems_eq]
      rfl
  | object members ih =>
      rw [ofJson, json?, entriesJson?_ofMembers ih, Json.rounded, Json.roundedMembers_eq]
      rfl

/-- Rounding data does not change their value. -/
lemma ofJson_rounded (j : Json) : ofJson j.rounded = ofJson j := by
  induction j using Json.tree_induction with
  | null => rfl
  | bool b => rfl
  | string s => rfl
  | number n =>
      cases n with
      | real x => rfl
      | integer n inRange =>
          rw [Json.rounded, JsonNumber.rounded]
          by_cases hfits : FitsInt n
          · rw [if_pos hfits]
          · rw [if_neg hfits, ofJson, ofJson, ofNumber, ofNumber, int64?_eq_ite, if_neg hfits]
  | array items ih =>
      rw [Json.rounded, ofJson, ofJson, ofItems_eq_map, ofItems_eq_map, Json.roundedItems_eq,
        List.map_map]
      exact congrArg Value.list (List.map_congr_left ih)
  | object members ih =>
      rw [Json.rounded, ofJson, ofJson, ofMembers_eq_map, ofMembers_eq_map, Json.roundedMembers_eq,
        List.map_map]
      exact congrArg Value.map (List.map_congr_left fun m hm => Prod.ext rfl (ih m hm))

/-- **What a value keeps of JSON data.**  Data are taken back from their value with all numbers
rounded.  So they are taken back as they were exactly if every integer within them, at whatever
depth, fits into 64 bits with a sign, and two data have the same value exactly if they are the same
when rounded. -/
theorem ofJson_lossless_iff (i j : Json) :
    (ofJson j).json? = some j.rounded ∧
      (j.rounded = j ↔ ∀ n ∈ j.integers, FitsInt n) ∧
      (ofJson i = ofJson j ↔ i.rounded = j.rounded) := by
  refine ⟨json?_ofJson j, Json.rounded_eq_self_iff j, fun h => ?_, fun h => ?_⟩
  · have hback : some i.rounded = some j.rounded := by
      rw [← json?_ofJson, ← json?_ofJson, h]
    exact Option.some.inj hback
  · rw [← ofJson_rounded i, h, ofJson_rounded]

/-- The least integer that does not fit and the one behind it have the same value, which is no
integer. -/
theorem large_integers_collide :
    (ofJson (Json.ofInt 9223372036854775808)).kind = .float ∧
      ofJson (Json.ofInt 9223372036854775808) = ofJson (Json.ofInt 9223372036854775809) ∧
      Json.ofInt 9223372036854775808 ≠ Json.ofInt 9223372036854775809 := by
  have hround : Float.ofInt 9223372036854775808 = Float.ofInt 9223372036854775809 := by
    decide +kernel
  refine ⟨rfl, ?_, ?_⟩
  · show Value.float _ = Value.float _
    rw [hround]
  · intro h
    have hinteger := congrArg Json.int? h
    revert hinteger
    decide

end Value

end FormValidation
