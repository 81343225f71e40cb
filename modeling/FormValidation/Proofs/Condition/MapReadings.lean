import FormValidation.Condition.Eval
import FormValidation.Proofs.Condition.ExactIntegers

/-!
# The ways to read a map agree

A condition can ask for a key of a map with `in`, read its value as a subscript, as an attribute or
by the method `get`, with a default or without one, and list all keys and all values.  This file
says that these agree on every map and for every key: either all of them find the key, with one and
the same value, which stands among the values where the key stands among the keys (`Value.Finds`),
or none does (`Value.Misses`).

Keys are texts and compare as texts.  A key that spells a date is not found by another spelling of
this date.
-/

namespace FormValidation.Value

/-- All ways to read a map find the value under a key, which stands among the values where the key
stands among the keys. -/
structure Finds (m : KeyMap Value) (k : String) (v : Value) : Prop where
  isIn : Comparison.isIn.holds (.text k) (.map m.entries) = .ok true
  isInKeys : Comparison.isIn.holds (.text k) (.list (m.keys.map .text)) = .ok true
  subscript : (map m.entries).subscript (.text k) = .ok v
  member : (map m.entries).member k = .ok v
  get : (map m.entries).callMethod "get" [.text k] = .ok v
  getOr : ∀ d, (map m.entries).callMethod "get" [.text k, d] = .ok v
  listed : ∃ place : Nat, (∀ i : Nat, (m.keys.map text)[i]? = some (.text k) ↔ i = place) ∧
    m.values[place]? = some v

/-- No way to read a map finds a key: subscript and attribute fail, and the method gives the absent
value or the default. -/
structure Misses (m : KeyMap Value) (k : String) : Prop where
  isIn : Comparison.isIn.holds (.text k) (.map m.entries) = .ok false
  isInKeys : Comparison.isIn.holds (.text k) (.list (m.keys.map .text)) = .ok false
  subscript : (map m.entries).subscript (.text k) = .error (.keyNotFound k)
  member : (map m.entries).member k = .error (.keyNotFound k)
  get : (map m.entries).callMethod "get" [.text k] = .ok .null
  getOr : ∀ d, (map m.entries).callMethod "get" [.text k, d] = .ok d

variable {m : KeyMap Value} {k : String} {v : Value}

/-- A key is an item of the list of all keys if it is bound. -/
lemma holds_isIn_keys (m : KeyMap Value) (k : String) :
    Comparison.isIn.holds (.text k) (.list (m.keys.map .text)) = .ok (m.find? k).isSome := by
  have hany : ((m.keys.map text).any fun candidate => candidate.looseEq (.text k)) =
      (m.find? k).isSome := by
    rw [Bool.eq_iff_iff, ← KeyMap.mem_keys_iff, List.any_map, List.any_eq_true]
    simp [looseEq, same]
  rw [Comparison.holds, contains, hany]

/-- The list of all keys has the order that conditions see. -/
lemma pairwise_keys (m : KeyMap Value) :
    (m.keys.map text).Pairwise fun a b => Comparison.lt.holds a b = .ok true := by
  refine List.pairwise_map.2 (m.pairwise_keys.imp fun {k l} hlt => ?_)
  have hcompare : Ord.compare k l = .lt := compareOfLessAndEq_eq_lt.2 hlt
  simp [Comparison.holds, compare, compareScalars, hcompare, Except.map]

lemma finds_of_find? (h : m.find? k = some v) : Finds m k v := by
  have hentries : Entries.find? k m.entries = some v := h
  obtain ⟨place, hkey, hvalue⟩ := KeyMap.exists_place h
  have hlisted : ∀ i : Nat, (m.keys.map text)[i]? = some (.text k) ↔ i = place := by
    intro i
    rw [← hkey i, List.getElem?_map]
    cases m.keys[i]? <;> simp
  constructor
  case isIn => simp [Comparison.holds, contains, hentries]
  case isInKeys => simp [holds_isIn_keys, h]
  case subscript => simp [subscript, hentries]
  case member => simp [member, hentries]
  case get => simp [callMethod, mapMethod, oneArgument, getOr, hentries, Except.map]
  case getOr => simp [callMethod, mapMethod, getOr, hentries]
  case listed => exact ⟨place, hlisted, hvalue⟩

lemma misses_of_find? (h : m.find? k = none) : Misses m k := by
  have hentries : Entries.find? k m.entries = none := h
  constructor
  case isIn => simp [Comparison.holds, contains, hentries]
  case isInKeys => simp [holds_isIn_keys, h]
  case subscript => simp [subscript, hentries]
  case member => simp [member, hentries]
  case get => simp [callMethod, mapMethod, oneArgument, getOr, hentries, Except.map]
  case getOr => simp [callMethod, mapMethod, getOr, hentries]

/-- **The ways to read a map agree.**  On every map and for every key, `in` on the map and on the
list of its keys, the subscript, the attribute and the method `get` either all find the key, with
the same value, or all miss it.  The keys strictly increase, and there are as many keys and as many
values as the map has entries. -/
theorem map_readings_agree (m : KeyMap Value) (k : String) :
    let whole : Value := .map m.entries
    let keys : List Value := m.keys.map .text
    ((∃ v, Finds m k v) ∨ Misses m k) ∧
      whole.callMethod "keys" [] = .ok (.list keys) ∧
      whole.callMethod "values" [] = .ok (.list m.values) ∧
      (keys.Pairwise fun a b => Comparison.lt.holds a b = .ok true) ∧
      IsExact (callFunction "len" [whole]) m.size ∧
      callFunction "len" [.list keys] = callFunction "len" [whole] ∧
      callFunction "len" [.list m.values] = callFunction "len" [whole] := by
  intro whole keys
  have hfound : (∃ v, Finds m k v) ∨ Misses m k := by
    cases h : m.find? k with
    | some v => exact .inl ⟨v, finds_of_find? h⟩
    | none => exact .inr (misses_of_find? h)
  have hkeys : whole.callMethod "keys" [] = .ok (.list keys) := by
    simp [whole, keys, KeyMap.keys, callMethod, mapMethod, noArguments, Except.map]
  have hlen : ∀ items : List Value, items.length = m.size →
      callFunction "len" [.list items] = callFunction "len" [whole] := by
    intro items hitems
    show ofInt items.length = ofInt m.size
    rw [hitems]
  have hlenKeys : keys.length = m.size := by simp [keys, KeyMap.keys, KeyMap.size]
  have hlenValues : m.values.length = m.size := by simp [KeyMap.values, KeyMap.size]
  exact ⟨hfound, hkeys, rfl, pairwise_keys m, isExact_ofInt _, hlen keys hlenKeys,
    hlen m.values hlenValues⟩

example : (map [("2024-06-15", .int 1)]).subscript (.text "2024-6-15") =
    .error (.keyNotFound "2024-6-15") := rfl

end FormValidation.Value
