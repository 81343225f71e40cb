import FormValidation.Condition.Eval
import FormValidation.Proofs.Condition.ExactIntegers

/-!
# Subscripts, lengths and sums of sequences

Texts and lists can be indexed, measured and joined, by functions that know nothing of each other.
This file says that they speak of the same elements (`Value.elements?`): the items of a list, and
the characters of a text, not its bytes.

An index is a word of 64 bits and is brought into range in such words.  A negative one is added to
the length, which never overflows, since the length is not negative (`Value.toInt_placeOf`).  So all
indices are treated as whole numbers, down to the least one.
-/

namespace FormValidation.Value

/-- What a sequence consists of: the items of a list, and the characters of a text, each as a text
of its own. -/
def elements? : Value → Option (List Value)
  | .text s => some (s.toList.map fun c => .text (String.singleton c))
  | .list items => some items
  | _ => none

/-- The place that an index names among so many elements, in whole numbers. -/
def placeAmong (count index : Int) : Int := if index < 0 then count + index else index

/-- The outcome is the element that an index names, or a fault if there is no such element. -/
def IsElementAt {α : Type} (xs : List α) (i : Int64) (outcome : Except Fault α) : Prop :=
  (-(xs.length : Int) ≤ i.toInt ∧ i.toInt < xs.length →
      ∃ v, outcome = .ok v ∧ xs[(placeAmong xs.length i.toInt).toNat]? = some v) ∧
    (¬ (-(xs.length : Int) ≤ i.toInt ∧ i.toInt < xs.length) →
      outcome = .error (.indexOutOfRange i))

variable {a b : Value} {xs ys : List Value}

/-! ## Subscripts -/

/-- Counting from the end does not overflow. -/
lemma toInt_placeOf (i : Int64) {count : Int64} (h : 0 ≤ count.toInt) :
    (placeOf i count).toInt = placeAmong count.toInt i.toInt := by
  have hlow := i.le_toInt
  have hhigh := count.toInt_lt
  simp only [placeOf, placeAmong, Int64.lt_iff_toInt_lt, Int64.toInt_zero]
  split
  · rw [Int64.toInt_add]
    apply Int.bmod_eq_of_le <;> omega
  · rfl

lemma toInt_placeOf_ofNat (i : Int64) {n : Nat} (h : n < 2 ^ 63) :
    (placeOf i (Int64.ofNat n)).toInt = placeAmong n i.toInt := by
  have hcount : (Int64.ofNat n).toInt = n := Int64.toInt_ofNat_of_lt h
  rw [toInt_placeOf i (by omega), hcount]

lemma resolveIndex_eq (i : Int64) {n : Nat} (h : n < 2 ^ 63) :
    resolveIndex i n =
      if 0 ≤ placeAmong n i.toInt ∧ placeAmong n i.toInt < n then
        .ok (placeAmong n i.toInt).toNat
      else .error (.indexOutOfRange i) := by
  have hcount : int64? (n : Int) = some (Int64.ofNat n) := by
    rw [int64?, Int64.toInt_minValue, Int64.toInt_maxValue, if_pos (by omega), Int64.ofInt_eq_ofNat]
  rw [resolveIndex, hcount]
  simp only [Int64.le_iff_toInt_le, Int64.lt_iff_toInt_lt, toInt_placeOf_ofNat i h,
    Int64.toInt_ofNat_of_lt h, Int64.toInt_zero]

lemma isElementAt_item {α : Type} (i : Int64) {items : List α} (h : items.length < 2 ^ 63) :
    IsElementAt items i (item i items) := by
  have hrange : (0 ≤ placeAmong items.length i.toInt ∧
      placeAmong items.length i.toInt < items.length) ↔
        -(items.length : Int) ≤ i.toInt ∧ i.toInt < items.length := by
    unfold placeAmong
    split <;> omega
  rw [item, resolveIndex_eq i h]
  constructor
  · intro hindex
    have hplace := hrange.2 hindex
    have hlt : (placeAmong items.length i.toInt).toNat < items.length := by omega
    have hfound := List.getElem?_eq_getElem hlt
    rw [if_pos hplace]
    exact ⟨_, by simp only [hfound], hfound⟩
  · intro hindex
    rw [if_neg (mt hrange.1 hindex)]

/-- **Subscripts give elements.** -/
lemma isElementAt_subscript (ha : a.elements? = some xs) (h : xs.length < 2 ^ 63) (i : Int64) :
    IsElementAt xs i (a.subscript (.int i)) := by
  cases a with
  | text s =>
      cases ha
      rw [List.length_map] at h
      obtain ⟨hinside, houtside⟩ := isElementAt_item i h
      rw [IsElementAt, List.length_map, subscript]
      constructor
      · intro hindex
        obtain ⟨c, hc, hplace⟩ := hinside hindex
        rw [hc, List.getElem?_map, hplace]
        exact ⟨_, rfl, rfl⟩
      · intro hindex
        rw [houtside hindex]
        rfl
  | list items =>
      cases ha
      exact isElementAt_item i h
  | _ => cases ha

/-- What an index that is not negative gives. -/
lemma IsElementAt.eq_of_nonneg {i : Int64} {outcome : Except Fault Value}
    (h : IsElementAt xs i outcome) (hi : 0 ≤ i.toInt) :
    outcome = match xs[i.toInt.toNat]? with
      | some v => .ok v
      | none => .error (.indexOutOfRange i) := by
  by_cases hindex : i.toInt < xs.length
  · obtain ⟨v, hv, hplace⟩ := h.1 (by omega)
    rw [placeAmong, if_neg (by omega)] at hplace
    rw [hv, hplace]
  · rw [h.2 (by omega), List.getElem?_eq_none (by omega)]

/-! ## Lengths -/

lemma len_eq (ha : a.elements? = some xs) : callFunction "len" [a] = ofInt xs.length := by
  cases a with
  | text s =>
      cases ha
      rw [List.length_map]
      rfl
  | list items =>
      cases ha
      rfl
  | _ => cases ha

/-- A sum of lengths overflows where one of them does, or where they do not but their sum does. -/
lemma ofInt_add (m n : Nat) :
    ofInt ((m : Int) + n) = (do
      let v ← ofInt m
      let w ← ofInt n
      Arithmetic.add.apply v w) := by
  have hlarge : ∀ k : Nat, k ≤ m + n → ¬ FitsInt k → ofInt ((m : Int) + n) = .error .overflow := by
    intro k hk hfits
    apply (isExact_ofInt _).2
    unfold FitsInt at hfits ⊢
    omega
  by_cases hm : FitsInt m
  · obtain ⟨v, hv, hleft⟩ := (isExact_ofInt m).1 hm
    by_cases hn : FitsInt n
    · obtain ⟨w, hw, hright⟩ := (isExact_ofInt n).1 hn
      rw [hleft, hright, ← hv, ← hw]
      rfl
    · rw [hlarge n (by omega) hn, hleft, (isExact_ofInt n).2 hn]
      rfl
  · rw [hlarge m (by omega) hm, (isExact_ofInt m).2 hm]
    rfl

/-! ## Sums -/

/-- Two texts or two lists can be joined, and their elements are joined. -/
lemma exists_joined (hkind : a.kind = b.kind) (ha : a.elements? = some xs)
    (hb : b.elements? = some ys) :
    ∃ joined, Arithmetic.add.apply a b = .ok joined ∧ joined.elements? = some (xs ++ ys) := by
  cases a with
  | text s =>
      cases b with
      | text t =>
          cases ha
          cases hb
          refine ⟨.text (s ++ t), rfl, ?_⟩
          rw [elements?, String.toList_append, List.map_append]
      | _ => cases hkind
  | list items =>
      cases b with
      | list more =>
          cases ha
          cases hb
          exact ⟨_, rfl, rfl⟩
      | _ => cases hkind
  | _ => cases ha

/-- An index that is not negative and not beyond the sequence on the left, less its length. -/
lemma exists_sub_len (ha : a.elements? = some xs) {i : Int64} (hi : xs.length ≤ i.toInt) :
    ∃ j : Int64, j.toInt = i.toInt - xs.length ∧ (do
      let n ← callFunction "len" [a]
      Arithmetic.sub.apply (.int i) n) = .ok (.int j) := by
  have hhigh := i.toInt_lt
  obtain ⟨n, hn, hlen⟩ := (isExact_ofInt xs.length).1 (by unfold FitsInt; omega)
  obtain ⟨j, hj, hsub⟩ := (isExact_ofInt (i.toInt - xs.length)).1 (by unfold FitsInt; omega)
  refine ⟨j, hj, ?_⟩
  rw [len_eq ha, hlen, ← hsub, ← hn]
  rfl

lemma eq_list_of_kind (ha : a.elements? = some xs) (hlist : a.kind = .list) : a = .list xs := by
  cases a with
  | list items =>
      cases ha
      rfl
  | _ => cases hlist

/-- What is in a sum of lists is in one of the lists. -/
lemma holds_isIn_append (x : Value) (xs ys : List Value) :
    ∃ p q, Comparison.isIn.holds x (.list xs) = .ok p ∧
      Comparison.isIn.holds x (.list ys) = .ok q ∧
      Comparison.isIn.holds x (.list (xs ++ ys)) = .ok (p || q) := by
  refine ⟨_, _, rfl, rfl, ?_⟩
  rw [Comparison.holds, contains, List.any_append]

section

variable {joined : Value} {i : Int64}

lemma subscript_joined_left (ha : a.elements? = some xs)
    (hjoined : joined.elements? = some (xs ++ ys)) (h : xs.length + ys.length < 2 ^ 63)
    (hi : 0 ≤ i.toInt) (hleft : i.toInt < xs.length) :
    joined.subscript (.int i) = a.subscript (.int i) := by
  have hwhole := isElementAt_subscript hjoined (by rwa [List.length_append]) i
  have hpart := isElementAt_subscript ha (by omega) i
  rw [hwhole.eq_of_nonneg hi, hpart.eq_of_nonneg hi, List.getElem?_append_left (by omega)]

/-- Beyond the sequence on the left there is what the other one has, and nothing where it has
nothing; the faults name the index that was asked for. -/
lemma subscript_joined_right (hb : b.elements? = some ys)
    (hjoined : joined.elements? = some (xs ++ ys)) (h : xs.length + ys.length < 2 ^ 63) {j : Int64}
    (hj : j.toInt = i.toInt - xs.length) (hi : xs.length ≤ i.toInt) :
    (joined.subscript (.int i)).toOption = (b.subscript (.int j)).toOption := by
  have hwhole := isElementAt_subscript hjoined (by rwa [List.length_append]) i
  have hpart := isElementAt_subscript hb (by omega) j
  have hplace : i.toInt.toNat - xs.length = j.toInt.toNat := by omega
  rw [hwhole.eq_of_nonneg (by omega), hpart.eq_of_nonneg (by omega),
    List.getElem?_append_right (by omega), hplace]
  cases ys[j.toInt.toNat]? <;> rfl

end

/-- **Subscripts, lengths and sums agree**, on two texts and on two lists.  A subscript gives the
element that the index names, which a negative index counts from the end, and is out of range
otherwise; `len` counts these elements.  The sum has the elements of the one and then those of the
other, for `len`, for subscripts and, if it is a list, for `in`. -/
theorem sequence_parts_agree {a b : Value} {xs ys : List Value} (hkind : a.kind = b.kind)
    (ha : a.elements? = some xs) (hb : b.elements? = some ys) :
    (xs.length < 2 ^ 63 → ∀ i : Int64, IsElementAt xs i (a.subscript (.int i)) ∧
      (placeOf i (Int64.ofNat xs.length)).toInt = placeAmong xs.length i.toInt) ∧
    IsExact (callFunction "len" [a]) xs.length ∧
    ∃ joined, Arithmetic.add.apply a b = .ok joined ∧ joined.elements? = some (xs ++ ys) ∧
      callFunction "len" [joined] = (do
        let m ← callFunction "len" [a]
        let n ← callFunction "len" [b]
        Arithmetic.add.apply m n) ∧
      (xs.length + ys.length < 2 ^ 63 → ∀ i : Int64, 0 ≤ i.toInt →
        (i.toInt < xs.length → joined.subscript (.int i) = a.subscript (.int i)) ∧
        (xs.length ≤ i.toInt → ∃ j : Int64, (do
            let n ← callFunction "len" [a]
            Arithmetic.sub.apply (.int i) n) = .ok (.int j) ∧
          (joined.subscript (.int i)).toOption = (b.subscript (.int j)).toOption)) ∧
      (a.kind = .list → ∀ x, ∃ p q, Comparison.isIn.holds x a = .ok p ∧
        Comparison.isIn.holds x b = .ok q ∧ Comparison.isIn.holds x joined = .ok (p || q)) := by
  have hlen : IsExact (callFunction "len" [a]) xs.length := by
    rw [len_eq ha]
    exact isExact_ofInt _
  obtain ⟨joined, hadd, hjoined⟩ := exists_joined hkind ha hb
  refine ⟨fun h i => ⟨isElementAt_subscript ha h i, toInt_placeOf_ofNat i h⟩, hlen,
    joined, hadd, hjoined, ?_, fun h i hi => ⟨?_, ?_⟩, ?_⟩
  · rw [len_eq ha, len_eq hb, len_eq hjoined, List.length_append, Nat.cast_add, ofInt_add]
  · exact subscript_joined_left ha hjoined h hi
  · intro hright
    obtain ⟨j, hj, hsub⟩ := exists_sub_len ha hright
    exact ⟨j, hsub, subscript_joined_right hb hjoined h hj hright⟩
  · intro hlist x
    obtain rfl := eq_list_of_kind ha hlist
    obtain rfl := eq_list_of_kind hb hkind.symm
    cases hadd
    exact holds_isIn_append x xs ys

/-- Two texts with characters of two and four bytes: an index from the end of the first, and one
beyond it. -/
theorem sequence_parts_agree_bytes :
    (text "é😀").kind = (text "xy").kind ∧
    (text "é😀").elements? = some [.text "é", .text "😀"] ∧
    (text "xy").elements? = some [.text "x", .text "y"] ∧
    (text "é😀").subscript (.int (-2)) = .ok (.text "é") ∧
    ((text "é😀xy").subscript (.int 3)).toOption = ((text "xy").subscript (.int 1)).toOption := by
  have hleft : (text "é😀").elements? = some [.text "é", .text "😀"] := rfl
  have hright : (text "xy").elements? = some [.text "x", .text "y"] := rfl
  have hkind : (text "é😀").kind = (text "xy").kind := rfl
  obtain ⟨hitems, -, joined, hadd, -, -, hsum, -⟩ := sequence_parts_agree hkind hleft hright
  cases hadd
  obtain ⟨v, hv, hplace⟩ := (hitems (by decide) (-2)).1.1 (by decide)
  cases hplace
  obtain ⟨j, hj, hbehind⟩ := (hsum (by decide) 3 (by decide)).2 (by decide)
  cases hj
  exact ⟨hkind, hleft, hright, hv, hbehind⟩

end FormValidation.Value
