import FormValidation.Proofs.Value.OrderAgreement
import Mathlib

/-!
# The order of homogeneous data

Two values of unlike types rarely have an order, and where they have one it need not be transitive:
numbers compare through their nearest doubles, and texts are compared with dates by what they
spell but with other texts by their characters.  Among values of one sort (`ValueSort`) comparing
never fails and is a total preorder.

A value of a sort has nothing to it but its data (`Value.OfSort.exists_data`), which are a plain
type for each sort, down to the items of lists within lists, and compare as the values do
(`ValueSort.compare_toValue`).  So the laws of the order are those of the orders of integers, truth
values, texts, dates and instants, and of comparing lists of ordered items by their first
difference.
-/

namespace FormValidation

/-- The sorts of data that have an order. -/
inductive ValueSort where
  | int
  | bool
  | text
  | date
  | moment
  /-- Lists with items of one sort. -/
  | list (item : ValueSort)

/-- The value is of a sort; an empty list is of every sort of lists. -/
inductive Value.OfSort : ValueSort → Value → Prop
  | int (n : Int64) : OfSort .int (.int n)
  | bool (b : Bool) : OfSort .bool (.bool b)
  | text (s : String) : OfSort .text (.text s)
  | date (d : Date) : OfSort .date (.date d)
  | moment (m : Moment) : OfSort .moment (.moment m)
  | list {item : ValueSort} {items : List Value} (h : ∀ x ∈ items, OfSort item x) :
      OfSort (.list item) (.list items)

namespace ValueSort

/-- What tells the values of a sort apart. -/
def Data : ValueSort → Type
  | int => Int64
  | bool => Bool
  | text => String
  | date => Date
  | moment => Moment
  | list item => List item.Data

/-- The value of some data. -/
def toValue : (s : ValueSort) → s.Data → Value
  | int, n => .int n
  | bool, b => .bool b
  | text, t => .text t
  | date, d => .date d
  | moment, m => .moment m
  | list item, xs => .list (xs.map item.toValue)

/-- The order of data. -/
def order : (s : ValueSort) → s.Data → s.Data → Ordering
  | int => compareOn Int64.toInt
  | bool => fun a b : Bool => Ord.compare a b
  | text => fun a b : String => Ord.compare a b
  | date => Date.compare
  | moment => compareOn Moment.instant
  | list item => List.compareLex item.order

instance : Std.TransCmp Date.compare :=
  inferInstanceAs (Std.TransCmp (compareLex (compareOn Date.year)
    (compareLex (compareOn Date.month) (compareOn Date.day))))

instance transCmp_order : ∀ s : ValueSort, Std.TransCmp s.order
  | int => inferInstanceAs (Std.TransCmp (compareOn Int64.toInt))
  | bool => inferInstanceAs (Std.TransOrd Bool)
  | text => inferInstanceAs (Std.TransOrd String)
  | date => inferInstanceAs (Std.TransCmp Date.compare)
  | moment => inferInstanceAs (Std.TransCmp (compareOn Moment.instant))
  | list item =>
    have := transCmp_order item
    inferInstanceAs (Std.TransCmp (List.compareLex item.order))

lemma order_swap (s : ValueSort) (x y : s.Data) : s.order y x = (s.order x y).swap :=
  Std.OrientedCmp.eq_swap

lemma order_self (s : ValueSort) (x : s.Data) : s.order x x = .eq := Std.ReflCmp.compare_self

/-- If the items of lists compare as their data do, so do the lists. -/
lemma compareItems_map {s : ValueSort}
    (hitems : ∀ x y : s.Data, (s.toValue x).compare (s.toValue y) = .ok (s.order x y)) :
    ∀ xs ys : List s.Data, Value.compareItems (xs.map s.toValue) (ys.map s.toValue) =
      .ok (List.compareLex s.order xs ys)
  | [], [] | [], _ :: _ | _ :: _, [] => rfl
  | x :: xs, y :: ys => by
      rw [List.map_cons, List.map_cons, Value.compareItems, hitems, List.compareLex_cons_cons,
        compareItems_map hitems xs ys]
      cases s.order x y <;> rfl

/-- Data compare as their values do. -/
lemma compare_toValue (s : ValueSort) (x y : s.Data) :
    (s.toValue x).compare (s.toValue y) = .ok (s.order x y) := by
  induction s with
  | int | bool | text | date | moment => rfl
  | list item ih => exact compareItems_map ih x y

/-- Values that all have data are the values of a list of data. -/
lemma exists_map_toValue {s : ValueSort} {items : List Value}
    (h : ∀ v ∈ items, ∃ x, s.toValue x = v) : ∃ xs : List s.Data, xs.map s.toValue = items := by
  have hrange : items ∈ Set.range (List.map s.toValue) := by
    rw [Set.range_list_map]
    exact h
  exact hrange

end ValueSort

namespace Value

variable {s : ValueSort} {a b c : Value}

lemma OfSort.exists_data (h : OfSort s a) : ∃ x, s.toValue x = a := by
  induction h with
  | int n => exact ⟨n, rfl⟩
  | bool b => exact ⟨b, rfl⟩
  | text s => exact ⟨s, rfl⟩
  | date d => exact ⟨d, rfl⟩
  | moment m => exact ⟨m, rfl⟩
  | list _ ih =>
      obtain ⟨xs, rfl⟩ := ValueSort.exists_map_toValue ih
      exact ⟨xs, rfl⟩

/-! ## The laws -/

/-- Two values of a sort have an order, and the reverse one the other way round. -/
lemma compare_of_sort (ha : OfSort s a) (hb : OfSort s b) :
    ∃ ordering, a.compare b = .ok ordering ∧ b.compare a = .ok ordering.swap := by
  obtain ⟨x, rfl⟩ := ha.exists_data
  obtain ⟨y, rfl⟩ := hb.exists_data
  exact ⟨s.order x y, s.compare_toValue x y, s.order_swap x y ▸ s.compare_toValue y x⟩

lemma holds_le_toValue (x y : s.Data) :
    Comparison.le.holds (s.toValue x) (s.toValue y) = .ok true ↔ (s.order x y).isLE = true := by
  rw [Comparison.holds, s.compare_toValue]
  cases s.order x y <;> simp [Except.map]

lemma holds_ge_toValue (x y : s.Data) :
    Comparison.ge.holds (s.toValue x) (s.toValue y) = .ok true ↔ (s.order x y).isGE = true := by
  rw [Comparison.holds, s.compare_toValue]
  cases s.order x y <;> simp [Except.map]

lemma le_trans_of_sort (ha : OfSort s a) (hb : OfSort s b) (hc : OfSort s c)
    (hab : Comparison.le.holds a b = .ok true) (hbc : Comparison.le.holds b c = .ok true) :
    Comparison.le.holds a c = .ok true := by
  obtain ⟨x, rfl⟩ := ha.exists_data
  obtain ⟨y, rfl⟩ := hb.exists_data
  obtain ⟨z, rfl⟩ := hc.exists_data
  rw [holds_le_toValue] at hab hbc ⊢
  exact Std.TransCmp.isLE_trans hab hbc

lemma compare_self_of_sort (h : OfSort s a) : a.compare a = .ok .eq := by
  obtain ⟨x, rfl⟩ := h.exists_data
  rw [s.compare_toValue, s.order_self]

/-- A list comes before every list that goes on behind it. -/
lemma compareItems_append {front back : List Value} (h : ∀ x ∈ front, OfSort s x)
    (hback : back ≠ []) : compareItems front (front ++ back) = .ok .lt := by
  induction front with
  | nil =>
      obtain ⟨y, ys, rfl⟩ := List.exists_cons_of_ne_nil hback
      rfl
  | cons x front ih =>
      obtain ⟨hx, hfront⟩ := List.forall_mem_cons.1 h
      rw [List.cons_append, compareItems, compare_self_of_sort hx]
      exact ih hfront

lemma compare_append {front back : List Value} (h : OfSort s (.list (front ++ back)))
    (hback : back ≠ []) : (list front).compare (.list (front ++ back)) = .ok .lt := by
  cases h with
  | list hitems =>
      rw [compare]
      exact compareItems_append (fun x hx => hitems x (List.mem_append_left back hx)) hback

end Value

end FormValidation
