import FormValidation.Condition.Eval
import FormValidation.Proofs.Value.Homogeneous

/-!
# Least and greatest values

`min` and `max` go through their candidates once, from the left, and keep the best so far: a
candidate takes its place only if it comes strictly before it, or behind it.  On values of one sort
this gives the first of all candidates that no other one beats (`ValueSort.extremeFrom_toValue`).
The loop keeps exactly that of the candidates that it has seen (`ValueSort.Leads`), which a better
candidate inherits by transitivity.

The candidates are the arguments or, if there is one argument and it is a list, the items of this
list.  So two arguments or more give the same as the list of them.
-/

namespace FormValidation

namespace ValueSort

variable {s : ValueSort} {wanted : Ordering} {x y best : s.Data}

/-- No item of a list beats this one, and it beats all items in front of it.  An item beats another
if comparing them gives the wanted answer. -/
def Leads (wanted : Ordering) (best : s.Data) (items : List s.Data) : Prop :=
  ∃ front back, items = front ++ best :: back ∧ (∀ x ∈ items, s.order x best ≠ wanted) ∧
    ∀ x ∈ front, s.order best x = wanted

/-- Of two items only one beats the other. -/
lemma order_ne_of_eq (hwanted : wanted ≠ .eq) (h : s.order x y = wanted) :
    s.order y x ≠ wanted := by
  rw [s.order_swap x y, h]
  cases wanted with
  | eq => exact absurd rfl hwanted
  | lt | gt => nofun

/-- What beats an item also beats all that this item is not beaten by. -/
lemma order_eq_of_ne (hwanted : wanted ≠ .eq) (hx : s.order x best = wanted)
    (hy : s.order y best ≠ wanted) : s.order x y = wanted := by
  cases wanted with
  | eq => exact absurd rfl hwanted
  | lt =>
      have hle : (s.order best y).isLE = true := by
        rw [s.order_swap y best, Ordering.isLE_swap, ← Ordering.ne_lt_iff_isGE]
        exact hy
      exact Std.TransCmp.lt_of_lt_of_isLE hx hle
  | gt =>
      have hge : (s.order best y).isGE = true := by
        rw [s.order_swap y best, Ordering.isGE_swap, ← Ordering.ne_gt_iff_isLE]
        exact hy
      exact Std.TransCmp.gt_of_gt_of_isGE hx hge

lemma order_self_ne (hwanted : wanted ≠ .eq) (x : s.Data) : s.order x x ≠ wanted := by
  rw [s.order_self x]
  exact hwanted.symm

lemma leads_single (hwanted : wanted ≠ .eq) (x : s.Data) : Leads wanted x [x] :=
  ⟨[], [], rfl, List.forall_mem_singleton.2 (order_self_ne hwanted x), nofun⟩

namespace Leads

variable {seen : List s.Data}

/-- A candidate that beats the best so far leads. -/
lemma beaten (hwanted : wanted ≠ .eq) (h : Leads wanted best seen)
    (hx : s.order x best = wanted) : Leads wanted x (seen ++ [x]) := by
  obtain ⟨-, -, -, hnone, -⟩ := h
  have hbeats : ∀ y ∈ seen, s.order x y = wanted := fun y hy =>
    order_eq_of_ne hwanted hx (hnone y hy)
  have hunbeaten : ∀ y ∈ seen ++ [x], s.order y x ≠ wanted :=
    List.forall_mem_append.2 ⟨fun y hy => order_ne_of_eq hwanted (hbeats y hy),
      List.forall_mem_singleton.2 (order_self_ne hwanted x)⟩
  exact ⟨seen, [], rfl, hunbeaten, hbeats⟩

/-- A candidate that does not beat the best so far changes nothing. -/
lemma kept (h : Leads wanted best seen) (hx : s.order x best ≠ wanted) :
    Leads wanted best (seen ++ [x]) := by
  obtain ⟨front, back, rfl, hnone, hfront⟩ := h
  have hunbeaten : ∀ y ∈ front ++ best :: back ++ [x], s.order y best ≠ wanted :=
    List.forall_mem_append.2 ⟨hnone, List.forall_mem_singleton.2 hx⟩
  exact ⟨front, back ++ [x], List.append_assoc front (best :: back) [x], hunbeaten, hfront⟩

/-- One round of the loop. -/
lemma step (hwanted : wanted ≠ .eq) (h : Leads wanted best seen) (x : s.Data) :
    Leads wanted (if s.order x best = wanted then x else best) (seen ++ [x]) := by
  split
  · rename_i hx
    exact h.beaten hwanted hx
  · rename_i hx
    exact h.kept hx

end Leads

lemma extremeFrom_cons (wanted : Ordering) (best x : s.Data) (rest : List s.Data) :
    Value.extremeFrom wanted (s.toValue best) ((x :: rest).map s.toValue) =
      Value.extremeFrom wanted (s.toValue (if s.order x best = wanted then x else best))
        (rest.map s.toValue) := by
  rw [List.map_cons, Value.extremeFrom, s.compare_toValue, apply_ite s.toValue]

/-- **The loop finds the first item that no other one beats.** -/
lemma extremeFrom_toValue (hwanted : wanted ≠ .eq) {seen : List s.Data}
    (h : Leads wanted best seen) (rest : List s.Data) :
    ∃ m, Value.extremeFrom wanted (s.toValue best) (rest.map s.toValue) = .ok (s.toValue m) ∧
      Leads wanted m (seen ++ rest) := by
  induction rest generalizing best seen with
  | nil => exact ⟨best, rfl, by rwa [List.append_nil]⟩
  | cons x rest ih =>
      rw [extremeFrom_cons, List.append_cons]
      exact ih (h.step hwanted x)

end ValueSort

namespace Value

variable {s : ValueSort} {wanted : Ordering}

/-- The value is the first item that is on one side of all items, for `≤` or `≥`. -/
def FirstOf (op : Comparison) (m : Value) (items : List Value) : Prop :=
  ∃ front back, items = front ++ m :: back ∧ (∀ x ∈ items, op.holds m x = .ok true) ∧
    ∀ x ∈ front, ∃ y ∈ items, op.holds x y ≠ .ok true

/-- An item that leads is the first on the side of the comparison that says that an item is not
beaten. -/
lemma firstOf_of_leads {op : Comparison} {m : s.Data} {xs : List s.Data}
    (hop : ∀ x y : s.Data, op.holds (s.toValue x) (s.toValue y) = .ok true ↔ s.order y x ≠ wanted)
    (h : s.Leads wanted m xs) : FirstOf op (s.toValue m) (xs.map s.toValue) := by
  obtain ⟨front, back, rfl, hnone, hfront⟩ := h
  refine ⟨front.map s.toValue, back.map s.toValue, List.map_append, ?_, ?_⟩
  · exact List.forall_mem_map.2 fun x hx => (hop m x).2 (hnone x hx)
  · refine List.forall_mem_map.2 fun x hx => ⟨s.toValue m, ?_, mt (hop x m).1 ?_⟩
    · exact List.mem_map_of_mem (List.mem_append_right front List.mem_cons_self)
    · exact not_not_intro (hfront x hx)

lemma exists_extreme {op : Comparison} (hwanted : wanted ≠ .eq)
    (hop : ∀ x y : s.Data, op.holds (s.toValue x) (s.toValue y) = .ok true ↔ s.order y x ≠ wanted)
    (name : String) {items : List Value} (hne : items ≠ []) (hitems : ∀ x ∈ items, OfSort s x) :
    ∃ m, extreme name wanted [.list items] = .ok m ∧ FirstOf op m items := by
  obtain ⟨xs, rfl⟩ := ValueSort.exists_map_toValue fun x hx => (hitems x hx).exists_data
  obtain ⟨x, rest, rfl⟩ := List.exists_cons_of_ne_nil (mt (congrArg (List.map s.toValue)) hne)
  obtain ⟨m, hm, hleads⟩ := ValueSort.extremeFrom_toValue hwanted (s.leads_single hwanted x) rest
  exact ⟨s.toValue m, hm, firstOf_of_leads hop hleads⟩

lemma exists_min {items : List Value} (hne : items ≠ []) (hitems : ∀ x ∈ items, OfSort s x) :
    ∃ m, callFunction "min" [.list items] = .ok m ∧ FirstOf .le m items := by
  have hop : ∀ x y : s.Data,
      Comparison.le.holds (s.toValue x) (s.toValue y) = .ok true ↔ s.order y x ≠ .lt := by
    intro x y
    rw [holds_le_toValue, s.order_swap x y, ne_eq, Ordering.ne_lt_iff_isGE, Ordering.isGE_swap]
  have hstrict : Ordering.lt ≠ .eq := nofun
  exact exists_extreme hstrict hop "min" hne hitems

lemma exists_max {items : List Value} (hne : items ≠ []) (hitems : ∀ x ∈ items, OfSort s x) :
    ∃ m, callFunction "max" [.list items] = .ok m ∧ FirstOf .ge m items := by
  have hop : ∀ x y : s.Data,
      Comparison.ge.holds (s.toValue x) (s.toValue y) = .ok true ↔ s.order y x ≠ .gt := by
    intro x y
    rw [holds_ge_toValue, s.order_swap x y, ne_eq, Ordering.ne_gt_iff_isLE, Ordering.isLE_swap]
  have hstrict : Ordering.gt ≠ .eq := nofun
  exact exists_extreme hstrict hop "max" hne hitems

/-- Two candidates or more may be given one by one or as a list. -/
lemma extreme_several (name : String) (wanted : Ordering) (v w : Value) (rest : List Value) :
    extreme name wanted (v :: w :: rest) = extreme name wanted [.list (v :: w :: rest)] := by
  cases v <;> rfl

end Value

namespace Expr

lemma evalAll_list (c : Context) (items : List Expr) :
    evalAll c [list items] = (evalAll c items).map fun vs => [.list vs] := by
  rw [evalAll, evalAll, eval]
  cases evalAll c items <;> rfl

/-- If a function does not tell its arguments from a list of them, neither does its call. -/
lemma eval_call_list {name : String}
    (hname : ∀ (v w : Value) (rest : List Value),
      callFunction name (v :: w :: rest) = callFunction name [.list (v :: w :: rest)])
    (c : Context) (first second : Expr) (rest : List Expr) :
    (call name (first :: second :: rest)).eval c =
      (call name [.list (first :: second :: rest)]).eval c := by
  rw [eval, eval, evalAll_list, evalAll, evalAll]
  cases first.eval c with
  | error fault => rfl
  | ok v =>
      cases second.eval c with
      | error fault => rfl
      | ok w =>
          cases evalAll c rest with
          | error fault => rfl
          | ok vs => exact hname v w vs

end Expr

namespace Value

/-- **Homogeneous data are totally preordered, and `min` and `max` find the first extreme.**  On
the values of one sort comparing succeeds, gives the reverse the other way round, is transitive and
puts a list before all lists that go on behind it.  So on a list of one or more values of one sort
`min` gives the first that is at most as great as all of them, and `max` the first that is at least
as great.  Several arguments, of whatever types and with whatever faults, give the same as the list
of them. -/
theorem homogeneous_extremes (s : ValueSort) :
    (∀ a b, OfSort s a → OfSort s b →
      ∃ ordering, a.compare b = .ok ordering ∧ b.compare a = .ok ordering.swap) ∧
    (∀ a b c, OfSort s a → OfSort s b → OfSort s c →
      Comparison.le.holds a b = .ok true → Comparison.le.holds b c = .ok true →
        Comparison.le.holds a c = .ok true) ∧
    (∀ front back, OfSort s (.list (front ++ back)) → back ≠ [] →
      (list front).compare (.list (front ++ back)) = .ok .lt) ∧
    (∀ items, items ≠ [] → (∀ x ∈ items, OfSort s x) →
      (∃ m, callFunction "min" [.list items] = .ok m ∧ FirstOf .le m items) ∧
        ∃ m, callFunction "max" [.list items] = .ok m ∧ FirstOf .ge m items) ∧
    (∀ (v w : Value) (rest : List Value),
      callFunction "min" (v :: w :: rest) = callFunction "min" [.list (v :: w :: rest)] ∧
        callFunction "max" (v :: w :: rest) = callFunction "max" [.list (v :: w :: rest)]) ∧
    ∀ (context : Context) (first second : Expr) (rest : List Expr),
      (Expr.call "min" (first :: second :: rest)).eval context =
          (Expr.call "min" [.list (first :: second :: rest)]).eval context ∧
        (Expr.call "max" (first :: second :: rest)).eval context =
          (Expr.call "max" [.list (first :: second :: rest)]).eval context := by
  have hmin : ∀ (v w : Value) (rest : List Value),
      callFunction "min" (v :: w :: rest) = callFunction "min" [.list (v :: w :: rest)] :=
    extreme_several "min" .lt
  have hmax : ∀ (v w : Value) (rest : List Value),
      callFunction "max" (v :: w :: rest) = callFunction "max" [.list (v :: w :: rest)] :=
    extreme_several "max" .gt
  exact ⟨fun a b => compare_of_sort, fun a b c => le_trans_of_sort, fun front back => compare_append,
    fun items hne hitems => ⟨exists_min hne hitems, exists_max hne hitems⟩,
    fun v w rest => ⟨hmin v w rest, hmax v w rest⟩,
    fun context first second rest => ⟨Expr.eval_call_list hmin context first second rest,
      Expr.eval_call_list hmax context first second rest⟩⟩

/-- Lists of moments, of which the second and the third hold the same instant in different offsets:
`min` gives the second, which comes before the fourth since this goes on behind it. -/
theorem homogeneous_extremes_offsets :
    let early : Value := .moment ⟨0, 0⟩
    let shifted : Value := .moment ⟨0, 3600⟩
    let late : Value := .moment ⟨1, 0⟩
    let items : List Value := [.list [late], .list [early], .list [shifted], .list [early, late]]
    callFunction "min" [.list items] = .ok (.list [early]) ∧ FirstOf .le (.list [early]) items ∧
      (list [early]).compare (.list [early, late]) = .ok .lt := by
  intro early shifted late items
  have hone : ∀ m : Moment, OfSort (.list .moment) (.list [.moment m]) := fun m =>
    .list (List.forall_mem_singleton.2 (.moment m))
  have htwo : OfSort (.list .moment) (.list [early, late]) :=
    .list (List.forall_mem_cons.2 ⟨.moment _, List.forall_mem_singleton.2 (.moment _)⟩)
  have hitems : ∀ x ∈ items, OfSort (.list .moment) x := by
    simp only [items, List.forall_mem_cons, List.not_mem_nil]
    exact ⟨hone _, hone _, hone _, htwo, nofun⟩
  obtain ⟨-, -, hprefix, hextremes, -, -⟩ := homogeneous_extremes (.list .moment)
  obtain ⟨⟨m, hm, hfirst⟩, -⟩ := hextremes items (List.cons_ne_nil _ _) hitems
  have hvalue : callFunction "min" [.list items] = .ok (.list [early]) := rfl
  obtain rfl : Value.list [early] = m := Except.ok.inj (hvalue.symm.trans hm)
  exact ⟨hvalue, hfirst, hprefix [early] [late] htwo (List.cons_ne_nil _ _)⟩

end Value

end FormValidation
