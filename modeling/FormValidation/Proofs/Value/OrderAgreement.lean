import FormValidation.Condition.Arithmetic
import Mathlib.Tactic.Common

/-!
# Order and equality of values

Values are compared by two tables: `Value.looseEq` says which are equal, and `Value.compare` which
comes first, where there is an order at all.  Both widen integers to doubles, read dates and moments
off texts in either direction, and go into lists, but each has rows of its own.  This file says that
they agree: where two values have an order, it is `Ordering.eq` exactly if they are loosely equal.
And the order does not depend on the side: comparing the other way round fails in the same cases
and else gives the reverse.

Both hold for doubles too, since two doubles compare by their signs, exponents and significands
(`compareFloats_eq`), which no infinity, zero or non-number spoils (`unpacked_compare_swap`).  For
all other values that are not lists it is a look at each pair of types that have an order; lists
follow by induction, item by item, up to the first item that differs or has no order.
-/

namespace FormValidation

open Float.Model (UnpackedFloat)

/-! ## Numbers, dates and moments -/

/-- Comparing the parts of two doubles the other way round reverses the answer. -/
lemma unpacked_compare_swap (x y : UnpackedFloat) :
    y.compare x = (x.compare y).map Ordering.swap := by
  cases x <;> cases y
  case finite.finite s m e hm t n f hn =>
    have hmagnitude : (compare f e).then (compare n m) =
        ((compare e f).then (compare m n)).swap := by
      rw [Ordering.swap_then, ← Std.OrientedCmp.eq_swap, ← Std.OrientedCmp.eq_swap]
    cases s <;> cases t
    case positive.positive => exact congrArg some hmagnitude
    case negative.negative => exact congrArg (fun o => some o.swap) hmagnitude
    all_goals rfl
  case infinity.infinity s t => cases s <;> cases t <;> rfl
  case infinity.zero s _ => cases s <;> rfl
  case infinity.finite s _ _ _ _ => cases s <;> rfl
  case zero.infinity _ t => cases t <;> rfl
  case zero.finite _ t _ _ _ => cases t <;> rfl
  case finite.infinity _ _ _ _ t => cases t <;> rfl
  case finite.zero s _ _ _ _ => cases s <;> rfl
  -- Either one is no number, or both are zeros.
  all_goals rfl

/-- Two doubles compare as their parts do. -/
lemma compareFloats_eq (x y : Float) :
    compareFloats x y = x.toModel.unpack.compare y.toModel.unpack := by
  have hlt : ∀ u v : Float, u < v ↔ u.toModel.unpack.compare v.toModel.unpack = some .lt := by
    intro u v
    show decide (u.toModel < v.toModel) = true ↔ _
    rw [decide_eq_true_iff]
    show (u.toModel.unpack.compare v.toModel.unpack == some .lt) = true ↔ _
    rw [beq_iff_eq]
  have heq : (x == y) = (x.toModel.unpack.compare y.toModel.unpack == some .eq) := rfl
  rw [compareFloats]
  simp only [hlt, heq]
  rw [unpacked_compare_swap x.toModel.unpack y.toModel.unpack]
  cases x.toModel.unpack.compare y.toModel.unpack with
  | none => rfl
  | some ordering => cases ordering <;> rfl

lemma compareFloats_swap (x y : Float) :
    compareFloats y x = (compareFloats x y).map Ordering.swap := by
  rw [compareFloats_eq, compareFloats_eq, unpacked_compare_swap]

namespace Date

lemma compare_swap (a b : Date) : b.compare a = (a.compare b).swap := by
  simp only [compare, Ordering.swap_then, ← Std.OrientedCmp.eq_swap]

lemma compare_eq_eq_iff {a b : Date} : a.compare b = .eq ↔ a = b := by
  obtain ⟨year, month, day, h⟩ := a
  obtain ⟨year', month', day', h'⟩ := b
  simp [compare]

end Date

namespace Moment

lemma compare_swap (a b : Moment) : b.compare a = (a.compare b).swap := by
  rw [compare, compare]
  exact Std.OrientedCmp.eq_swap

lemma compare_eq_eq_iff {a b : Moment} : a.compare b = .eq ↔ a.same b = true := by
  simp [compare, same]

lemma same_comm (a b : Moment) : a.same b = b.same a := Bool.beq_comm

end Moment

namespace Value

variable {a b : Value} {ordering : Ordering}

/-! ## Values that are not lists -/

lemma compareNumbers_swap (a b : Value) :
    b.compareNumbers a = (a.compareNumbers b).map Ordering.swap := by
  cases a <;> cases b
  case int.int m n => exact congrArg some Std.OrientedCmp.eq_swap
  case int.float m y => exact compareFloats_swap m.toFloat y
  case float.int x n => exact compareFloats_swap x n.toFloat
  case float.float x y => exact compareFloats_swap x y
  all_goals rfl

/-- Comparing the other way round reverses the answer, if there is one. -/
lemma compareScalars_swap (a b : Value) :
    b.compareScalars a = (a.compareScalars b).map Ordering.swap := by
  have hdate : ∀ (d : Date) (s : String),
      (text s).compareScalars (date d) = ((date d).compareScalars (text s)).map Ordering.swap := by
    intro d s
    simp only [compareScalars, Option.map_map]
    exact congrArg (fun f => (Date.read? s.toList).map f) (funext fun read => d.compare_swap read)
  have hmoment : ∀ (m : Moment) (s : String),
      (text s).compareScalars (moment m) =
        ((moment m).compareScalars (text s)).map Ordering.swap := by
    intro m s
    simp only [compareScalars, Option.map_map]
    exact congrArg (fun f => (Moment.read? s.toList).map f) (funext fun read => m.compare_swap read)
  have hback : ∀ x : Option Ordering, (x.map Ordering.swap).map Ordering.swap = x := by
    intro x
    cases x <;> simp
  cases a <;> cases b
  case bool.bool p q => exact congrArg some Std.OrientedCmp.eq_swap
  case text.text s t => exact congrArg some Std.OrientedCmp.eq_swap
  case date.date d e => exact congrArg some (d.compare_swap e)
  case moment.moment m n => exact congrArg some (m.compare_swap n)
  case date.text d s => exact hdate d s
  case text.date s d => rw [hdate, hback]
  case moment.text m s => exact hmoment m s
  case text.moment s m => rw [hmoment, hback]
  case int.int m n => exact compareNumbers_swap (.int m) (.int n)
  case int.float m y => exact compareNumbers_swap (.int m) (.float y)
  case float.int x n => exact compareNumbers_swap (.float x) (.int n)
  case float.float x y => exact compareNumbers_swap (.float x) (.float y)
  all_goals rfl

lemma spellsDate_iff_of_compareScalars {d : Date} {s : String}
    (h : (date d).compareScalars (text s) = some ordering) :
    spellsDate s d = true ↔ ordering = .eq := by
  obtain ⟨read, hread, rfl⟩ := Option.map_eq_some_iff.1 h
  rw [spellsDate, hread, beq_iff_eq, Date.compare_eq_eq_iff, Option.some_inj, eq_comm]

lemma spellsMoment_iff_of_compareScalars {m : Moment} {s : String}
    (h : (moment m).compareScalars (text s) = some ordering) :
    spellsMoment s m = true ↔ ordering = .eq := by
  obtain ⟨read, hread, rfl⟩ := Option.map_eq_some_iff.1 h
  rw [spellsMoment, hread, Moment.compare_eq_eq_iff, Moment.same_comm]

/-- Where two values that are not lists have an order, they are loosely equal if neither comes
first. -/
lemma looseEq_iff_of_compareScalars (h : a.compareScalars b = some ordering) :
    a.looseEq b = true ↔ ordering = .eq := by
  have hback : b.compareScalars a = some ordering.swap := by rw [compareScalars_swap, h]; rfl
  have hnumbers : (some ordering == some .eq) = true ↔ ordering = .eq := by simp
  cases a <;> cases b
  case int.int m n => rwa [looseEq, show compareNumbers (.int m) (.int n) = _ from h]
  case int.float m y => rwa [looseEq, show compareNumbers (.int m) (.float y) = _ from h]
  case float.int x n => rwa [looseEq, show compareNumbers (.float x) (.int n) = _ from h]
  case float.float x y => rwa [looseEq, show compareNumbers (.float x) (.float y) = _ from h]
  case bool.bool p q =>
    cases h
    simp [looseEq, same]
  case text.text s t =>
    cases h
    simp [looseEq, same]
  case date.date d e =>
    cases h
    simp [looseEq, same, Date.compare_eq_eq_iff]
  case moment.moment m n =>
    cases h
    simp [looseEq, same, Moment.compare_eq_eq_iff]
  case date.text d s =>
    rw [looseEq]
    exact spellsDate_iff_of_compareScalars h
  case text.date s d =>
    rw [looseEq, ← Ordering.swap_eq_eq]
    exact spellsDate_iff_of_compareScalars hback
  case moment.text m s =>
    rw [looseEq]
    exact spellsMoment_iff_of_compareScalars h
  case text.moment s m =>
    rw [looseEq, ← Ordering.swap_eq_eq]
    exact spellsMoment_iff_of_compareScalars hback
  -- The other pairs have no order.
  all_goals cases h

/-! ## Lists -/

/-- Induction on what lists hold. -/
lemma list_induction {p : Value → Prop} (scalar : ∀ v, (∀ xs, v ≠ .list xs) → p v)
    (list : ∀ xs, (∀ x ∈ xs, p x) → p (.list xs)) : ∀ v, p v
  | .list xs => list xs fun x _ => list_induction scalar list x
  | .null | .bool _ | .int _ | .float _ | .text _ | .map _ | .date _ | .moment _ | .clock _ =>
    scalar _ nofun

/-- Two values that are not both lists compare by the rows for the other types. -/
lemma compare_of_ne_list (h : ∀ xs ys, a = .list xs → b ≠ .list ys) :
    a.compare b = match a.compareScalars b with
      | some ordering => .ok ordering
      | none => .error (mismatch .ordering a b) := by
  refine (compare.eq_2 a b h).trans ?_
  cases a.compareScalars b <;> rfl

lemma looseEq_iff_of_ne_list (h : ∀ xs ys, a = .list xs → b ≠ .list ys)
    (hcompare : a.compare b = .ok ordering) : a.looseEq b = true ↔ ordering = .eq := by
  rw [compare_of_ne_list h] at hcompare
  split at hcompare
  · rename_i found hfound
    cases hcompare
    exact looseEq_iff_of_compareScalars hfound
  · cases hcompare

/-- If order and equality agree on the items of a list, they agree on the list. -/
lemma looseEqItems_iff_of_compareItems {xs : List Value}
    (hitems : ∀ x ∈ xs, ∀ (y : Value) (ordering : Ordering), x.compare y = .ok ordering →
      (x.looseEq y = true ↔ ordering = .eq))
    {ys : List Value} (h : compareItems xs ys = .ok ordering) :
    looseEqItems xs ys = true ↔ ordering = .eq := by
  induction xs generalizing ys with
  | nil =>
      cases ys <;> cases h <;> simp [looseEqItems]
  | cons x xs ih =>
      obtain ⟨hx, hxs⟩ := List.forall_mem_cons.1 hitems
      cases ys with
      | nil =>
          cases h
          simp [looseEqItems]
      | cons y ys =>
          rw [compareItems] at h
          rw [looseEqItems, Bool.and_eq_true]
          split at h
          · cases h
          · rename_i heq
            rw [hx y _ heq, ih hxs h, eq_self, true_and]
          · rename_i first hne hfirst
            cases h
            rw [hx y _ hfirst, and_iff_left_of_imp fun heq => absurd heq hne]

/-- **Order and equality agree.**  Where two values have an order, they are loosely equal exactly if
neither comes first. -/
theorem looseEq_iff_of_compare (a b : Value) (h : a.compare b = .ok ordering) :
    a.looseEq b = true ↔ ordering = .eq := by
  induction a using list_induction generalizing b ordering with
  | scalar v hv => exact looseEq_iff_of_ne_list (fun xs _ hxs => absurd hxs (hv xs)) h
  | list xs ih =>
      cases b with
      | list ys =>
          rw [compare] at h
          rw [looseEq]
          exact looseEqItems_iff_of_compareItems (fun x hx y o => ih x hx y) h
      | _ => exact looseEq_iff_of_ne_list nofun h

/-- What the comparison the other way round comes to: it fails where the first one does, and gives
the reverse elsewhere. -/
def Reverses (first second : Except Fault Ordering) : Prop :=
  match first with
  | .ok ordering => second = .ok ordering.swap
  | .error _ => ∃ fault, second = .error fault

lemma reverses_of_ne_list (h : ∀ xs ys, a = .list xs → b ≠ .list ys) :
    Reverses (a.compare b) (b.compare a) := by
  have hback : ∀ ys xs, b = .list ys → a ≠ .list xs := fun ys xs hb ha => h xs ys ha hb
  rw [compare_of_ne_list h, compare_of_ne_list hback, compareScalars_swap a b]
  cases a.compareScalars b with
  | none => exact ⟨_, rfl⟩
  | some ordering => exact rfl

lemma reverses_compareItems {xs : List Value}
    (hitems : ∀ x ∈ xs, ∀ y : Value, Reverses (x.compare y) (y.compare x)) (ys : List Value) :
    Reverses (compareItems xs ys) (compareItems ys xs) := by
  induction xs generalizing ys with
  | nil => cases ys <;> exact rfl
  | cons x xs ih =>
      obtain ⟨hx, hxs⟩ := List.forall_mem_cons.1 hitems
      cases ys with
      | nil => exact rfl
      | cons y ys =>
          have hhead := hx y
          rw [compareItems, compareItems]
          cases hxy : x.compare y with
          | error fault =>
              rw [hxy] at hhead
              obtain ⟨own, hown⟩ := hhead
              rw [hown]
              exact ⟨own, rfl⟩
          | ok ordering =>
              rw [hxy] at hhead
              rw [show y.compare x = .ok ordering.swap from hhead]
              cases ordering with
              | eq => exact ih hxs ys
              | lt | gt => exact rfl

/-- **Order does not depend on the side.** -/
theorem reverses_compare (a b : Value) : Reverses (a.compare b) (b.compare a) := by
  induction a using list_induction generalizing b with
  | scalar v hv => exact reverses_of_ne_list fun xs _ hxs => absurd hxs (hv xs)
  | list xs ih =>
      cases b with
      | list ys =>
          rw [compare, compare]
          exact reverses_compareItems ih ys
      | _ => exact reverses_of_ne_list nofun

/-! ## The operators -/

section

variable (h : a.compare b = .ok ordering)
include h

lemma holds_eq_of_compare : Comparison.eq.holds a b = .ok (ordering == .eq) := by
  rw [Comparison.holds, Bool.eq_iff_iff.2 ((looseEq_iff_of_compare a b h).trans beq_iff_eq.symm)]

/-- Of two values that have an order, either one comes first or they are equal, and only one of
these is the case. -/
lemma existsUnique_holds :
    ∃! op, op ∈ [Comparison.lt, .eq, .gt] ∧ op.holds a b = .ok true := by
  have hlt : Comparison.lt.holds a b = .ok (ordering == .lt) := by rw [Comparison.holds, h]; rfl
  have heq := holds_eq_of_compare h
  have hgt : Comparison.gt.holds a b = .ok (ordering == .gt) := by rw [Comparison.holds, h]; rfl
  have hcases : ∀ op, op ∈ [Comparison.lt, .eq, .gt] ∧ op.holds a b = .ok true ↔
      op = .lt ∧ ordering = .lt ∨ op = .eq ∧ ordering = .eq ∨ op = .gt ∧ ordering = .gt := by
    intro op
    cases op <;> simp [hlt, heq, hgt]
  simp only [hcases]
  cases ordering <;> simp

end

/-- **Order and equality of values agree.**  Where two values have an order, they are loosely equal
exactly if neither comes first, so that exactly one of the operators `<`, `==` and `>` holds and
each of `<=` and `>=` is one of these or equality.  The other way round the order is the reverse,
and it fails where the first one does. -/
theorem compare_agrees (a b : Value) :
    (∀ ordering, a.compare b = .ok ordering →
      (ordering = .eq ↔ a.looseEq b = true) ∧
      (∃! op, op ∈ [Comparison.lt, .eq, .gt] ∧ op.holds a b = .ok true) ∧
      (Comparison.le.holds a b = .ok true ↔
        Comparison.lt.holds a b = .ok true ∨ Comparison.eq.holds a b = .ok true) ∧
      (Comparison.ge.holds a b = .ok true ↔
        Comparison.gt.holds a b = .ok true ∨ Comparison.eq.holds a b = .ok true) ∧
      b.compare a = .ok ordering.swap) ∧
    ((∃ fault, a.compare b = .error fault) ↔ ∃ fault, b.compare a = .error fault) := by
  have hreverse := reverses_compare a b
  constructor
  · intro ordering h
    rw [h] at hreverse
    refine ⟨(looseEq_iff_of_compare a b h).symm, existsUnique_holds h, ?_, ?_, hreverse⟩
    · rw [holds_eq_of_compare h, Comparison.holds, Comparison.holds, h]
      cases ordering <;> simp [Except.map]
    · rw [holds_eq_of_compare h, Comparison.holds, Comparison.holds, h]
      cases ordering <;> simp [Except.map]
  · cases h : a.compare b with
    | error fault =>
        rw [h] at hreverse
        exact iff_of_true ⟨fault, rfl⟩ hreverse
    | ok ordering =>
        rw [h] at hreverse
        simp [show b.compare a = .ok ordering.swap from hreverse]

/-- A list with a text that spells a date and a list with that date: they compare by what the lists
within them hold. -/
theorem compare_agrees_nested :
    let june : Date := ⟨2024, 6, 15, by decide⟩
    let a : Value := .list [.text "2024-06-15", .list [.float 2.5]]
    let b : Value := .list [.date june, .list [.float 3.0]]
    a.compare b = .ok .lt ∧ b.compare a = .ok .gt ∧ ¬ a.looseEq b = true ∧
      ∃! op, op ∈ [Comparison.lt, .eq, .gt] ∧ op.holds a b = .ok true := by
  intro june a b
  have hdate : Date.read? "2024-06-15".toList = some june := by decide +kernel
  have hfloats : compareFloats 2.5 3.0 = some .lt := by decide +kernel
  have hheads : (text "2024-06-15").compare (date june) = .ok .eq := by
    have hscalars : ∀ xs ys, text "2024-06-15" = .list xs → date june ≠ .list ys := nofun
    rw [compare_of_ne_list hscalars, compareScalars, hdate]
    rfl
  have hlists : (list [.float 2.5]).compare (list [.float 3.0]) = .ok .lt := by
    simp [compare, compareItems, compareScalars, compareNumbers, hfloats]
  have hcompare : a.compare b = .ok .lt := by
    rw [compare, compareItems, hheads]
    simp only [compareItems, hlists]
  obtain ⟨hequal, hone, -, -, hreverse⟩ := (compare_agrees a b).1 .lt hcompare
  have hdiffer : ¬ a.looseEq b = true := mt hequal.2 nofun
  exact ⟨hcompare, hreverse, hdiffer, hone⟩

end Value

end FormValidation
