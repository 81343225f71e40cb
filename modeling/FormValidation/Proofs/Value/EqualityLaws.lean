import FormValidation.Proofs.Value.OrderAgreement
import Mathlib

/-!
# Laws of the two equalities

`Value.same` holds between values of one type, `Value.looseEq` also between an integer and a double
and between a date or a moment and its text.  This file says that the second extends the first and
does not depend on the side, for all values, containers within containers included.

For lists this is a matter of their items.  Maps are compared in an asymmetric way: the entries on
the left are looked up on the right, and none the other way round.  It is enough since there are as
many on both sides: if every key on the left is one on the right, then so is every key on the right
one on the left (`Entries.keys_subset_of_length_eq`).  This needs that no map has a key twice, which
`Value.Keyed` says of all maps within a value.
-/

namespace FormValidation

namespace Entries

variable {α : Type}

lemma nodup_keys {m : Entries α} (h : Sorted m) : (m.map (·.1)).Nodup :=
  (⟨m, h⟩ : KeyMap α).nodup_keys

/-- Of two maps of one size, of which one has all keys of the other, both have the same keys. -/
lemma keys_subset_of_length_eq {m n : Entries α} (hm : Sorted m) (hlength : m.length = n.length)
    (hkeys : m.map (·.1) ⊆ n.map (·.1)) : n.map (·.1) ⊆ m.map (·.1) := by
  have hsubperm : (m.map (·.1)).Subperm (n.map (·.1)) := (nodup_keys hm).subperm hkeys
  have hperm : (m.map (·.1)).Perm (n.map (·.1)) :=
    hsubperm.perm_of_length_le (by simp [hlength])
  exact hperm.symm.subset

end Entries

/-- Two doubles that are equal compare so. -/
lemma compareFloats_of_beq {x y : Float} (h : (x == y) = true) : compareFloats x y = some .eq := by
  have heq : (x.toModel.unpack.compare y.toModel.unpack == some .eq) = true := h
  rw [compareFloats_eq]
  exact beq_iff_eq.1 heq

namespace Value

/-- The keys of every map within the value strictly increase.  Whatever makes a map keeps them so,
and there are no other values. -/
inductive Keyed : Value → Prop
  | list {items : List Value} (h : ∀ x ∈ items, Keyed x) : Keyed (.list items)
  | map {entries : List (String × Value)} (hsorted : Entries.Sorted entries)
      (h : ∀ e ∈ entries, Keyed e.2) : Keyed (.map entries)
  | scalar {v : Value} (hlist : ∀ items, v ≠ .list items) (hmap : ∀ entries, v ≠ .map entries) :
      Keyed v

variable {a b : Value}

/-! ## Entries of maps -/

lemma looseEqEntries_iff {xs ys : List (String × Value)} :
    looseEqEntries xs ys = true ↔
      ∀ e ∈ xs, ∃ y, Entries.find? e.1 ys = some y ∧ e.2.looseEq y = true := by
  induction xs with
  | nil => simp [looseEqEntries]
  | cons e xs ih =>
      obtain ⟨key, x⟩ := e
      rw [looseEqEntries, Bool.and_eq_true, ih, List.forall_mem_cons]
      refine and_congr_left fun _ => ?_
      cases Entries.find? key ys with
      | none => simp
      | some y => simp

/-- Entries that are the same have their counterparts, at the same places. -/
lemma exists_of_sameEntries {xs ys : List (String × Value)} (h : sameEntries xs ys = true) :
    xs.length = ys.length ∧ ∀ e ∈ xs, ∃ y, (e.1, y) ∈ ys ∧ e.2.same y = true := by
  induction xs generalizing ys with
  | nil =>
      cases ys with
      | nil => exact ⟨rfl, nofun⟩
      | cons => simp [sameEntries] at h
  | cons e xs ih =>
      cases ys with
      | nil => simp [sameEntries] at h
      | cons d ys =>
          obtain ⟨key, x⟩ := e
          obtain ⟨other, y⟩ := d
          rw [sameEntries, Bool.and_eq_true, Bool.and_eq_true, beq_iff_eq] at h
          obtain ⟨⟨rfl, hsame⟩, hrest⟩ := h
          obtain ⟨hlength, hxs⟩ := ih hrest
          refine ⟨congrArg (· + 1) hlength, List.forall_mem_cons.2 ⟨⟨y, ?_, hsame⟩, ?_⟩⟩
          · exact List.mem_cons_self
          · intro e he
            obtain ⟨z, hz, hez⟩ := hxs e he
            exact ⟨z, List.mem_cons_of_mem _ hz, hez⟩

/-- If every entry on the left has its counterpart on the right, and there are as many on both
sides, then every entry on the right has its counterpart on the left. -/
lemma looseEqEntries_flip {xs ys : List (String × Value)} (hxs : Entries.Sorted xs)
    (hys : Entries.Sorted ys) (hlength : xs.length = ys.length)
    (hitems : ∀ d ∈ xs, ∀ e ∈ ys, d.2.looseEq e.2 = true → e.2.looseEq d.2 = true)
    (h : looseEqEntries xs ys = true) : looseEqEntries ys xs = true := by
  rw [looseEqEntries_iff] at h ⊢
  have hkeys : xs.map (·.1) ⊆ ys.map (·.1) := by
    intro key hkey
    obtain ⟨d, hd, rfl⟩ := List.mem_map.1 hkey
    obtain ⟨y, hy, -⟩ := h d hd
    exact Entries.find?_isSome_iff.1 (Option.isSome_iff_exists.2 ⟨y, hy⟩)
  rintro ⟨key, y⟩ he
  have hkey : key ∈ xs.map (·.1) :=
    Entries.keys_subset_of_length_eq hxs hlength hkeys (List.mem_map_of_mem he)
  obtain ⟨⟨_, x⟩, hd, rfl⟩ := List.mem_map.1 hkey
  obtain ⟨z, hz, hequal⟩ := h _ hd
  have hsame : z = y := Option.some.inj (hz.symm.trans (Entries.find?_of_mem hys he))
  exact ⟨x, Entries.find?_of_mem hxs hd, hitems _ hd _ he (hsame ▸ hequal)⟩

/-! ## Loose equality extends strict equality -/

/-- Outside of containers, what is the same is loosely equal. -/
lemma looseEq_of_same_scalar (hlist : ∀ ys, b ≠ .list ys) (hmap : ∀ ys, b ≠ .map ys)
    (h : a.same b = true) : a.looseEq b = true := by
  cases a <;> cases b
  case int.int m n =>
    rw [same, beq_iff_eq] at h
    simp [h, looseEq, compareNumbers]
  case float.float x y =>
    rw [looseEq, compareNumbers, compareFloats_of_beq h]
    rfl
  case list.list xs ys => exact absurd rfl (hlist ys)
  case map.map xs ys => exact absurd rfl (hmap ys)
  case date.text | text.date | moment.text | text.moment | int.float | float.int => cases h
  -- The other pairs have no row of their own.
  all_goals exact h

lemma looseEqItems_of_sameItems {xs ys : List Value}
    (hitems : ∀ y ∈ ys, ∀ x : Value, x.same y = true → x.looseEq y = true)
    (h : sameItems xs ys = true) : looseEqItems xs ys = true := by
  induction ys generalizing xs with
  | nil =>
      cases xs with
      | nil => rfl
      | cons => simp [sameItems] at h
  | cons y ys ih =>
      cases xs with
      | nil => simp [sameItems] at h
      | cons x xs =>
          obtain ⟨hy, hys⟩ := List.forall_mem_cons.1 hitems
          rw [sameItems, Bool.and_eq_true] at h
          rw [looseEqItems, Bool.and_eq_true]
          exact ⟨hy x h.1, ih hys h.2⟩

/-- **What is the same is loosely equal.** -/
theorem looseEq_of_same (hb : b.Keyed) (h : a.same b = true) : a.looseEq b = true := by
  induction hb generalizing a with
  | scalar hlist hmap => exact looseEq_of_same_scalar hlist hmap h
  | list _ ih =>
      cases a with
      | list xs =>
          rw [same] at h
          rw [looseEq]
          exact looseEqItems_of_sameItems (fun y hy x hx => ih y hy hx) h
      | _ => cases h
  | map hsorted _ ih =>
      cases a with
      | map xs =>
          rw [same] at h
          obtain ⟨hlength, hentries⟩ := exists_of_sameEntries h
          rw [looseEq, Bool.and_eq_true, beq_iff_eq, looseEqEntries_iff]
          refine ⟨hlength, fun e he => ?_⟩
          obtain ⟨y, hy, hsame⟩ := hentries e he
          exact ⟨y, Entries.find?_of_mem hsorted hy, ih _ hy hsame⟩
      | _ => cases h

/-! ## Loose equality does not depend on the side -/

lemma compareNumbers_beq_comm (a b : Value) :
    (a.compareNumbers b == some .eq) = (b.compareNumbers a == some .eq) := by
  rw [compareNumbers_swap b a]
  cases b.compareNumbers a with
  | none => rfl
  | some ordering => cases ordering <;> rfl

lemma looseEq_comm_scalar (hlist : ∀ xs, a ≠ .list xs) (hmap : ∀ xs, a ≠ .map xs) :
    a.looseEq b = b.looseEq a := by
  cases a <;> cases b
  case int.int m n => exact compareNumbers_beq_comm (.int m) (.int n)
  case int.float m y => exact compareNumbers_beq_comm (.int m) (.float y)
  case float.int x n => exact compareNumbers_beq_comm (.float x) (.int n)
  case float.float x y => exact compareNumbers_beq_comm (.float x) (.float y)
  case bool.bool p q => exact Bool.beq_comm
  case text.text s t => exact Bool.beq_comm
  case date.date d e => exact Bool.beq_comm
  case moment.moment m n => exact m.same_comm n
  case clock.clock c d => exact c.now.same_comm d.now
  case list.list xs ys => exact absurd rfl (hlist xs)
  case map.map xs ys => exact absurd rfl (hmap xs)
  all_goals rfl

lemma looseEqItems_comm {xs ys : List Value}
    (hitems : ∀ x ∈ xs, ∀ y ∈ ys, x.looseEq y = y.looseEq x) :
    looseEqItems xs ys = looseEqItems ys xs := by
  induction xs generalizing ys with
  | nil => cases ys <;> rfl
  | cons x xs ih =>
      cases ys with
      | nil => rfl
      | cons y ys =>
          have hhead := hitems x List.mem_cons_self y List.mem_cons_self
          have htail := ih fun u hu v hv =>
            hitems u (List.mem_cons_of_mem x hu) v (List.mem_cons_of_mem y hv)
          rw [looseEqItems, looseEqItems, hhead, htail]

/-- **Loose equality does not depend on the side.** -/
theorem looseEq_comm (ha : a.Keyed) (hb : b.Keyed) : a.looseEq b = b.looseEq a := by
  induction ha generalizing b with
  | scalar hlist hmap => exact looseEq_comm_scalar hlist hmap
  | list _ ih =>
      cases hb with
      | list hys =>
          rw [looseEq, looseEq]
          exact looseEqItems_comm fun x hx y hy => ih x hx (hys y hy)
      | map => rfl
      | scalar hlist hmap => exact (looseEq_comm_scalar hlist hmap).symm
  | @map xs hxs _ ih =>
      cases hb with
      | list => rfl
      | @map ys hys hitems =>
          have hequal : ∀ d ∈ xs, ∀ e ∈ ys, d.2.looseEq e.2 = e.2.looseEq d.2 :=
            fun d hd e he => ih d hd (hitems e he)
          rw [looseEq, looseEq, Bool.eq_iff_iff]
          simp only [Bool.and_eq_true, beq_iff_eq]
          constructor
          · rintro ⟨hlength, h⟩
            exact ⟨hlength.symm, looseEqEntries_flip hxs hys hlength
              (fun d hd e he => (hequal d hd e he).symm.trans) h⟩
          · rintro ⟨hlength, h⟩
            exact ⟨hlength.symm, looseEqEntries_flip hys hxs hlength
              (fun e he d hd => (hequal d hd e he).trans) h⟩
      | scalar hlist hmap => exact (looseEq_comm_scalar hlist hmap).symm

/-- Whether an item is in a list, with the item on the left of each comparison. -/
lemma holds_isIn_list {items : List Value} (ha : a.Keyed) (hitems : (list items).Keyed) :
    Comparison.isIn.holds a (.list items) = .ok (items.any fun x => a.looseEq x) := by
  have hany : (items.any fun x => x.looseEq a) = items.any fun x => a.looseEq x := by
    cases hitems with
    | list h =>
        rw [Bool.eq_iff_iff, List.any_eq_true, List.any_eq_true]
        exact exists_congr fun x => and_congr_right fun hx => by rw [looseEq_comm (h x hx) ha]
    | scalar hlist => exact absurd rfl (hlist items)
  rw [Comparison.holds, contains, hany]

/-- **Loose equality extends strict equality and is symmetric.**  For all values what is the same is
loosely equal, and what one of them is loosely equal to does not depend on the side.  So an item is
in a list if it equals one of the items or, what comes to the same, if one of the items equals it. -/
theorem looseEq_laws (ha : a.Keyed) (hb : b.Keyed) :
    (a.same b = true → a.looseEq b = true) ∧ a.looseEq b = b.looseEq a ∧
    ∀ items : List Value, (list items).Keyed →
      Comparison.isIn.holds a (.list items) = .ok (items.any fun x => a.looseEq x) ∧
        Comparison.isIn.holds a (.list items) = .ok (items.any fun x => x.looseEq a) :=
  ⟨looseEq_of_same hb, looseEq_comm ha hb, fun _ hitems => ⟨holds_isIn_list ha hitems, rfl⟩⟩

/-- Two maps with a list each, of a zero and of the zero with the other sign, and a date that is in
a list of its text. -/
theorem looseEq_laws_zeros :
    let june : Date := ⟨2024, 6, 15, by decide⟩
    let a : Value := .map [("d", .date june), ("n", .list [.float 0.0])]
    let b : Value := .map [("d", .date june), ("n", .list [.float (-0.0)])]
    a.same b = true ∧ a.looseEq b = true ∧ b.looseEq a = true ∧
      Comparison.isIn.holds (.date june) (.list [a, .text "2024-06-15"]) = .ok true := by
  intro june a b
  have hscalar : ∀ d, (date d).Keyed := fun d => .scalar nofun nofun
  have hlist : ∀ x : Float, (list [.float x]).Keyed := fun x =>
    .list (List.forall_mem_singleton.2 (.scalar nofun nofun))
  have hkeys : "d" < "n" := by decide
  have hkeyed : ∀ x : Float, (map [("d", .date june), ("n", .list [.float x])]).Keyed := fun x =>
    .map (List.pairwise_pair.2 hkeys)
      (List.forall_mem_cons.2 ⟨hscalar june, List.forall_mem_singleton.2 (hlist x)⟩)
  have hitems : (list [a, .text "2024-06-15"]).Keyed :=
    .list (List.forall_mem_cons.2 ⟨hkeyed _, List.forall_mem_singleton.2 (.scalar nofun nofun)⟩)
  have hzeros : ((0.0 : Float) == -0.0) = true := by decide +kernel
  have hsame : a.same b = true := by simp [a, b, same, sameEntries, sameItems, hzeros]
  have hspells : spellsDate "2024-06-15" june = true := by decide +kernel
  obtain ⟨hextends, hcomm, -⟩ := looseEq_laws (hkeyed 0.0) (hkeyed (-0.0))
  obtain ⟨-, -, hmembership⟩ := looseEq_laws (hscalar june) (hscalar june)
  have hloose : a.looseEq b = true := hextends hsame
  refine ⟨hsame, hloose, hcomm.symm.trans hloose, (hmembership _ hitems).1.trans ?_⟩
  simp [a, looseEq, same, hspells]

end Value

end FormValidation
