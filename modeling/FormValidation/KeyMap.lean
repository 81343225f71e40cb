/-!
# Key maps

Entries under text keys, kept in strictly increasing order of the keys. Text is compared by
code points, which is also the order of its UTF-8 bytes, so every listing of a map is in the
byte order of its keys and two maps with the same bindings are the same list.

`Entries` is the bare list, for use inside recursive data; its operations keep the order
(`Entries.sorted_insert`, `Entries.sorted_erase`) and answer look-ups as a map does
(`Entries.find?_insert`, `Entries.find?_erase`). `KeyMap` carries the order with the list.
-/

namespace FormValidation

universe u v

/-- Values listed under text keys. -/
abbrev Entries (α : Type u) : Type u := List (String × α)

namespace Entries

variable {α : Type u} {β : Type v}

/-- The keys strictly increase, so no key occurs twice. -/
def Sorted (m : Entries α) : Prop := m.Pairwise (fun a b => a.1 < b.1)

/-- The value under `key`. -/
def find? (key : String) : Entries α → Option α
  | [] => none
  | (k, x) :: rest => if k = key then some x else find? key rest

/-- Binds `key`, in its place in the order; an earlier binding of the key is replaced. -/
def insert (key : String) (value : α) : Entries α → Entries α
  | [] => [(key, value)]
  | (k, x) :: rest =>
    if key < k then (key, value) :: (k, x) :: rest
    else if k = key then (key, value) :: rest
    else (k, x) :: insert key value rest

/-- Drops the binding of `key`. -/
def erase (key : String) (m : Entries α) : Entries α := m.filter (fun e => e.1 ≠ key)

/-- The entries of a list of bindings, of which the last one of a key counts. -/
def ofList (pairs : List (String × α)) : Entries α :=
  pairs.foldl (fun m p => insert p.1 p.2 m) []

/-! ## Order -/

theorem mem_insert {key : String} {value : α} {e : String × α} {m : Entries α}
    (h : e ∈ insert key value m) : e = (key, value) ∨ e ∈ m := by
  induction m with
  | nil => simpa [insert] using h
  | cons head rest ih =>
    obtain ⟨k, x⟩ := head
    rw [insert] at h
    split at h
    · simpa using h
    · split at h
      · rcases List.mem_cons.1 h with h | h
        · exact .inl h
        · exact .inr (List.mem_cons_of_mem _ h)
      · rcases List.mem_cons.1 h with h | h
        · exact .inr (h ▸ List.mem_cons_self)
        · exact (ih h).imp_right (List.mem_cons_of_mem _)

theorem sorted_nil : Sorted ([] : Entries α) := List.Pairwise.nil

theorem sorted_insert (key : String) (value : α) {m : Entries α} (h : Sorted m) :
    Sorted (insert key value m) := by
  induction m with
  | nil => exact List.pairwise_singleton _ _
  | cons head rest ih =>
    obtain ⟨k, x⟩ := head
    have hlt : ∀ e ∈ rest, k < e.1 := fun e he => List.rel_of_pairwise_cons h he
    have hrest : Sorted rest := List.Pairwise.of_cons h
    rw [insert]
    split
    next hk =>
      refine List.pairwise_cons.2 ⟨fun e he => ?_, h⟩
      rcases List.mem_cons.1 he with rfl | he
      · exact hk
      · exact String.lt_trans hk (hlt e he)
    next hk =>
      split
      next hkey =>
        subst hkey
        exact List.pairwise_cons.2 ⟨fun e he => hlt e he, hrest⟩
      next hne =>
        refine List.pairwise_cons.2 ⟨fun e he => ?_, ih hrest⟩
        rcases mem_insert he with rfl | he
        · exact Decidable.byContradiction fun hno =>
            hne (String.le_antisymm (String.not_lt.1 hk) (String.not_lt.1 hno))
        · exact hlt e he

theorem sorted_erase (key : String) {m : Entries α} (h : Sorted m) : Sorted (erase key m) :=
  h.filter _

theorem sorted_ofList (pairs : List (String × α)) : Sorted (ofList pairs) := by
  suffices h : ∀ (ps : List (String × α)) (m : Entries α), Sorted m →
      Sorted (ps.foldl (fun m p => insert p.1 p.2 m) m) from h pairs [] sorted_nil
  intro ps
  induction ps with
  | nil => exact fun _ h => h
  | cons p ps ih => exact fun m h => ih _ (sorted_insert p.1 p.2 h)

/-- A key behind all others is bound at the end. -/
theorem insert_of_forall_lt {key : String} {m : Entries α} (h : ∀ e ∈ m, e.1 < key) (value : α) :
    insert key value m = m ++ [(key, value)] := by
  induction m with
  | nil => rfl
  | cons head rest ih =>
    obtain ⟨k, x⟩ := head
    have hk : k < key := h (k, x) List.mem_cons_self
    have hne : k ≠ key := fun heq => String.lt_irrefl _ (heq ▸ hk)
    rw [insert, if_neg (String.lt_asymm hk), if_neg hne,
      ih fun e he => h e (List.mem_cons_of_mem _ he)]
    rfl

/-- A map is the map of its entries. -/
theorem ofList_of_sorted {m : Entries α} (h : Sorted m) : ofList m = m := by
  suffices hall : ∀ ps bound : Entries α, Sorted (bound ++ ps) →
      ps.foldl (fun m p => insert p.1 p.2 m) bound = bound ++ ps from hall m [] h
  intro ps
  induction ps with
  | nil => exact fun bound _ => (List.append_nil bound).symm
  | cons p ps ih =>
    intro bound hsorted
    have hlast : ∀ e ∈ bound, e.1 < p.1 := fun e he =>
      (List.pairwise_append.1 hsorted).2.2 e he p List.mem_cons_self
    have happend : bound ++ p :: ps = (bound ++ [p]) ++ ps := by simp
    rw [List.foldl_cons, insert_of_forall_lt hlast, happend]
    exact ih _ (happend ▸ hsorted)

theorem sorted_map (f : String → α → β) {m : Entries α} (h : Sorted m) :
    Sorted (m.map (fun e => (e.1, f e.1 e.2))) :=
  List.pairwise_map.2 h

/-! ## Look-up -/

@[simp] theorem find?_nil (key : String) : find? key ([] : Entries α) = none := rfl

theorem find?_insert (key other : String) (value : α) (m : Entries α) :
    find? other (insert key value m) = if key = other then some value else find? other m := by
  induction m with
  | nil => rfl
  | cons head rest ih =>
    obtain ⟨k, x⟩ := head
    rw [insert]
    split
    · rfl
    · split
      next hkey => subst hkey; by_cases h : k = other <;> simp [find?, h]
      next hne =>
        by_cases h : k = other
        · subst h; simp [find?, Ne.symm hne]
        · simp [find?, h, ih]

theorem find?_erase (key other : String) (m : Entries α) :
    find? other (erase key m) = if key = other then none else find? other m := by
  induction m with
  | nil => simp [erase, find?]
  | cons head rest ih =>
    obtain ⟨k, x⟩ := head
    by_cases hk : k = key
    · subst hk
      have herase : erase k ((k, x) :: rest) = erase k rest := by simp [erase]
      rw [herase, ih]
      by_cases h : k = other <;> simp [find?, h]
    · have herase : erase key ((k, x) :: rest) = (k, x) :: erase key rest := by
        simp [erase, hk]
      rw [herase, find?, ih, find?]
      by_cases h : k = other
      · subst h; simp [Ne.symm hk]
      · simp [h]

theorem find?_map (f : String → α → β) (key : String) (m : Entries α) :
    find? key (m.map fun e => (e.1, f e.1 e.2)) = (find? key m).map (f key) := by
  induction m with
  | nil => rfl
  | cons head rest ih =>
    obtain ⟨k, x⟩ := head
    by_cases h : k = key
    · subst h; simp [find?]
    · simp only [List.map_cons, find?, if_neg h, ih]

theorem find?_of_mem {key : String} {value : α} {m : Entries α} (h : Sorted m)
    (hmem : (key, value) ∈ m) : find? key m = some value := by
  induction m with
  | nil => cases hmem
  | cons head rest ih =>
    obtain ⟨hhead, hrest⟩ := List.pairwise_cons.1 h
    rcases List.mem_cons.1 hmem with rfl | hmem
    · simp [find?]
    · have hne : head.1 ≠ key := fun heq => String.lt_irrefl _ (heq ▸ hhead _ hmem)
      rw [find?, if_neg hne, ih hrest hmem]

theorem mem_of_find? {key : String} {value : α} {m : Entries α} (h : find? key m = some value) :
    (key, value) ∈ m := by
  induction m with
  | nil => cases h
  | cons head rest ih =>
    obtain ⟨k, x⟩ := head
    rw [find?] at h
    split at h
    next hk => cases h; exact hk ▸ List.mem_cons_self
    next => exact List.mem_cons_of_mem _ (ih h)

theorem find?_isSome_iff {key : String} {m : Entries α} :
    (find? key m).isSome ↔ key ∈ m.map (·.1) := by
  induction m with
  | nil => simp
  | cons head rest ih =>
    obtain ⟨k, x⟩ := head
    by_cases h : k = key
    · simp [find?, h]
    · simp [find?, h, ih, Ne.symm h]

theorem find?_append (key : String) (m n : Entries α) :
    find? key (m ++ n) = (find? key m).or (find? key n) := by
  induction m with
  | nil => rfl
  | cons head rest ih =>
    obtain ⟨k, x⟩ := head
    by_cases h : k = key
    · simp [find?, h]
    · simp [find?, h, ih]

/-- Bindings of different keys bind each key to the same value in a list and in the list's map. -/
theorem find?_ofList {pairs : List (String × α)} (h : (pairs.map (·.1)).Nodup) (key : String) :
    find? key (ofList pairs) = find? key pairs := by
  suffices hall : ∀ (ps bound : Entries α), (ps.map (·.1)).Nodup →
      find? key (ps.foldl (fun m p => insert p.1 p.2 m) bound) =
        (find? key ps).or (find? key bound) from (hall pairs [] h).trans Option.or_none
  intro ps
  induction ps with
  | nil => exact fun _ _ => rfl
  | cons p ps ih =>
    intro bound hnodup
    obtain ⟨k, x⟩ := p
    obtain ⟨hk, hps⟩ := List.nodup_cons.1 hnodup
    rw [List.foldl_cons, ih _ hps, find?_insert, find?]
    by_cases hkey : k = key
    · subst hkey
      have hnone : find? k ps = none := by
        rw [← Option.isNone_iff_eq_none, ← Option.isSome_eq_false_iff, Bool.eq_false_iff]
        exact fun hsome => hk (find?_isSome_iff.1 hsome)
      rw [hnone, if_pos rfl, if_pos rfl]
      rfl
    · rw [if_neg hkey, if_neg hkey]

/-- What is made of all entries is made of one key's entry, if nothing is made of the others. -/
theorem flatMap_eq_of_find? {key : String} {value : α} {m : Entries α} {f : String × α → List β}
    (h : Sorted m) (hvalue : find? key m = some value) (hother : ∀ e ∈ m, e.1 ≠ key → f e = []) :
    m.flatMap f = f (key, value) := by
  induction m with
  | nil => cases hvalue
  | cons head rest ih =>
    obtain ⟨k, x⟩ := head
    obtain ⟨hlt, hrest⟩ := List.pairwise_cons.1 h
    rw [List.flatMap_cons]
    rw [find?] at hvalue
    split at hvalue
    next hk =>
      cases hvalue
      have hempty : rest.flatMap f = [] := by
        refine List.flatMap_eq_nil_iff.2 fun e he => hother e (List.mem_cons_of_mem _ he) ?_
        intro heq
        have hlater := hlt e he
        rw [heq, ← hk] at hlater
        exact String.lt_irrefl _ hlater
      rw [hempty, List.append_nil, hk]
    next hk =>
      rw [hother (k, x) List.mem_cons_self hk, List.nil_append]
      exact ih hrest hvalue fun e he => hother e (List.mem_cons_of_mem _ he)

end Entries

/-- A map from text keys, listed in the order of the keys. -/
structure KeyMap (α : Type u) : Type u where
  /-- The bindings. -/
  entries : List (String × α)
  /-- The keys strictly increase. -/
  sorted : Entries.Sorted entries
  deriving DecidableEq

namespace KeyMap

variable {α : Type u} {β : Type v}

@[ext] theorem ext {m n : KeyMap α} (h : m.entries = n.entries) : m = n := by
  cases m; cases n; cases h; rfl

/-- The map without bindings. -/
def empty : KeyMap α := ⟨[], Entries.sorted_nil⟩

instance : Inhabited (KeyMap α) := ⟨empty⟩

instance : EmptyCollection (KeyMap α) := ⟨empty⟩

/-- The value under `key`. -/
def find? (m : KeyMap α) (key : String) : Option α := Entries.find? key m.entries

/-- Whether `key` is bound. -/
def contains (m : KeyMap α) (key : String) : Bool := (m.find? key).isSome

/-- Binds `key` to `value`, replacing an earlier binding. -/
def insert (m : KeyMap α) (key : String) (value : α) : KeyMap α :=
  ⟨Entries.insert key value m.entries, Entries.sorted_insert key value m.sorted⟩

/-- Drops the binding of `key`. -/
def erase (m : KeyMap α) (key : String) : KeyMap α :=
  ⟨Entries.erase key m.entries, Entries.sorted_erase key m.sorted⟩

/-- The map of a list of bindings, of which the last one of a key counts. -/
def ofList (pairs : List (String × α)) : KeyMap α :=
  ⟨Entries.ofList pairs, Entries.sorted_ofList pairs⟩

/-- The map with every value replaced by an image of its key and itself. -/
def map (f : String → α → β) (m : KeyMap α) : KeyMap β :=
  ⟨m.entries.map (fun e => (e.1, f e.1 e.2)), Entries.sorted_map f m.sorted⟩

/-- How many keys are bound. -/
def size (m : KeyMap α) : Nat := m.entries.length

/-- Whether no key is bound. -/
def isEmpty (m : KeyMap α) : Bool := m.entries.isEmpty

/-- The keys, in order. -/
def keys (m : KeyMap α) : List String := m.entries.map (·.1)

/-- The values, in the order of their keys. -/
def values (m : KeyMap α) : List α := m.entries.map (·.2)

@[simp] theorem find?_empty (key : String) : (empty : KeyMap α).find? key = none := rfl

theorem find?_insert (m : KeyMap α) (key other : String) (value : α) :
    (m.insert key value).find? other = if key = other then some value else m.find? other :=
  Entries.find?_insert key other value m.entries

theorem find?_erase (m : KeyMap α) (key other : String) :
    (m.erase key).find? other = if key = other then none else m.find? other :=
  Entries.find?_erase key other m.entries

theorem find?_of_mem {m : KeyMap α} {key : String} {value : α}
    (h : (key, value) ∈ m.entries) : m.find? key = some value :=
  Entries.find?_of_mem m.sorted h

theorem mem_entries_iff {m : KeyMap α} {key : String} {value : α} :
    (key, value) ∈ m.entries ↔ m.find? key = some value :=
  ⟨find?_of_mem, Entries.mem_of_find?⟩

theorem flatMap_entries_eq {m : KeyMap α} {key : String} {value : α} {f : String × α → List β}
    (h : m.find? key = some value) (hother : ∀ e ∈ m.entries, e.1 ≠ key → f e = []) :
    m.entries.flatMap f = f (key, value) :=
  Entries.flatMap_eq_of_find? m.sorted h hother

theorem find?_map (f : String → α → β) (m : KeyMap α) (key : String) :
    (m.map f).find? key = (m.find? key).map (f key) :=
  Entries.find?_map f key m.entries

theorem mem_keys_iff {m : KeyMap α} {key : String} : key ∈ m.keys ↔ (m.find? key).isSome :=
  Entries.find?_isSome_iff.symm

/-- The keys are listed in increasing order. -/
theorem pairwise_keys (m : KeyMap α) : m.keys.Pairwise (· < ·) := List.pairwise_map.2 m.sorted

/-- No key is listed twice. -/
theorem nodup_keys (m : KeyMap α) : m.keys.Nodup := by
  refine m.pairwise_keys.imp fun {k l} hlt => ?_
  intro heq
  rw [heq] at hlt
  exact String.lt_irrefl _ hlt

/-- A value stands among the values where its key stands among the keys, and the key stands nowhere
else. -/
theorem exists_place {m : KeyMap α} {key : String} {value : α} (h : m.find? key = some value) :
    ∃ place : Nat, (∀ i : Nat, m.keys[i]? = some key ↔ i = place) ∧
      m.values[place]? = some value := by
  obtain ⟨place, hplace⟩ := List.mem_iff_getElem?.1 (mem_entries_iff.2 h)
  have hkey : m.keys[place]? = some key := by simp [keys, hplace]
  have hlt : place < m.keys.length := (List.getElem?_eq_some_iff.1 hkey).1
  refine ⟨place, fun i => ?_, by simp [values, hplace]⟩
  rw [← hkey, eq_comm, List.getElem?_inj hlt m.nodup_keys, eq_comm]

end KeyMap

end FormValidation
