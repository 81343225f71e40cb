import FormValidation.Engine.Cache
import Mathlib.Data.List.Dedup
import Mathlib.Data.List.Induction
import Mathlib.Tactic.Common

/-!
# The cache and the calls before

A cache keeps one generation and two maps, and its answers are those of its whole history.  This
file says which ones: of all calls since it was last cleared, only the first request for a key at a
generation counts, and requests for a generation that is over count for nothing.

`CacheKey` joins the two kinds of keys, so that both kinds of requests are one
(`CompiledCache.serve`).  `newest`, `sinceClear` and `firstBuilt?` read a list of calls without a
cache.  `CompiledCache.Recalls` is the invariant that ties a cache to the calls before,
`Recalls.call` keeps it, and `serve_after` is the result: the generation, the answer to every
request and the number of validators, all in terms of the calls alone.
-/

namespace FormValidation

/-! ## Keys and calls -/

/-- What a validator is kept under: a form, or a field of a form. -/
inductive CacheKey where
  | form (form : String)
  | field (form field : String)
  deriving DecidableEq

/-- The validators that are kept under a key. -/
abbrev CacheKey.Validator : CacheKey → Type
  | .form _ => FormValidator
  | .field _ _ => FieldValidator

/-- A request for the validator of a key at a generation, with the means to compile it. -/
structure CacheRequest where
  generation : Generation
  key : CacheKey
  compile : Unit → key.Validator × List Diagnostic

/-- A call of a cache. -/
inductive CacheCall where
  | request (r : CacheRequest)
  | clear

namespace CompiledCache

/-- The validator that is kept under a key. -/
def kept? (c : CompiledCache) : (key : CacheKey) → Option key.Validator
  | .form form => c.form? form
  | .field form field => c.field? form field

/-- Keeps a validator under a key. -/
def keep (c : CompiledCache) : (key : CacheKey) → key.Validator → CompiledCache
  | .form form, v => c.keepForm form v
  | .field form field, v => c.keepField form field v

/-- The answer to a request. -/
def serve (c : CompiledCache) (r : CacheRequest) : CacheAnswer r.key.Validator :=
  match r with
  | ⟨g, .form form, compile⟩ => c.formValidator g form compile
  | ⟨g, .field form field, compile⟩ => c.fieldValidator g form field compile

/-- The cache after a call. -/
def call (c : CompiledCache) : CacheCall → CompiledCache
  | .request r => (c.serve r).cache
  | .clear => c.clear

/-- A cache after some calls. -/
def after (calls : List CacheCall) : CompiledCache := calls.foldl call empty

lemma serve_eq_answer (c : CompiledCache) (r : CacheRequest) :
    c.serve r = c.answer r.generation (c.kept? r.key) (fun c v => c.keep r.key v) r.compile := by
  obtain ⟨g, key, compile⟩ := r
  cases key <;> rfl

lemma kept?_keep (c : CompiledCache) (key other : CacheKey) (v : key.Validator) :
    (c.keep key v).kept? other = if h : key = other then some (h ▸ v) else c.kept? other := by
  by_cases h : key = other
  · subst h
    rw [dif_pos rfl]
    cases key with
    | form form => simp [keep, kept?, form?_keepForm]
    | field form field => simp [keep, kept?, field?_keepField]
  · rw [dif_neg h]
    cases key <;> cases other <;>
      simp_all [keep, kept?, form?_keepForm, field?_keepField]

@[simp] lemma generation_keep (c : CompiledCache) (key : CacheKey) (v : key.Validator) :
    (c.keep key v).generation = c.generation := by
  cases key <;> rfl

end CompiledCache

/-! ## What calls come to -/

namespace CacheRequest

/-- The validator that a request built, if it was made for the key at the generation. -/
def built? (g : Generation) (key : CacheKey) (r : CacheRequest) : Option key.Validator :=
  if h : r.key = key ∧ r.generation = g then some (h.1 ▸ (r.compile ()).1) else none

/-- The validator that the first request for a key at a generation built. -/
def firstBuilt? (g : Generation) (key : CacheKey) (rs : List CacheRequest) :
    Option key.Validator :=
  rs.findSome? (built? g key)

variable {g : Generation} {key : CacheKey} {r : CacheRequest} {rs : List CacheRequest}

lemma built?_self (r : CacheRequest) : r.built? r.generation r.key = some (r.compile ()).1 := by
  simp [built?]

lemma built?_eq_none_iff : r.built? g key = none ↔ ¬ (r.key = key ∧ r.generation = g) := by
  rw [built?]
  split <;> simp_all

lemma firstBuilt?_concat (g : Generation) (key : CacheKey) (rs : List CacheRequest)
    (r : CacheRequest) :
    firstBuilt? g key (rs ++ [r]) = (firstBuilt? g key rs).or (r.built? g key) := by
  rw [firstBuilt?, List.findSome?_append, List.findSome?_singleton]
  rfl

lemma firstBuilt?_eq_none_iff :
    firstBuilt? g key rs = none ↔ ∀ r ∈ rs, ¬ (r.key = key ∧ r.generation = g) := by
  simp only [firstBuilt?, List.findSome?_eq_none_iff, built?_eq_none_iff]

end CacheRequest

namespace CacheCall

open CacheRequest

/-- The generation that a call asks for. -/
def generation? : CacheCall → Option Generation
  | .request r => some r.generation
  | .clear => none

/-- The newest generation that calls ask for; 0 if they ask for none. -/
def newest (calls : List CacheCall) : Generation := (calls.filterMap generation?).foldl max 0

/-- The requests since the last call that clears the cache. -/
def sinceClear (calls : List CacheCall) : List CacheRequest :=
  calls.foldl (fun rs call =>
    match call with
    | .request r => rs ++ [r]
    | .clear => []) []

/-- The keys that requests since then ask for at the newest generation, each of them once. -/
def keysAsked (calls : List CacheCall) : List CacheKey :=
  (((sinceClear calls).filter fun r => r.generation = newest calls).map (·.key)).dedup

lemma newest_request (calls : List CacheCall) (r : CacheRequest) :
    newest (calls ++ [.request r]) = max (newest calls) r.generation := by
  rw [newest, List.filterMap_append, List.foldl_append]
  rfl

lemma newest_clear (calls : List CacheCall) : newest (calls ++ [.clear]) = newest calls := by
  rw [newest, List.filterMap_append, List.foldl_append]
  rfl

lemma sinceClear_request (calls : List CacheCall) (r : CacheRequest) :
    sinceClear (calls ++ [.request r]) = sinceClear calls ++ [r] := by
  simp [sinceClear]

lemma sinceClear_clear (calls : List CacheCall) : sinceClear (calls ++ [.clear]) = [] := by
  simp [sinceClear]

/-- No request is newer than the newest. -/
lemma generation_le_newest {calls : List CacheCall} {r : CacheRequest}
    (h : r ∈ sinceClear calls) : r.generation ≤ newest calls := by
  induction calls using List.reverseRecOn with
  | nil => cases h
  | append_singleton calls call ih =>
      cases call with
      | clear =>
          rw [sinceClear_clear] at h
          cases h
      | request q =>
          rw [sinceClear_request, List.mem_append, List.mem_singleton] at h
          rw [newest_request]
          rcases h with h | rfl
          · exact Nat.le_trans (ih h) (Nat.le_max_left _ _)
          · exact Nat.le_max_right _ _

/-- Before the first request at a generation, none of the requests is at it. -/
lemma firstBuilt?_of_newest_lt {calls : List CacheCall} {g : Generation} (h : newest calls < g)
    (key : CacheKey) : firstBuilt? g key (sinceClear calls) = none := by
  refine firstBuilt?_eq_none_iff.2 fun r hr => ?_
  rintro ⟨-, rfl⟩
  exact absurd (generation_le_newest hr) (Nat.not_le.2 h)

end CacheCall

/-! ## One call -/

namespace CompiledCache

open CacheCall CacheRequest

variable {c : CompiledCache} {calls : List CacheCall} {r : CacheRequest}

/-- The cache is of the newest generation of the calls, and it keeps what their first requests at
this generation have built. -/
structure Recalls (c : CompiledCache) (calls : List CacheCall) : Prop where
  generation : c.generation = newest calls
  kept : ∀ key, c.kept? key = firstBuilt? c.generation key (sinceClear calls)

lemma recalls_empty : empty.Recalls [] where
  generation := rfl
  kept key := by cases key <;> rfl

/-- A request for an older generation is compiled, and the cache stays as it is. -/
lemma serve_of_lt (h : r.generation < c.generation) :
    c.serve r = ⟨(r.compile ()).1, c, true, (r.compile ()).2⟩ :=
  (serve_eq_answer c r).trans (answer_of_lt h)

/-- A cache that goes along with the generation of a request recalls what is of that generation. -/
lemma Recalls.advance {d : CompiledCache} {g : Generation} (h : c.Recalls calls)
    (hd : c.advance? g = some d) (key : CacheKey) :
    d.kept? key = firstBuilt? g key (sinceClear calls) := by
  rw [advance?] at hd
  split at hd
  · cases hd
  · split at hd
    · rename_i hlt
      cases hd
      rw [firstBuilt?_of_newest_lt (h.generation ▸ hlt)]
      cases key <;> rfl
    · rename_i hle hge
      cases hd
      rw [h.kept, Nat.le_antisymm (Nat.not_lt.1 hle) (Nat.not_lt.1 hge)]

/-- A request that is not the first one for its key is answered with what the first one built. -/
lemma Recalls.serve_of_built {v : r.key.Validator} (h : c.Recalls calls)
    (hle : newest calls ≤ r.generation)
    (hbuilt : firstBuilt? r.generation r.key (sinceClear calls) = some v) :
    c.generation = r.generation ∧ c.serve r = ⟨v, c, false, []⟩ := by
  have hg : c.generation = r.generation := by
    rw [h.generation]
    refine Nat.le_antisymm hle (Nat.not_lt.1 fun hlt => ?_)
    rw [firstBuilt?_of_newest_lt hlt] at hbuilt
    cases hbuilt
  have hkept : c.kept? r.key = some v := by rw [h.kept, hg, hbuilt]
  rw [serve_eq_answer, hkept]
  exact ⟨hg, answer_of_kept hg⟩

/-- The first request for its key is compiled, and its validator is kept beside the others of its
generation. -/
lemma Recalls.serve_of_not_built (h : c.Recalls calls) (hle : newest calls ≤ r.generation)
    (hnew : firstBuilt? r.generation r.key (sinceClear calls) = none) :
    ∃ d : CompiledCache, d.generation = r.generation ∧
      (∀ key, d.kept? key = firstBuilt? r.generation key (sinceClear calls)) ∧
      c.serve r =
        ⟨(r.compile ()).1, d.keep r.key (r.compile ()).1, true, (r.compile ()).2⟩ := by
  cases hd : c.advance? r.generation with
  | none =>
      have hlt : r.generation < c.generation := advance?_eq_none_iff.1 hd
      rw [h.generation] at hlt
      exact absurd hlt (Nat.not_lt.2 hle)
  | some d =>
      refine ⟨d, generation_of_advance? hd, h.advance hd, ?_⟩
      rw [serve_eq_answer]
      refine answer_of_advance? hd fun hg => ?_
      rw [h.kept, hg, hnew]

/-- **Every call keeps the cache in step with the calls before.** -/
lemma Recalls.call (h : c.Recalls calls) (k : CacheCall) : (c.call k).Recalls (calls ++ [k]) := by
  cases k with
  | clear =>
      refine ⟨h.generation.trans (newest_clear calls).symm, fun key => ?_⟩
      rw [sinceClear_clear]
      cases key <;> rfl
  | request r =>
      rcases Nat.lt_or_ge r.generation (newest calls) with hlt | hle
      · -- The request is for a generation that is over.
        have hother : ∀ key, r.built? c.generation key = none := fun key =>
          built?_eq_none_iff.2 fun heq => Nat.ne_of_lt hlt (heq.2.trans h.generation)
        rw [CompiledCache.call, serve_of_lt (h.generation ▸ hlt)]
        refine ⟨?_, fun key => ?_⟩
        · rw [newest_request, h.generation, Nat.max_eq_left (Nat.le_of_lt hlt)]
        · rw [sinceClear_request, firstBuilt?_concat, hother, Option.or_none, h.kept]
      · have hnewest : newest (calls ++ [.request r]) = r.generation := by
          rw [newest_request, Nat.max_eq_right hle]
        cases hbuilt : firstBuilt? r.generation r.key (sinceClear calls) with
        | some v =>
            obtain ⟨hg, hserve⟩ := h.serve_of_built hle hbuilt
            rw [CompiledCache.call, hserve]
            refine ⟨hg.trans hnewest.symm, fun key => ?_⟩
            rw [sinceClear_request, firstBuilt?_concat, h.kept, hg]
            by_cases hkey : r.key = key
            · subst hkey
              rw [hbuilt, Option.some_or]
            · rw [built?_eq_none_iff.2 fun heq => hkey heq.1, Option.or_none]
        | none =>
            obtain ⟨d, hg, hkept, hserve⟩ := h.serve_of_not_built hle hbuilt
            rw [CompiledCache.call, hserve]
            refine ⟨by rw [generation_keep, hg, hnewest], fun key => ?_⟩
            rw [sinceClear_request, firstBuilt?_concat, generation_keep, hg, kept?_keep]
            by_cases hkey : r.key = key
            · subst hkey
              rw [dif_pos rfl, hbuilt, built?_self, Option.none_or]
            · rw [dif_neg hkey, built?_eq_none_iff.2 fun heq => hkey heq.1, Option.or_none, hkept]

lemma recalls_after (calls : List CacheCall) : (after calls).Recalls calls := by
  induction calls using List.reverseRecOn with
  | nil => exact recalls_empty
  | append_singleton calls k ih =>
      rw [after, List.foldl_append]
      exact ih.call k

/-! ## How much is kept -/

/-- The keys under which something is kept. -/
def keys (c : CompiledCache) : List CacheKey :=
  c.forms.keys.map .form ++ c.fieldKeys.map fun k => .field k.1 k.2

lemma length_keys (c : CompiledCache) : c.keys.length = c.size := by
  simp [keys, size, KeyMap.keys, KeyMap.size]

lemma mem_fieldKeys_iff {form field : String} :
    (form, field) ∈ c.fieldKeys ↔ (c.field? form field).isSome := by
  have hkeys : (form, field) ∈ c.fieldKeys ↔
      ∃ fields, (form, fields) ∈ c.fields.entries ∧ field ∈ fields.keys := by
    simp [fieldKeys]
  simp only [hkeys, KeyMap.mem_entries_iff, KeyMap.mem_keys_iff, field?]
  cases c.fields.find? form <;> simp

lemma nodup_fieldKeys (c : CompiledCache) : c.fieldKeys.Nodup := by
  refine List.nodup_flatMap.2 ⟨fun e _ => ?_, c.fields.sorted.imp fun {d e} hlt => ?_⟩
  · exact (KeyMap.nodup_keys e.2).map fun x y h => (Prod.mk.inj h).2
  · -- The keys of two entries belong to two forms.
    intro k hd he
    obtain ⟨x, -, rfl⟩ := List.mem_map.1 hd
    obtain ⟨y, -, heq⟩ := List.mem_map.1 he
    have hform : e.1 = d.1 := (Prod.mk.inj heq).1
    rw [hform] at hlt
    exact String.lt_irrefl _ hlt

lemma mem_keys_iff {key : CacheKey} : key ∈ c.keys ↔ (c.kept? key).isSome := by
  cases key with
  | form form => simp [keys, kept?, form?, KeyMap.mem_keys_iff]
  | field form field => simp [keys, kept?, ← mem_fieldKeys_iff]

lemma nodup_keys (c : CompiledCache) : c.keys.Nodup := by
  refine List.nodup_append.2 ⟨?_, ?_, ?_⟩
  · exact (KeyMap.nodup_keys c.forms).map fun x y h => CacheKey.form.inj h
  · refine (nodup_fieldKeys c).map fun x y h => ?_
    exact Prod.ext (CacheKey.field.inj h).1 (CacheKey.field.inj h).2
  · rintro _ hform _ hfield rfl
    obtain ⟨x, -, rfl⟩ := List.mem_map.1 hform
    obtain ⟨y, -, heq⟩ := List.mem_map.1 hfield
    cases heq

/-- A cache keeps a validator for each key that was asked for, and for no other. -/
lemma Recalls.size (h : c.Recalls calls) : c.size = (keysAsked calls).length := by
  have hmem : ∀ key, key ∈ c.keys ↔ key ∈ keysAsked calls := by
    intro key
    rw [mem_keys_iff, h.kept, h.generation, Option.isSome_iff_ne_none, Ne,
      firstBuilt?_eq_none_iff, keysAsked, List.mem_dedup, List.mem_map]
    simp only [List.mem_filter, decide_eq_true_eq, not_forall, not_not]
    exact ⟨fun ⟨r, hr, hkey, hg⟩ => ⟨r, ⟨hr, hg⟩, hkey⟩,
      fun ⟨r, ⟨hr, hg⟩, hkey⟩ => ⟨r, hr, hkey, hg⟩⟩
  have hperm : c.keys.Perm (keysAsked calls) :=
    (List.perm_ext_iff_of_nodup (nodup_keys c) (List.nodup_dedup _)).2 hmem
  rw [← length_keys, hperm.length_eq]

/-- **A cache answers as its history says.**  Whatever has been called before, the cache is of the
newest generation that was asked for, and it keeps as many validators as keys were asked for at that
generation since it was last cleared.  A request for an older generation is answered with what it
compiles itself, and changes nothing.  Any other request is answered with what the first request for
the same key and generation since then has built, itself included; and it compiles exactly if it is
the first. -/
theorem serve_after (calls : List CacheCall) :
    (after calls).generation = newest calls ∧
    (after calls).size = (keysAsked calls).length ∧
    ∀ r : CacheRequest,
      (r.generation < newest calls →
        (after calls).serve r = ⟨(r.compile ()).1, after calls, true, (r.compile ()).2⟩) ∧
      (newest calls ≤ r.generation →
        firstBuilt? r.generation r.key (sinceClear (calls ++ [.request r])) =
          some ((after calls).serve r).validator ∧
        (((after calls).serve r).compiled = true ↔
          ∀ q ∈ sinceClear calls, ¬ (q.key = r.key ∧ q.generation = r.generation)) ∧
        ((after calls).serve r).events =
          if ((after calls).serve r).compiled then (r.compile ()).2 else []) := by
  have h := recalls_after calls
  refine ⟨h.generation, h.size, fun r => ⟨fun hlt => ?_, fun hle => ?_⟩⟩
  · exact serve_of_lt (h.generation ▸ hlt)
  · rw [sinceClear_request, firstBuilt?_concat, ← firstBuilt?_eq_none_iff]
    cases hbuilt : firstBuilt? r.generation r.key (sinceClear calls) with
    | some v => simp [(h.serve_of_built hle hbuilt).2]
    | none =>
        obtain ⟨d, -, -, hserve⟩ := h.serve_of_not_built hle hbuilt
        simp [hserve, built?_self]

/-- A form is asked for, the cache is cleared, and the form is asked for again: the second request
counts from then on, and a request for the generation before stands alone. -/
theorem serve_after_cleared :
    let ask (g : Generation) (made : String) : CacheRequest :=
      ⟨g, .form "F", fun _ => (⟨made, []⟩, [])⟩
    let calls : List CacheCall := [.request (ask 2 "first"), .clear, .request (ask 2 "second")]
    newest calls ≤ 2 ∧ ((after calls).serve (ask 2 "third")).validator = ⟨"second", []⟩ ∧
      1 < newest calls ∧ ((after calls).serve (ask 1 "third")).validator = ⟨"third", []⟩ ∧
      (after calls).size = 1 := by
  intro ask calls
  obtain ⟨-, hsize, hserve⟩ := serve_after calls
  have hnewest : newest calls = 2 := rfl
  have hsecond := ((hserve (ask 2 "third")).2 (Nat.le_of_eq hnewest)).1
  have hthird := (hserve (ask 1 "third")).1 (by rw [hnewest]; decide)
  refine ⟨Nat.le_of_eq hnewest, (Option.some.inj hsecond).symm, by rw [hnewest]; decide, ?_, ?_⟩
  · rw [hthird]
  · rw [hsize]
    decide

end CompiledCache

end FormValidation
