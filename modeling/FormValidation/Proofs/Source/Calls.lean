import FormValidation.Source.Store
import Mathlib.Tactic.Common

/-!
# Calls of a store

A run of a store is a list of calls, each of them a load or a reload with what there is at the path
of the source at that moment.  `Store.call` makes one call and `Store.after` a run of them.  Calls
change the state of a store and never its source (`Store.source_after`).
-/

namespace FormValidation

/-- A call of a store, with what there is at the path of its source at that moment. -/
structure StoreCall where
  /-- Whether the file is to be read in any case. -/
  isReload : Bool
  now : SourceState

namespace Store

/-- A store for a source from which nothing has been read yet. -/
def opened (p : StoreSource) : Store := ⟨p, .start⟩

/-- Makes a call. -/
def call (s : Store) (c : StoreCall) : Store × StorePass :=
  if c.isReload then s.reload c.now else s.load c.now

/-- The store that a run of calls leaves. -/
def after (s : Store) (calls : List StoreCall) : Store := calls.foldl (fun s c => (s.call c).1) s

lemma after_concat (s : Store) (calls : List StoreCall) (c : StoreCall) :
    s.after (calls ++ [c]) = ((s.after calls).call c).1 := by
  rw [after, List.foldl_append]
  rfl

lemma call_state (s : Store) (c : StoreCall) : (s.call c).1.state = (s.call c).2.state := by
  rw [call]
  split <;> rfl

lemma call_source (s : Store) (c : StoreCall) : (s.call c).1.source = s.source := by
  rw [call]
  split <;> rfl

lemma source_after (s : Store) (calls : List StoreCall) : (s.after calls).source = s.source := by
  induction calls generalizing s with
  | nil => rfl
  | cons c calls ih => exact (ih (s.call c).1).trans (call_source s c)

lemma source_after_opened (p : StoreSource) (calls : List StoreCall) :
    ((opened p).after calls).source = p := source_after (opened p) calls

end Store

end FormValidation
