import FormValidation.Proofs.Source.Refresh
import FormValidation.Source.Basic

/-!
# Generations tell documents apart

What is made from a document is kept under the generation of the document, so two things must
hold of a source: while the generation stays, the document stays, and the count never comes to its
end.  The first is seen from a single call.  The second needs a bound on how often a source counts,
and for a store that is once for each state of the source: after that the store is `Settled`, and
no number of further calls, forced or not, counts again.

`StoreSource.Moves` lists what a call can do to a state of a store, `moves_call` says that a call
does one of these, and `RuleSource.Counted` is the bound for all sources.  The results are
`RuleSource.Follows` for single steps (`follows_look`, `follows_replace`, `follows_load`) and the
preservation of the bound.
-/

namespace FormValidation

/-- What is served and where it came from, without the marker. -/
def StoreState.taken (s : StoreState) : Option (Document × Digest) :=
  s.kept.map fun k => (k.document, k.digest)

lemma StoreState.document_eq_taken (s : StoreState) :
    s.document = (s.taken.map (·.1)).getD .empty := by
  rw [document, taken]
  cases s.kept <;> rfl

lemma StoreState.digest?_eq_taken (s : StoreState) : s.digest? = s.taken.map (·.2) := by
  rw [digest?, taken, Option.map_map]
  rfl

namespace StoreSource

/-- The store has taken from the source what there is to take: it keeps nothing if the source is
absent, and it keeps the content of a file that can be loaded. -/
def Settled (p : StoreSource) (s : StoreState) : SourceState → Prop
  | .absent => s.taken = none
  | .obstructed _ => True
  | .file version content => ∀ read d, p.bytes version content = .ok read →
      p.document read.1 = .ok d → s.taken.map (·.2) = some read.2

/-- What a call can do: what is served stays, with its generation, or something else is taken from a
source from which not everything had been taken. -/
inductive Moves (p : StoreSource) (now : SourceState) (s t : StoreState) : Prop
  | stay (hgeneration : t.generation = s.generation) (htaken : t.taken = s.taken)
  | take (hgeneration : t.generation = Generation.next s.generation) (hbefore : ¬ p.Settled s now)
      (hafter : p.Settled t now)

variable {p : StoreSource} {now : SourceState} {s t u : StoreState}

lemma settled_congr (h : s.taken = t.taken) : p.Settled s now ↔ p.Settled t now := by
  cases now <;> simp only [Settled, h]

/-- Only what is served and its generation matter for what a call does. -/
lemma Moves.congr (h : p.Moves now s u) (hgeneration : s.generation = t.generation)
    (htaken : s.taken = t.taken) : p.Moves now t u := by
  cases h with
  | stay hg hd => exact .stay (hg.trans hgeneration) (hd.trans htaken)
  | take hg hbefore hafter =>
      exact .take (hgeneration ▸ hg) (fun h => hbefore ((settled_congr htaken).2 h)) hafter

/-! ## Calls -/

lemma moves_refreshAbsent (p : StoreSource) (s : StoreState) :
    p.Moves .absent s (p.refreshAbsent s).state := by
  by_cases hkept : s.kept.isSome
  · refine .take ?_ ?_ ?_
    · simp [refreshAbsent, StorePass.serve, StoreState.replace, hkept]
    · obtain ⟨k, hk⟩ := Option.isSome_iff_exists.1 hkept
      simp [Settled, StoreState.taken, hk]
    · rw [Settled, StoreState.taken, (forgotten_refreshAbsent p s).1]
      rfl
  · refine .stay ?_ ?_ <;>
      simp [refreshAbsent, StorePass.serve, hkept, StoreState.taken]

lemma moves_reading {version : SourceVersion} {content : Except String ByteArray}
    {pass : StorePass} (h : Reading p s version content pass) :
    p.Moves (.file version content) s pass.state := by
  cases h with
  | refused fault hunusable => exact .stay rfl rfl
  | known read kept hbytes hkept hdigest =>
      -- The content is known already, and its marker is all that changes.
      refine .stay rfl ?_
      rw [StoreState.taken, StoreState.taken, hkept]
      rfl
  | installed read d hbytes hnew hdocument =>
      rw [StoreState.digest?_eq_taken] at hnew
      refine .take rfl (fun h => hnew (h read d hbytes hdocument)) fun again e hagain _ => ?_
      rw [hbytes] at hagain
      cases hagain
      rfl

/-- **A refresh counts at most once for a state of the source**, and what is served only changes
with the count. -/
lemma moves_refresh (p : StoreSource) (s : StoreState) (now : SourceState) (force : Bool) :
    p.Moves now s (p.refresh s now force).state := by
  cases now with
  | absent =>
      rw [refresh_absent]
      split
      · exact .stay rfl rfl
      · have hmoves : p.Moves .absent s.unobstructed _ := moves_refreshAbsent p s.unobstructed
        exact hmoves.congr rfl rfl
  | obstructed obstacle =>
      rw [refresh_obstructed]
      exact .stay rfl rfl
  | file version content =>
      rw [refresh_file]
      split
      · exact .stay rfl rfl
      · have hmoves := moves_reading (reading_refreshFile p s.unobstructed version content)
        exact hmoves.congr rfl rfl

/-- So does a call. -/
lemma moves_call (store : Store) (c : StoreCall) :
    store.source.Moves c.now store.state (store.call c).1.state := by
  rw [Store.call_state, Store.call_pass]
  exact moves_refresh store.source store.state c.now c.isReload

end StoreSource

namespace RuleSource

/-! ## Sources of rules -/

/-- The document that a source has at hand. -/
def document : RuleSource → Document
  | .memory m => m.document
  | .manual m => m.document
  | .store s => s.state.document

/-- The generation of the document that a source has at hand. -/
def generation : RuleSource → Generation
  | .memory m => m.generation
  | .manual m => m.generation
  | .store s => s.state.generation

/-- The source with another document, if it takes one. -/
def replace (source : RuleSource) (d : Document) : RuleSource :=
  match source with
  | .memory m => .memory (m.replace d)
  | .manual m => .manual { m with document := d }
  | .store s => .store s

/-- The source after a call, if it is a store. -/
def load (source : RuleSource) (c : StoreCall) : RuleSource :=
  match source with
  | .memory m => .memory m
  | .manual m => .manual m
  | .store s => .store (s.call c).1

/-- A source from which nothing has been taken yet. -/
inductive IsNew : RuleSource → Prop
  | unset : IsNew (.memory .unset)
  | document (d : Document) : IsNew (.memory (.of d))
  | file (p : StoreSource) : IsNew (.store (.opened p))

/-- How often a source may have counted when its document or its file has changed `changes` times:
a store counts once for each state of its source, and no more for the present one if it is
settled. -/
def Counted (source : RuleSource) (now : SourceState) (changes : Nat) : Prop :=
  match source with
  | .memory m => m.generation ≤ changes + 1
  | .manual _ => False
  | .store s => s.state.generation ≤ changes ∨
      s.state.generation ≤ changes + 1 ∧ s.source.Settled s.state now

/-- One source comes after another: either it has the same document in the same generation, or its
generation is a later one. -/
def Follows (source next : RuleSource) : Prop :=
  (next.generation = source.generation ∧ next.document = source.document) ∨
    source.generation < next.generation

variable {source : RuleSource} {now : SourceState} {changes : Nat}

lemma counted_of_isNew (h : source.IsNew) (now : SourceState) : source.Counted now 0 := by
  cases h with
  | unset => exact Nat.zero_le _
  | document d => exact Nat.le_refl _
  | file p => exact .inl (Nat.le_refl _)

/-- What a source serves is what it has at hand afterwards. -/
lemma look_eq (source : RuleSource) (now : SourceState) :
    (source.look now).1 = source.load ⟨false, now⟩ ∧
      (source.look now).2.document = (source.look now).1.document ∧
      (source.look now).2.generation = (source.look now).1.generation := by
  cases source with
  | memory m => exact ⟨rfl, rfl, rfl⟩
  | manual m => exact ⟨rfl, rfl, rfl⟩
  | store s => exact ⟨rfl, s.document_call ⟨false, now⟩, rfl⟩

/-- A change of the file leaves room for one more document. -/
lemma Counted.change (h : source.Counted now changes) (later : SourceState) :
    source.Counted later (changes + 1) := by
  cases source with
  | memory m => exact Nat.le_succ_of_le h
  | manual m => exact h
  | store s =>
      refine .inl ?_
      rcases h with h | ⟨h, -⟩
      · exact Nat.le_succ_of_le h
      · exact h

lemma counted_replace (h : source.Counted now changes) (d : Document) :
    (source.replace d).Counted now (changes + 1) := by
  cases source with
  | memory m =>
      have hnext : Generation.next m.generation ≤ m.generation + 1 := Nat.min_le_left _ _
      have hle : m.generation ≤ changes + 1 := h
      exact Nat.le_trans hnext (Nat.succ_le_succ hle)
  | manual m => exact h
  | store s => exact h.change now

lemma follows_replace (h : source.Counted now changes) (hroom : changes + 1 < Generation.last)
    (d : Document) : source.Follows (source.replace d) := by
  cases source with
  | memory m =>
      have hlt : m.generation < Generation.last := Nat.lt_of_le_of_lt h hroom
      have hnext : Generation.next m.generation = m.generation + 1 := Generation.next_eq hlt
      refine .inr ?_
      show m.generation < Generation.next m.generation
      rw [hnext]
      exact Nat.lt_succ_self _
  | manual m => exact h.elim
  | store s => exact .inl ⟨rfl, rfl⟩

/-- A call of a store that has not settled has room for one more document. -/
lemma counted_load (h : source.Counted now changes) (hroom : changes < Generation.last)
    (isReload : Bool) :
    (source.load ⟨isReload, now⟩).Counted now changes ∧
      source.Follows (source.load ⟨isReload, now⟩) := by
  cases source with
  | memory m => exact ⟨h, .inl ⟨rfl, rfl⟩⟩
  | manual m => exact h.elim
  | store s =>
      have hsource : (s.call ⟨isReload, now⟩).1.source = s.source := s.call_source _
      rcases StoreSource.moves_call s ⟨isReload, now⟩ with ⟨hg, ht⟩ | ⟨hg, hbefore, hafter⟩
      · refine ⟨?_, .inl ⟨hg, ?_⟩⟩
        · rw [load, Counted, hg, hsource, StoreSource.settled_congr ht]
          exact h
        · rw [load, document, document, StoreState.document_eq_taken, ht,
            ← StoreState.document_eq_taken]
      · have hle : s.state.generation ≤ changes := by
          rcases h with h | ⟨-, hsettled⟩
          · exact h
          · exact absurd hsettled hbefore
        rw [Generation.next_eq (Nat.lt_of_le_of_lt hle hroom)] at hg
        refine ⟨.inr ⟨?_, hsource ▸ hafter⟩, .inr ?_⟩
        · rw [hg]
          exact Nat.succ_le_succ hle
        · rw [load, generation, generation, hg]
          exact Nat.lt_succ_self _

end RuleSource

end FormValidation
