import FormValidation.Proofs.Source.Refresh

/-!
# Early exits

A store does not look into its source where an observation shows nothing new.  It goes by
`StoreState.fresh?`, which knows the state and the observation and nothing of the file.  This file
says that this short way agrees with the long one, which is a refresh, and it says so for every
state, not only for those that calls can leave.

Where there is an early exit, a refresh that is not forced does nothing, whatever is in the file.
After a refresh, forced or not, there is an early exit for what it observed, with the document that
it handed out.  The main statement, `StoreSource.early_exits_agree`, says both.  Together they leave
no room between the two ways: an observation shows nothing new exactly where a refresh would do
nothing (`StoreSource.fresh?_eq_some_iff`).

For runs this means that a source that looks as before costs nothing.  After a call, every load that
observes the same takes the early exit, however many there are (`Store.call_after_repeats`).
-/

namespace FormValidation

namespace StoreSource

/-- **An early exit is taken wherever it may be, and nowhere else.** -/
theorem fresh?_eq_some_iff (p : StoreSource) (s : StoreState) (now : SourceState) (d : Document) :
    s.fresh? now.observe = some d ↔ p.refresh s now false = .unchanged s d := by
  refine ⟨refresh_eq_unchanged p s, fun h => ?_⟩
  -- The refresh has left the state as it was, so the exit that follows it was there before.
  have hafter := fresh?_refresh p s now false
  rw [h] at hafter
  exact hafter

/-- **The short way and the long way agree.**  In every state, if an observation shows nothing new,
a refresh that is not forced hands out the document of the early exit, leaves the state as it is,
reads nothing and records nothing, whatever there is at the path of the source under that
observation.  And after every refresh, forced or not, and whatever comes of reading the file, its
own observation shows nothing new, with the document that the refresh has handed out. -/
theorem early_exits_agree (p : StoreSource) (s : StoreState) (seen : Observation) :
    (∀ d, s.fresh? seen = some d → ∀ now, now.observe = seen →
      let done := p.refresh s now false
      done.document = d ∧ done.state = s ∧ done.hasRead = false ∧ done.events = []) ∧
    ∀ now, now.observe = seen → ∀ force,
      let done := p.refresh s now force
      done.state.fresh? seen = some done.document := by
  refine ⟨fun d hfresh now hseen => ?_, fun now hseen force => ?_⟩
  · subst hseen
    rw [refresh_eq_unchanged p s hfresh]
    exact ⟨rfl, rfl, rfl, rfl⟩
  · subst hseen
    exact fresh?_refresh p s now force

/-- A document is kept, and the file has been rewritten with broken content.  A refresh does not
look into the broken file again, so that it does not matter that it has become unreadable.  One by
force does; it is refused, and the exit is still there. -/
theorem early_exits_agree_broken :
    let p : StoreSource := ⟨⟨"rules.json"⟩, .json, 100⟩
    let s := ((Store.opened p).after
      [⟨false, .file ⟨0, 9⟩ (.ok "\x7b\"F\": \x7b\x7d\x7d".toUTF8)⟩,
        ⟨false, .file ⟨1, 1⟩ (.ok "\x7b".toUTF8)⟩]).state
    let now : SourceState := .file ⟨1, 1⟩ (.error "denied")
    let d : Document := ⟨KeyMap.ofList [("F", .empty)]⟩
    let done := p.refresh s now false
    let forced := p.refresh s now true
    (s.fresh? (.present ⟨1, 1⟩) = some d ∧ now.observe = .present ⟨1, 1⟩) ∧
      (done.document = d ∧ done.state = s ∧ done.hasRead = false ∧ done.events = []) ∧
      forced.hasRead = true ∧
        forced.events = [⟨.sourceError, none, none, none,
          "rules.json (1): config io error: denied; keeping previous rules"⟩] ∧
        forced.state.fresh? (.present ⟨1, 1⟩) = some forced.document := by
  intro p s now d done forced
  have hfresh : s.fresh? (.present ⟨1, 1⟩) = some d := by decide +kernel
  obtain ⟨hshort, hlong⟩ := early_exits_agree p s (.present ⟨1, 1⟩)
  exact ⟨⟨hfresh, rfl⟩, hshort d hfresh now rfl, rfl, by decide +kernel, hlong now rfl true⟩

end StoreSource

/-! ## Runs -/

/-- The call is a load that observes what another call has observed. -/
def StoreCall.Repeats (c earlier : StoreCall) : Prop :=
  c.isReload = false ∧ c.now.observe = earlier.now.observe

namespace Store

variable {s : Store} {first c : StoreCall}

/-- A load whose observation shows nothing new leaves the store as it is. -/
lemma load_of_fresh? {now : SourceState} {d : Document} (h : s.state.fresh? now.observe = some d) :
    s.load now = (s, .unchanged s.state d) := by
  rw [load, StoreSource.snapshot, h]
  rfl

lemma call_of_repeats (h : c.Repeats first) : (s.call first).1.call c =
    ((s.call first).1, .unchanged (s.call first).1.state (s.call first).2.document) := by
  obtain ⟨hload, hseen⟩ := h
  have hfresh : (s.call first).1.state.fresh? c.now.observe = some (s.call first).2.document := by
    rw [call_state, call_pass, hseen]
    exact StoreSource.fresh?_refresh s.source s.state first.now first.isReload
  rw [call, hload, if_neg Bool.false_ne_true, load_of_fresh? hfresh]

/-- Loads that observe what the call before them has observed change nothing. -/
lemma after_repeats (s : Store) {loads : List StoreCall} (h : ∀ c ∈ loads, c.Repeats first) :
    (s.call first).1.after loads = (s.call first).1 := by
  induction loads with
  | nil => rfl
  | cons c loads ih =>
      obtain ⟨hc, hloads⟩ := List.forall_mem_cons.1 h
      rw [after, List.foldl_cons, call_of_repeats hc]
      exact ih hloads

/-- **A source that looks as before costs nothing.**  After a call, and any number of loads that
observed the same, a load that observes the same hands out the document of that call, reads nothing
and records nothing, and the store is as the call has left it. -/
theorem call_after_repeats (s : Store) {loads : List StoreCall}
    (h : ∀ c ∈ loads, c.Repeats first) (hc : c.Repeats first) :
    ((s.call first).1.after loads).call c =
      ((s.call first).1, .unchanged (s.call first).1.state (s.call first).2.document) := by
  rw [after_repeats s h, call_of_repeats hc]

end Store

end FormValidation
