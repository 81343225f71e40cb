import FormValidation.Proofs.Source.Refresh
import Mathlib.Data.List.Induction

/-!
# Reports of outages

A store reports that its source is absent and that its source cannot be inspected.  Each should be
reported once whenever the source comes to be so, which two flags of the store are for.  This file
says what the flags amount to over whole runs, for every order of absent, obstructed, broken and
good states of the source.

`FlagsTell` is the invariant: the one flag says whether the source was found obstructed last, the
other whether it was found absent when it was last found unobstructed (`lastUnobstructed`).  The
second is not quite what it should be.  An obstruction between two absences is forgotten, and the
return to absence goes unreported (`silent_return_to_absence`); that is the only case
(`outage_reported_iff`).

Reports are told apart by their messages.  The path in them is any text, so it takes an argument
that the message about a broken file is never that about an absent or obstructed one
(`append_bracket_ne`).
-/

namespace FormValidation

/-! ## Words with a path in them -/

/-- If a list begins a word that is followed by the list itself, then it has no letters but those of
the word. -/
lemma mem_of_prefix_append_self {α : Type} {u : List α} (hu : u ≠ []) {w : List α}
    (h : w <+: u ++ w) {a : α} (ha : a ∈ w) : a ∈ u := by
  rcases List.prefix_or_prefix_of_prefix h (List.prefix_append u w) with hshort | ⟨rest, rfl⟩
  · exact hshort.subset ha
  · rcases List.mem_append.1 ha with ha | ha
    · exact ha
    · have hlength : 0 < u.length := List.length_pos_iff.2 hu
      exact mem_of_prefix_append_self hu ((List.prefix_append_right_inj u).1 h) ha
termination_by w.length
decreasing_by
  subst_vars
  simp only [List.length_append]
  omega

/-- Two texts with a path in them differ if one goes on behind the path with a bracket and the other
has some words, but no bracket, in front of it. -/
lemma append_bracket_ne {path u x y : List Char} (hbracket : '(' ∉ u) (hlength : 2 ≤ u.length) :
    path ++ (' ' :: '(' :: x) ≠ u ++ (path ++ y) := by
  intro h
  have hword : path ++ [' ', '('] <+: u ++ path := by
    have hleft : path ++ [' ', '('] <+: path ++ (' ' :: '(' :: x) :=
      (List.prefix_append_right_inj path).2 (List.prefix_append [' ', '('] x)
    have hright : u ++ path <+: u ++ (path ++ y) :=
      (List.prefix_append_right_inj u).2 (List.prefix_append path y)
    refine List.prefix_of_prefix_length_le (h ▸ hleft) hright ?_
    simp only [List.length_append, List.length_cons, List.length_nil]
    omega
  have hself : path ++ [' ', '('] <+: u ++ (path ++ [' ', '(']) :=
    hword.trans ((List.prefix_append_right_inj u).2 (List.prefix_append path _))
  have hu : u ≠ [] := by
    rintro rfl
    cases hlength
  exact hbracket (mem_of_prefix_append_self hu hself (by simp))

namespace StoreSource

variable {p : StoreSource} {s : StoreState}

/-! ## Telling reports apart -/

lemma toList_absentEvent (p : StoreSource) : p.absentEvent.message.toList =
    "config source ".toList ++ (p.path.text.toList ++ " not found; no rules apply".toList) := by
  simp only [absentEvent, Diagnostic.general, String.toList_append, List.append_assoc]

lemma toList_notFileEvent (p : StoreSource) : (p.obstacleEvent .notFile).message.toList =
    "config source ".toList ++ (p.path.text.toList ++ " is not a file".toList) := by
  have hmessage : (p.obstacleEvent .notFile).message =
      "config source " ++ p.path.text ++ " is not a file" := rfl
  rw [hmessage, String.toList_append, String.toList_append, List.append_assoc]

lemma toList_failedEvent (p : StoreSource) (reason : String) :
    (p.obstacleEvent (.failed reason)).message.toList =
      "config io error: ".toList ++ (p.path.text.toList ++ (": ".toList ++ reason.toList)) := by
  have hmessage : (p.obstacleEvent (.failed reason)).message =
      "config io error: " ++ (p.path.text ++ ": " ++ reason) := rfl
  rw [hmessage, String.toList_append, String.toList_append, String.toList_append,
    List.append_assoc]

lemma toList_faultEvent (version : SourceVersion) (fault : SourceFault) (hasDocument : Bool) :
    ∃ more, (p.faultEvent version fault hasDocument).message.toList =
      p.path.text.toList ++ (' ' :: '(' :: more) := by
  simp only [faultEvent, Diagnostic.general, String.toList_append, List.append_assoc]
  exact ⟨_, rfl⟩

/-- The words for an inspection that failed begin unlike those for a source that is absent or no
file. -/
lemma ioError_ne (x y : List Char) :
    "config io error: ".toList ++ x ≠ "config source ".toList ++ y := by
  intro h
  have hletter := congrArg (fun l : List Char => l[7]?) h
  rw [List.getElem?_append_left (by decide), List.getElem?_append_left (by decide)] at hletter
  exact absurd hletter (by decide)

/-- Events with different texts are different. -/
lemma ne_of_toList_ne {a b : Diagnostic} {x y : List Char} (ha : a.message.toList = x)
    (hb : b.message.toList = y) (hne : x ≠ y) : a ≠ b := by
  rintro rfl
  exact hne (ha.symm.trans hb)

lemma obstacleEvent_ne_absentEvent (p : StoreSource) (obstacle : Obstacle) :
    p.obstacleEvent obstacle ≠ p.absentEvent := by
  cases obstacle with
  | notFile =>
      refine ne_of_toList_ne (toList_notFileEvent p) (toList_absentEvent p) fun h => ?_
      have hend := List.append_cancel_left (List.append_cancel_left h)
      exact absurd hend (by decide)
  | failed reason =>
      exact ne_of_toList_ne (toList_failedEvent p reason) (toList_absentEvent p) (ioError_ne _ _)

lemma obstacleEvent_injective (p : StoreSource) : Function.Injective p.obstacleEvent := by
  have hdiffers : ∀ reason, p.obstacleEvent (.failed reason) ≠ p.obstacleEvent .notFile :=
    fun reason => ne_of_toList_ne (toList_failedEvent p reason) (toList_notFileEvent p)
      (ioError_ne _ _)
  intro obstacle other h
  cases obstacle with
  | notFile =>
      cases other with
      | notFile => rfl
      | failed reason => exact absurd h.symm (hdiffers reason)
  | failed reason =>
      cases other with
      | notFile => exact absurd h (hdiffers reason)
      | failed reason' =>
          have htext := congrArg (fun e : Diagnostic => e.message.toList) h
          simp only [toList_failedEvent] at htext
          have hreason := List.append_cancel_left
            (List.append_cancel_left (List.append_cancel_left htext))
          rw [String.toList_inj.1 hreason]

lemma faultEvent_ne_absentEvent (version : SourceVersion) (fault : SourceFault)
    (hasDocument : Bool) : p.faultEvent version fault hasDocument ≠ p.absentEvent := by
  obtain ⟨more, hfault⟩ := toList_faultEvent (p := p) version fault hasDocument
  exact ne_of_toList_ne hfault (toList_absentEvent p) (append_bracket_ne (by decide) (by decide))

lemma faultEvent_ne_obstacleEvent (version : SourceVersion) (fault : SourceFault)
    (hasDocument : Bool) (obstacle : Obstacle) :
    p.faultEvent version fault hasDocument ≠ p.obstacleEvent obstacle := by
  obtain ⟨more, hfault⟩ := toList_faultEvent (p := p) version fault hasDocument
  cases obstacle with
  | notFile =>
      exact ne_of_toList_ne hfault (toList_notFileEvent p)
        (append_bracket_ne (by decide) (by decide))
  | failed reason =>
      exact ne_of_toList_ne hfault (toList_failedEvent p reason)
        (append_bracket_ne (by decide) (by decide))

/-- Nothing that comes of reading a file is reported as an outage. -/
lemma Reading.kind_ne_or_fault {version : SourceVersion} {content : Except String ByteArray}
    {pass : StorePass} (h : Reading p s version content pass) {event : Diagnostic}
    (hevent : event ∈ pass.events) :
    event.kind ≠ .sourceError ∨
      ∃ fault hasDocument, event = p.faultEvent version fault hasDocument := by
  cases h with
  | refused fault hunusable =>
      exact .inr ⟨fault, _, List.mem_singleton.1 hevent⟩
  | known read kept hbytes hkept hdigest => cases hevent
  | installed read d hbytes hnew hdocument =>
      refine .inl ?_
      rcases List.mem_cons.1 hevent with rfl | hlint
      · exact fun hkind => nomatch hkind
      · obtain ⟨issue, -, rfl⟩ := List.mem_map.1 hlint
        exact fun hkind => nomatch hkind

lemma Reading.absentEvent_notMem {version : SourceVersion} {content : Except String ByteArray}
    {pass : StorePass} (h : Reading p s version content pass) : p.absentEvent ∉ pass.events := by
  intro hevent
  rcases h.kind_ne_or_fault hevent with hkind | ⟨fault, hasDocument, heq⟩
  · exact hkind rfl
  · exact faultEvent_ne_absentEvent _ _ _ heq.symm

lemma Reading.obstacleEvent_notMem {version : SourceVersion}
    {content : Except String ByteArray} {pass : StorePass} (h : Reading p s version content pass)
    (obstacle : Obstacle) : p.obstacleEvent obstacle ∉ pass.events := by
  intro hevent
  rcases h.kind_ne_or_fault hevent with hkind | ⟨fault, hasDocument, heq⟩
  · exact hkind rfl
  · exact faultEvent_ne_obstacleEvent _ _ _ _ heq.symm

end StoreSource

/-! ## What a run has seen -/

/-- What the source was when it was last found unobstructed. -/
def lastUnobstructed (states : List SourceState) : Option SourceState :=
  (states.filter fun state => !state.observe.isObstructed).getLast?

/-- The source was found obstructed last. -/
def EndsObstructed (states : List SourceState) : Prop :=
  ∃ obstacle, states.getLast? = some (.obstructed obstacle)

section Seen

variable {states : List SourceState} {now : SourceState}

lemma lastUnobstructed_concat (h : now.observe.isObstructed = false) :
    lastUnobstructed (states ++ [now]) = some now := by
  simp [lastUnobstructed, List.filter_append, h]

lemma lastUnobstructed_concat_obstructed (obstacle : Obstacle) :
    lastUnobstructed (states ++ [.obstructed obstacle]) = lastUnobstructed states := by
  simp [lastUnobstructed, List.filter_append, SourceState.observe, Observation.isObstructed]

lemma endsObstructed_concat :
    EndsObstructed (states ++ [now]) ↔ ∃ obstacle, now = .obstructed obstacle := by
  simp [EndsObstructed]

/-- Unless it was found obstructed, the source was found unobstructed last. -/
lemma lastUnobstructed_eq_getLast? (h : ¬ EndsObstructed states) :
    lastUnobstructed states = states.getLast? := by
  induction states using List.reverseRecOn with
  | nil => rfl
  | append_singleton front last _ =>
      rw [List.getLast?_concat]
      refine lastUnobstructed_concat ?_
      cases last with
      | obstructed obstacle => exact absurd (endsObstructed_concat.2 ⟨obstacle, rfl⟩) h
      | absent | file version content => rfl

end Seen

namespace StoreSource

variable {p : StoreSource} {seen : List SourceState} {now : SourceState} {s : StoreState}

/-! ## What the flags tell -/

/-- The flags of a store tell what the store has seen of its source. -/
structure FlagsTell (seen : List SourceState) (s : StoreState) : Prop where
  absent : s.absentReported = true ↔ lastUnobstructed seen = some .absent
  obstructed : s.obstructedReported = true ↔ EndsObstructed seen
  /-- While an absence stands, no marker is remembered. -/
  forgotten : s.absentReported = true → s.kept = none ∧ s.failed = none

lemma flagsTell_start : FlagsTell [] .start where
  absent := by simp [StoreState.start, lastUnobstructed]
  obstructed := by simp [StoreState.start, EndsObstructed]
  forgotten h := nomatch h

namespace FlagsTell

/-- A file that is seen ends both an absence and an obstruction. -/
lemma see_file (version : SourceVersion) (content : Except String ByteArray)
    (habsent : s.absentReported = false) (hobstructed : s.obstructedReported = false) :
    FlagsTell (seen ++ [.file version content]) s where
  absent := by
    rw [lastUnobstructed_concat rfl]
    simp [habsent]
  obstructed := by simp [endsObstructed_concat, hobstructed]
  forgotten h := by simp [habsent] at h

/-- An absence that is seen ends an obstruction. -/
lemma see_absent (habsent : s.absentReported = true) (hobstructed : s.obstructedReported = false)
    (hforgotten : s.kept = none ∧ s.failed = none) : FlagsTell (seen ++ [.absent]) s where
  absent := by
    rw [lastUnobstructed_concat rfl]
    simp [habsent]
  obstructed := by simp [endsObstructed_concat, hobstructed]
  forgotten _ := hforgotten

/-- An obstruction that is seen leaves an absence standing. -/
lemma see_obstructed (h : FlagsTell seen s) (obstacle : Obstacle) :
    FlagsTell (seen ++ [.obstructed obstacle]) (p.refreshObstructed s obstacle).state where
  absent := by
    rw [lastUnobstructed_concat_obstructed]
    exact h.absent
  obstructed := by simp [endsObstructed_concat, refreshObstructed, StorePass.serve]
  forgotten := h.forgotten

/-- Where a marker is remembered, no absence stands. -/
lemma not_absentReported (h : FlagsTell seen s) {version : SourceVersion}
    (hknown : s.Remembers version) : s.absentReported = false := by
  cases hreported : s.absentReported with
  | false => rfl
  | true =>
      obtain ⟨hkept, hfailed⟩ := h.forgotten hreported
      rw [StoreState.Remembers, hkept, hfailed] at hknown
      rcases hknown with hknown | hknown <;> cases hknown

end FlagsTell

/-- One refresh keeps the flags in line with what has been seen. -/
lemma flagsTell_refresh (h : FlagsTell seen s) (now : SourceState) (force : Bool) :
    FlagsTell (seen ++ [now]) (p.refresh s now force).state := by
  cases now with
  | absent =>
      rw [refresh_absent]
      split
      · rename_i hknown
        obtain ⟨-, -, habsent⟩ := hknown
        exact .see_absent habsent rfl (h.forgotten habsent)
      · exact .see_absent rfl (obstructedReported_refreshAbsent p _) (forgotten_refreshAbsent p _)
  | obstructed obstacle =>
      rw [refresh_obstructed]
      exact h.see_obstructed obstacle
  | file version content =>
      rw [refresh_file]
      split
      · rename_i hknown
        exact .see_file version content (h.not_absentReported hknown.2) rfl
      · obtain ⟨habsent, hobstructed⟩ :=
          (reading_refreshFile p s.unobstructed version content).flags
        exact .see_file version content habsent hobstructed

/-- A run of calls keeps them in line as well. -/
lemma flagsTell_after (p : StoreSource) (calls : List StoreCall) :
    FlagsTell (calls.map (·.now)) ((Store.opened p).after calls).state := by
  induction calls using List.reverseRecOn with
  | nil => exact flagsTell_start
  | append_singleton calls c ih =>
      rw [List.map_append, List.map_singleton, Store.after_concat, Store.call_state,
        Store.call_after_opened]
      exact flagsTell_refresh ih c.now c.isReload

/-! ## Reports -/

lemma events_refresh_absent (s : StoreState) (force : Bool) :
    (p.refresh s .absent force).events = if s.absentReported then [] else [p.absentEvent] := by
  rw [refresh_absent]
  split
  · rename_i hknown
    rw [if_pos hknown.2.2]
    rfl
  · rfl

lemma events_refresh_obstructed (s : StoreState) (obstacle : Obstacle) (force : Bool) :
    (p.refresh s (.obstructed obstacle) force).events =
      if s.obstructedReported then [] else [p.obstacleEvent obstacle] := by
  rw [refresh_obstructed]
  rfl

/-- A refresh reports an absence if it finds one that is not known. -/
lemma absentEvent_mem_refresh_iff (s : StoreState) (now : SourceState) (force : Bool) :
    p.absentEvent ∈ (p.refresh s now force).events ↔
      now = .absent ∧ s.absentReported = false := by
  cases now with
  | absent =>
      rw [events_refresh_absent]
      cases s.absentReported with
      | true => simp
      | false => exact iff_of_true (List.mem_singleton_self _) ⟨rfl, rfl⟩
  | obstructed obstacle =>
      rw [events_refresh_obstructed]
      refine iff_of_false (fun hmem => ?_) (fun h => nomatch h.1)
      split at hmem
      · cases hmem
      · exact obstacleEvent_ne_absentEvent p obstacle (List.mem_singleton.1 hmem).symm
  | file version content =>
      refine iff_of_false ?_ (fun h => nomatch h.1)
      rw [refresh_file]
      split
      · exact List.not_mem_nil
      · exact (reading_refreshFile p s.unobstructed version content).absentEvent_notMem

/-- A refresh reports an obstruction if it finds one where none was found before. -/
lemma obstacleEvent_mem_refresh_iff (s : StoreState) (now : SourceState) (force : Bool)
    (obstacle : Obstacle) :
    p.obstacleEvent obstacle ∈ (p.refresh s now force).events ↔
      now = .obstructed obstacle ∧ s.obstructedReported = false := by
  cases now with
  | absent =>
      rw [events_refresh_absent]
      refine iff_of_false (fun hmem => ?_) (fun h => nomatch h.1)
      split at hmem
      · cases hmem
      · exact obstacleEvent_ne_absentEvent p obstacle (List.mem_singleton.1 hmem)
  | obstructed other =>
      rw [events_refresh_obstructed, SourceState.obstructed.injEq]
      cases s.obstructedReported with
      | true => simp
      | false =>
          rw [if_neg (by decide), List.mem_singleton, (obstacleEvent_injective p).eq_iff]
          exact ⟨fun h => ⟨h.symm, rfl⟩, fun h => h.1.symm⟩
  | file version content =>
      refine iff_of_false ?_ (fun h => nomatch h.1)
      rw [refresh_file]
      split
      · exact List.not_mem_nil
      · exact (reading_refreshFile p s.unobstructed version content).obstacleEvent_notMem obstacle

/-- An outage is reported by one event and no other. -/
lemma length_events_refresh_le (s : StoreState) {now : SourceState} (force : Bool)
    (h : now = .absent ∨ now.observe.isObstructed = true) :
    (p.refresh s now force).events.length ≤ 1 := by
  cases now with
  | absent =>
      rw [events_refresh_absent]
      split <;> simp
  | obstructed obstacle =>
      rw [events_refresh_obstructed]
      split <;> simp
  | file version content => rcases h with h | h <;> cases h

/-- **When outages are reported.**  In every run of loads and reloads, over every sequence of states
of the source, a call reports that the source cannot be inspected exactly if it finds it so and the
call before it, if any, did not; and it reports that the source is absent exactly if it finds it
absent and the last call that did not find it obstructed, if any, found something else.  So an
absence is reported on every transition but one: where the call finds the source absent behind an
obstruction that came behind an absence.  The report is then all that the call records. -/
theorem outage_reported_iff (p : StoreSource) (earlier : List StoreCall) (c : StoreCall) :
    let states := earlier.map (·.now)
    let events := (((Store.opened p).after earlier).call c).2.events
    let absence : Diagnostic := ⟨.sourceError, none, none, none,
      "config source " ++ p.path.text ++ " not found; no rules apply"⟩
    (∀ obstacle, ⟨.sourceError, none, none, none, obstacle.message p.path.text⟩ ∈ events ↔
      c.now = .obstructed obstacle ∧ ¬ EndsObstructed states) ∧
    (absence ∈ events ↔ c.now = .absent ∧ lastUnobstructed states ≠ some .absent) ∧
    ((absence ∈ events ↔ c.now = .absent ∧ states.getLast? ≠ some .absent) ↔
      ¬ (c.now = .absent ∧ EndsObstructed states ∧ lastUnobstructed states = some .absent)) ∧
    (c.now = .absent ∨ c.now.observe.isObstructed = true → events.length ≤ 1) := by
  intro states events absence
  have hflags : FlagsTell states ((Store.opened p).after earlier).state := flagsTell_after p earlier
  have hevents : events =
      (p.refresh ((Store.opened p).after earlier).state c.now c.isReload).events := by
    rw [← Store.call_after_opened]
  have habsent : absence ∈ events ↔
      c.now = .absent ∧ lastUnobstructed states ≠ some .absent := by
    rw [hevents, ne_eq, ← hflags.absent, Bool.not_eq_true]
    exact absentEvent_mem_refresh_iff _ _ _
  refine ⟨fun obstacle => ?_, habsent, ?_, fun houtage => ?_⟩
  · rw [hevents, ← hflags.obstructed, Bool.not_eq_true]
    exact obstacleEvent_mem_refresh_iff _ _ _ obstacle
  · rw [habsent]
    by_cases hobstructed : EndsObstructed states
    · -- The call before found an obstruction, so it is not the one to go by.
      obtain ⟨obstacle, hlast⟩ := hobstructed
      have hends : EndsObstructed states := ⟨obstacle, hlast⟩
      simp [hlast, hends]
    · rw [lastUnobstructed_eq_getLast? hobstructed]
      simp [hobstructed]
  · rw [hevents]
    exact length_events_refresh_le _ _ houtage

/-- A source is absent, then there is a directory in its place, then it is absent again: the return
to absence is a transition, and it is not reported. -/
theorem silent_return_to_absence :
    let p : StoreSource := ⟨⟨"rules.json"⟩, .json, 100⟩
    let earlier : List StoreCall := [⟨false, .absent⟩, ⟨false, .obstructed .notFile⟩]
    let c : StoreCall := ⟨false, .absent⟩
    let absence : Diagnostic := ⟨.sourceError, none, none, none,
      "config source rules.json not found; no rules apply"⟩
    ¬ (absence ∈ (((Store.opened p).after earlier).call c).2.events ↔
      c.now = .absent ∧ (earlier.map (·.now)).getLast? ≠ some .absent) := by
  intro p earlier c absence hreported
  have hevents : (((Store.opened p).after earlier).call c).2.events = [] := rfl
  have hmem := hreported.2 ⟨rfl, by simp [earlier]⟩
  rw [hevents] at hmem
  cases hmem

end StoreSource

end FormValidation
