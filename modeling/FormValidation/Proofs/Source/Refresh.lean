import FormValidation.Proofs.Source.Calls

/-!
# What a call of a store does

All that a call can do, said once, so that nothing else has to look into the store again.

A load looks at its source before it asks for a refresh.  That look spares work and does nothing
else (`StoreSource.snapshot_eq_refresh`), so a call is a refresh (`Store.call_pass`).  What a
refresh does is said for each state of the source: `refresh_absent`, `refresh_obstructed` and
`refresh_file`.  What the reading of a file comes to is listed by `StoreSource.Reading`, one case
for a file that is refused, one for bytes that are known, and one for bytes that are not.

Whatever way a call takes, it hands out the document of the state that it leaves
(`Store.document_call`).  What is said about runs elsewhere is therefore said about states, and the
document of a call follows.  In that state the observation of the call shows nothing new
(`StoreSource.fresh?_refresh`), so that to refresh again is to do nothing.
-/

namespace FormValidation

namespace StoreState

/-- The state once the source has been found not to be obstructed. -/
def unobstructed (s : StoreState) : StoreState := { s with obstructedReported := false }

/-- It is known that there is no file, and nothing is kept. -/
def KnowsAbsent (s : StoreState) : Prop := s.kept.isNone ∧ s.absentReported

/-- The marker of a file is that of the kept document or that of a file that could not be used. -/
def Remembers (s : StoreState) (version : SourceVersion) : Prop :=
  s.kept.map (·.version) = some version ∨ s.failed = some version

/-- The digest of the bytes that the kept document was read from. -/
def digest? (s : StoreState) : Option Digest := s.kept.map (·.digest)

instance (s : StoreState) : Decidable s.KnowsAbsent := inferInstanceAs (Decidable (_ ∧ _))

instance (s : StoreState) (version : SourceVersion) : Decidable (s.Remembers version) :=
  inferInstanceAs (Decidable (_ ∨ _))

/-! ## Early exits -/

lemma fresh?_absent (s : StoreState) : s.unobstructed.fresh? .absent =
    if s.KnowsAbsent then some .empty else none := rfl

lemma fresh?_present (s : StoreState) (version : SourceVersion) :
    s.unobstructed.fresh? (.present version) =
      if s.Remembers version then some s.document else none := rfl

section

variable {s : StoreState}

lemma document_of_knowsAbsent (h : s.KnowsAbsent) : s.document = .empty := by
  rw [document, Option.isNone_iff_eq_none.1 h.1]
  rfl

lemma fresh?_of_knowsAbsent (h : s.KnowsAbsent) (hflag : s.obstructedReported = false) :
    s.fresh? .absent = some s.document := by
  rw [document_of_knowsAbsent h, fresh?, if_neg (by simp [hflag])]
  exact if_pos h

lemma fresh?_of_remembers {version : SourceVersion} (h : s.Remembers version)
    (hflag : s.obstructedReported = false) : s.fresh? (.present version) = some s.document := by
  rw [fresh?, if_neg (by simp [hflag])]
  exact if_pos h

lemma fresh?_of_obstructedReported (h : s.obstructedReported = true) (obstacle : Obstacle) :
    s.fresh? (.obstructed obstacle) = some s.document := if_pos h

/-- While an obstruction stands as reported, only an obstruction is nothing new. -/
lemma unobstructed_of_fresh? {seen : Observation} {d : Document}
    (h : s.fresh? seen = some d) (hseen : seen.isObstructed = false) : s.unobstructed = s := by
  have hflag : s.obstructedReported = false := by
    cases seen with
    | obstructed obstacle => cases hseen
    | absent | present version =>
        simp only [fresh?, Option.ite_none_left_eq_some, Bool.not_eq_true] at h
        exact h.1
  rw [unobstructed, ← hflag]

end

end StoreState

namespace StoreSource

variable (p : StoreSource) (s : StoreState) (force : Bool)

/-! ## Refreshing -/

section

variable {p s} {now : SourceState}

/-- Unless it is forced, a refresh makes an early exit if there is one. -/
lemma refresh_of_fresh? {d : Document} (hseen : now.observe.isObstructed = false)
    (h : s.unobstructed.fresh? now.observe = some d) :
    p.refresh s now false = .unchanged s.unobstructed d := by
  simp only [StoreState.unobstructed] at h ⊢
  simp [refresh, hseen, h]

/-- If there is none, it looks at everything again. -/
lemma refresh_of_fresh?_eq_none (hseen : now.observe.isObstructed = false)
    (h : s.unobstructed.fresh? now.observe = none) :
    p.refresh s now false = p.refreshAll s.unobstructed now := by
  simp only [StoreState.unobstructed] at h ⊢
  simp [refresh, hseen, h]

end

/-- A refresh that finds no file does nothing if that is known. -/
lemma refresh_absent : p.refresh s .absent force =
    if force = false ∧ s.KnowsAbsent then .unchanged s.unobstructed .empty
    else p.refreshAbsent s.unobstructed := by
  cases force with
  | true => rfl
  | false =>
      have hfresh := StoreState.fresh?_absent s
      by_cases hknown : s.KnowsAbsent
      · rw [if_pos hknown] at hfresh
        rw [if_pos ⟨rfl, hknown⟩, refresh_of_fresh? rfl hfresh]
      · rw [if_neg hknown] at hfresh
        rw [if_neg fun h => hknown h.2, refresh_of_fresh?_eq_none rfl hfresh, refreshAll]

/-- A refresh that finds the source obstructed says so, unless it has been said. -/
lemma refresh_obstructed (obstacle : Obstacle) :
    p.refresh s (.obstructed obstacle) force = p.refreshObstructed s obstacle := by
  obtain ⟨kept, generation, failed, absentReported, obstructedReported⟩ := s
  cases force <;> cases obstructedReported <;> rfl

/-- A refresh that finds a file reads it, unless its marker is remembered. -/
lemma refresh_file (version : SourceVersion) (content : Except String ByteArray) :
    p.refresh s (.file version content) force =
      if force = false ∧ s.Remembers version then .unchanged s.unobstructed s.document
      else p.refreshFile s.unobstructed version content := by
  cases force with
  | true => rfl
  | false =>
      have hfresh := StoreState.fresh?_present s version
      by_cases hknown : s.Remembers version
      · rw [if_pos hknown] at hfresh
        rw [if_pos ⟨rfl, hknown⟩, refresh_of_fresh? rfl hfresh]
      · rw [if_neg hknown] at hfresh
        rw [if_neg fun h => hknown h.2, refresh_of_fresh?_eq_none rfl hfresh, refreshAll]

/-- **Where an observation shows nothing new, a refresh does nothing**, unless it is forced. -/
lemma refresh_eq_unchanged {now : SourceState} {d : Document}
    (h : s.fresh? now.observe = some d) : p.refresh s now false = .unchanged s d := by
  cases hseen : now.observe.isObstructed with
  | true => simp [refresh, hseen, h]
  | false =>
      -- Setting the flag of obstructions back, which comes first, has no effect here.
      have hself := StoreState.unobstructed_of_fresh? h hseen
      rw [← hself] at h
      rw [refresh_of_fresh? hseen h, hself]

/-- The look before a refresh spares work and does nothing else: where it shows nothing new, the
refresh would come to the same end. -/
lemma snapshot_eq_refresh (now : SourceState) : p.snapshot s now = p.refresh s now false := by
  cases hfresh : s.fresh? now.observe with
  | none => rw [snapshot, hfresh]
  | some d => rw [snapshot, hfresh, refresh_eq_unchanged p s hfresh]

/-! ## Reading a file -/

variable {p s} {version : SourceVersion} {content : Except String ByteArray}

/-- Bytes come out of a file if it can be read and is within the limit, by its marker and by its
bytes. -/
lemma bytes_eq_ok_iff {read : ByteArray × Digest} : p.bytes version content = .ok read ↔
    content = .ok read.1 ∧ Digest.of read.1 = read.2 ∧
      version.length ≤ p.maxBytes ∧ read.1.size ≤ p.maxBytes := by
  cases content with
  | error reason =>
      rw [bytes]
      split <;> simp
  | ok content =>
      rw [bytes]
      split
      · rename_i hlength
        simp [Nat.not_le.2 hlength]
      · rename_i hlength
        have hle : version.length ≤ p.maxBytes := Nat.le_of_not_lt hlength
        split
        · rename_i hsize
          simp only [reduceCtorEq, Except.ok.injEq, false_iff]
          rintro ⟨rfl, -, -, hsize'⟩
          exact absurd hsize (Nat.not_lt.2 hsize')
        · rename_i hsize
          simp only [Except.ok.injEq]
          constructor
          · rintro rfl
            exact ⟨rfl, rfl, hle, Nat.le_of_not_lt hsize⟩
          · rintro ⟨rfl, hdigest, -, -⟩
            rw [hdigest]

/-- What comes of reading a file. -/
inductive Reading (p : StoreSource) (s : StoreState) (version : SourceVersion)
    (content : Except String ByteArray) : StorePass → Prop
  /-- The file cannot be used: no bytes come out of it, or they are new and no document. -/
  | refused (fault : SourceFault)
      (hunusable : ∀ read, p.bytes version content = .ok read →
        s.digest? ≠ some read.2 ∧ p.document read.1 = .error fault) :
      Reading p s version content (p.reject s version fault)
  /-- The bytes are those of the kept document. -/
  | known (read : ByteArray × Digest) (kept : KeptDocument)
      (hbytes : p.bytes version content = .ok read) (hkept : s.kept = some kept)
      (hdigest : kept.digest = read.2) :
      Reading p s version content
        (.serve { s with kept := some { kept with version }, failed := none } [] true)
  /-- The bytes are new, and they are a document. -/
  | installed (read : ByteArray × Digest) (d : Document)
      (hbytes : p.bytes version content = .ok read) (hnew : s.digest? ≠ some read.2)
      (hdocument : p.document read.1 = .ok d) :
      Reading p s version content
        (.serve { s.replace (some ⟨d, version, read.2⟩) with failed := none }
          (p.loadedEvent d (Generation.next s.generation) read.2 :: d.lint.map lintEvent) true)

lemma reading_install {read : ByteArray × Digest} (hbytes : p.bytes version content = .ok read)
    (hnew : s.digest? ≠ some read.2) :
    Reading p s version content (p.install s version read.1 read.2) := by
  rw [install]
  cases hdocument : p.document read.1 with
  | error fault =>
      refine .refused fault fun again hagain => ?_
      rw [hbytes] at hagain
      cases hagain
      exact ⟨hnew, hdocument⟩
  | ok d => exact .installed read d hbytes hnew hdocument

lemma reading_adopt {read : ByteArray × Digest} (hbytes : p.bytes version content = .ok read) :
    Reading p s version content (p.adopt s version read.1 read.2) := by
  rw [adopt]
  cases hkept : s.kept with
  | none => exact reading_install hbytes (by simp [StoreState.digest?, hkept])
  | some kept =>
      dsimp only
      split
      · rename_i hdigest
        exact .known read kept hbytes hkept hdigest
      · rename_i hdigest
        exact reading_install hbytes (by simp [StoreState.digest?, hkept, hdigest])

/-- Reading a file comes to one of the three, and that the source was absent is over. -/
lemma reading_refreshFile (p : StoreSource) (s : StoreState) (version : SourceVersion)
    (content : Except String ByteArray) :
    Reading p { s with absentReported := false } version content
      (p.refreshFile s version content) := by
  rw [refreshFile]
  cases hbytes : p.bytes version content with
  | error fault =>
      refine .refused fault fun read hread => ?_
      rw [hbytes] at hread
      cases hread
  | ok read => exact reading_adopt hbytes

/-! ## What a refresh leaves -/

/-- An absence leaves nothing to remember. -/
lemma forgotten_refreshAbsent (p : StoreSource) (s : StoreState) :
    (p.refreshAbsent s).state.kept = none ∧ (p.refreshAbsent s).state.failed = none := by
  refine ⟨?_, rfl⟩
  cases hkept : s.kept <;> simp [refreshAbsent, StorePass.serve, StoreState.replace, hkept]

lemma Reading.document_eq {pass : StorePass} (h : Reading p s version content pass) :
    pass.document = pass.state.document := by
  cases h <;> rfl

/-- Whatever way a refresh takes, it hands out the document of the state that it leaves. -/
lemma document_refresh (p : StoreSource) (s : StoreState) (now : SourceState) (force : Bool) :
    (p.refresh s now force).document = (p.refresh s now force).state.document := by
  cases now with
  | absent =>
      rw [refresh_absent]
      split
      · rename_i hknown
        exact (StoreState.document_of_knowsAbsent hknown.2).symm
      · rfl
  | obstructed obstacle =>
      rw [refresh_obstructed]
      rfl
  | file version content =>
      rw [refresh_file]
      split
      · rfl
      · exact (reading_refreshFile p s.unobstructed version content).document_eq

/-- Reading a file leaves both flags as they are. -/
lemma Reading.flags {pass : StorePass} (h : Reading p s version content pass) :
    pass.state.absentReported = s.absentReported ∧
      pass.state.obstructedReported = s.obstructedReported := by
  cases h <;> exact ⟨rfl, rfl⟩

lemma obstructedReported_refreshAbsent (p : StoreSource) (s : StoreState) :
    (p.refreshAbsent s).state.obstructedReported = s.obstructedReported := by
  by_cases hkept : s.kept.isSome <;>
    simp [refreshAbsent, StorePass.serve, StoreState.replace, hkept]

/-- An obstruction stands as reported exactly if the last refresh found one. -/
lemma obstructedReported_refresh (p : StoreSource) (s : StoreState) (now : SourceState)
    (force : Bool) :
    (p.refresh s now force).state.obstructedReported = now.observe.isObstructed := by
  cases now with
  | absent =>
      rw [refresh_absent]
      split
      · rfl
      · exact obstructedReported_refreshAbsent p s.unobstructed
  | obstructed obstacle =>
      rw [refresh_obstructed]
      rfl
  | file version content =>
      rw [refresh_file]
      split
      · rfl
      · exact (reading_refreshFile p s.unobstructed version content).flags.2

/-! ## Refreshing again -/

/-- An absence is known once it has been found. -/
lemma knowsAbsent_refresh (p : StoreSource) (s : StoreState) (force : Bool) :
    (p.refresh s .absent force).state.KnowsAbsent := by
  rw [refresh_absent]
  split
  · rename_i hknown
    exact hknown.2
  · exact ⟨by rw [(forgotten_refreshAbsent p s.unobstructed).1]; rfl, rfl⟩

/-- The marker of a file that has been read is remembered, whatever came of reading it. -/
lemma Reading.remembers {pass : StorePass} (h : Reading p s version content pass) :
    pass.state.Remembers version := by
  cases h with
  | refused fault hunusable => exact .inr rfl
  | known read kept hbytes hkept hdigest => exact .inl rfl
  | installed read d hbytes hnew hdocument => exact .inl rfl

/-- The marker of a file is remembered once the file has been found. -/
lemma remembers_refresh (p : StoreSource) (s : StoreState) (version : SourceVersion)
    (content : Except String ByteArray) (force : Bool) :
    (p.refresh s (.file version content) force).state.Remembers version := by
  rw [refresh_file]
  split
  · rename_i hknown
    exact hknown.2
  · exact (reading_refreshFile p s.unobstructed version content).remembers

/-- **After a refresh, what it observed shows nothing new**, whatever it found and whatever came of
reading it. -/
lemma fresh?_refresh (p : StoreSource) (s : StoreState) (now : SourceState) (force : Bool) :
    (p.refresh s now force).state.fresh? now.observe =
      some (p.refresh s now force).document := by
  have hflag := obstructedReported_refresh p s now force
  rw [document_refresh]
  cases now with
  | absent => exact StoreState.fresh?_of_knowsAbsent (knowsAbsent_refresh p s force) hflag
  | obstructed obstacle => exact StoreState.fresh?_of_obstructedReported hflag obstacle
  | file version content =>
      exact StoreState.fresh?_of_remembers (remembers_refresh p s version content force) hflag

/-- A second refresh finds nothing new, and hands out the same document. -/
lemma document_refresh_refresh (p : StoreSource) (s : StoreState) (now : SourceState) :
    (p.refresh (p.refresh s now false).state now false).document =
      (p.refresh s now false).document := by
  rw [refresh_eq_unchanged p _ (fresh?_refresh p s now false)]
  rfl

end StoreSource

namespace Store

/-- A load is a refresh, and a reload is one by force. -/
lemma call_pass (s : Store) (c : StoreCall) :
    (s.call c).2 = s.source.refresh s.state c.now c.isReload := by
  obtain ⟨isReload, now⟩ := c
  cases isReload with
  | true => rfl
  | false => exact StoreSource.snapshot_eq_refresh s.source s.state now

/-- So is every call of a run. -/
lemma call_after_opened (p : StoreSource) (earlier : List StoreCall) (c : StoreCall) :
    (((opened p).after earlier).call c).2 =
      p.refresh ((opened p).after earlier).state c.now c.isReload := by
  rw [call_pass, source_after_opened]

/-- A call hands out the document of the state that it leaves. -/
lemma document_call (s : Store) (c : StoreCall) :
    (s.call c).2.document = (s.call c).2.state.document := by
  rw [call_pass]
  exact StoreSource.document_refresh s.source s.state c.now c.isReload

end Store

end FormValidation
