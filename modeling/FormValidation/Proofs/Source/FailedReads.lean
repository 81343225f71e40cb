import FormValidation.Proofs.Source.Refresh

/-!
# Failed reads

A file that cannot be used leaves a store as it was, and is not read again.  A file is refused for
its length, for its bytes, or for what is in them (`StoreSource.Refuses`), and a call is rejected if
it reads a file that is refused (`Store.Rejects`).

What a rejected call leaves is the state of before with the marker of the file noted as failed
(`Store.call_of_rejects`).  The note is lost when another file is read, when a file is read in any
case, or when there is none (`Store.Disturbs`).  As long as nothing of that happens, the store
differs from what it was in its reports at most (`StoreState.Alike`), whatever other calls are made
(`Store.alike_after`).  The main statement is `Store.failed_reads_remembered`.
-/

namespace FormValidation

/-! ## Refusing a file -/

/-- Whatever is wrong with a text, it is not of its format. -/
lemma SourceFormat.fault_eq_unparsable {format : SourceFormat} {text : String} {fault : SourceFault}
    (h : format.document text = .error fault) : fault = .unparsable := by
  rw [document] at h
  split at h <;> cases h
  rfl

namespace StoreSource

/-- Why a file is refused by a store that knows bytes with a certain digest.  Reading a file begins
with a look at its marker, and goes as far as to the first thing that is wrong. -/
inductive Refuses (p : StoreSource) (known : Option Digest) (version : SourceVersion) :
    Except String ByteArray → SourceFault → Prop
  /-- Its marker shows that it is too long. -/
  | longMarker {content : Except String ByteArray} (hlength : p.maxBytes < version.length) :
      Refuses p known version content .tooLarge
  /-- No bytes come out of it. -/
  | unreadable {reason : String} (hlength : version.length ≤ p.maxBytes) :
      Refuses p known version (.error reason) (.unreadable reason)
  /-- Its bytes are too many. -/
  | longContent {content : ByteArray} (hlength : version.length ≤ p.maxBytes)
      (hsize : p.maxBytes < content.size) : Refuses p known version (.ok content) .tooLarge
  /-- Its bytes are new, and no text. -/
  | notUtf8 {content : ByteArray} (hlength : version.length ≤ p.maxBytes)
      (hsize : content.size ≤ p.maxBytes) (hnew : known ≠ some (Digest.of content))
      (htext : String.fromUTF8? content = none) : Refuses p known version (.ok content) .notUtf8
  /-- Its bytes are new, and a text that is no document. -/
  | unparsable {content : ByteArray} {text : String} (hlength : version.length ≤ p.maxBytes)
      (hsize : content.size ≤ p.maxBytes) (hnew : known ≠ some (Digest.of content))
      (htext : String.fromUTF8? content = some text)
      (hdocument : p.format.document text = .error .unparsable) :
      Refuses p known version (.ok content) .unparsable

variable {p : StoreSource} {s : StoreState} {version : SourceVersion}
  {content : Except String ByteArray} {fault : SourceFault}

/-- Bytes that are not known are taken for a document. -/
lemma adopt_of_new {content : ByteArray} {digest : Digest} (h : s.digest? ≠ some digest) :
    p.adopt s version content digest = p.install s version content digest := by
  rw [adopt]
  cases hkept : s.kept with
  | none => rfl
  | some kept =>
      have hdiffers : kept.digest ≠ digest := fun heq =>
        h (by rw [StoreState.digest?, hkept, Option.map_some, heq])
      exact if_neg hdiffers

/-- Bytes that are new and no document are refused once they have come out of the file. -/
lemma refreshFile_of_document {content : ByteArray} (hlength : version.length ≤ p.maxBytes)
    (hsize : content.size ≤ p.maxBytes) (hnew : s.digest? ≠ some (Digest.of content))
    (hdocument : p.document content = .error fault) :
    p.refreshFile s version (.ok content) =
      p.reject { s with absentReported := false } version fault := by
  have hbytes : p.bytes version (.ok content) = .ok (content, Digest.of content) :=
    bytes_eq_ok_iff.2 ⟨rfl, rfl, hlength, hsize⟩
  have hadopt : p.adopt { s with absentReported := false } version content (Digest.of content) =
      p.install { s with absentReported := false } version content (Digest.of content) :=
    adopt_of_new hnew
  rw [refreshFile, hbytes]
  dsimp only
  rw [hadopt, install, hdocument]

/-- **A file that is refused leaves the note of its marker, and nothing else.** -/
lemma refreshFile_of_refuses (h : p.Refuses s.digest? version content fault) :
    p.refreshFile s version content =
      p.reject { s with absentReported := false } version fault := by
  cases h with
  | longMarker hlength => simp [refreshFile, bytes, hlength]
  | unreadable hlength => simp [refreshFile, bytes, Nat.not_lt.2 hlength]
  | longContent hlength hsize => simp [refreshFile, bytes, Nat.not_lt.2 hlength, hsize]
  | notUtf8 hlength hsize hnew htext =>
      exact refreshFile_of_document hlength hsize hnew (by rw [document, htext])
  | unparsable hlength hsize hnew htext hdocument =>
      exact refreshFile_of_document hlength hsize hnew (by simp [document, htext, hdocument])

lemma Reading.hasRead_eq {pass : StorePass} (h : Reading p s version content pass) :
    pass.hasRead = true := by
  cases h <;> rfl

/-- No file is rejected but one that is refused. -/
lemma Reading.exists_refuses {pass : StorePass} (h : Reading p s version content pass)
    (hfailed : pass.state.failed ≠ none) : ∃ fault, p.Refuses s.digest? version content fault := by
  cases h with
  | known | installed => exact absurd rfl hfailed
  | refused fault hunusable =>
      by_cases hlength : version.length ≤ p.maxBytes
      swap
      · exact ⟨_, .longMarker (Nat.lt_of_not_le hlength)⟩
      cases content with
      | error reason => exact ⟨_, .unreadable hlength⟩
      | ok content =>
          by_cases hsize : content.size ≤ p.maxBytes
          swap
          · exact ⟨_, .longContent hlength (Nat.lt_of_not_le hsize)⟩
          obtain ⟨hnew, hdocument⟩ := hunusable (content, Digest.of content)
            (bytes_eq_ok_iff.2 ⟨rfl, rfl, hlength, hsize⟩)
          rw [document] at hdocument
          split at hdocument
          next text htext =>
            cases SourceFormat.fault_eq_unparsable hdocument
            exact ⟨_, .unparsable hlength hsize hnew htext hdocument⟩
          next htext => exact ⟨_, .notUtf8 hlength hsize hnew htext⟩

end StoreSource

/-! ## Rejected calls -/

/-- The states differ at most in what has been reported. -/
structure StoreState.Alike (s t : StoreState) : Prop where
  kept : t.kept = s.kept
  generation : t.generation = s.generation
  failed : t.failed = s.failed

namespace StoreState

variable {s t u : StoreState}

lemma Alike.trans (h : s.Alike t) (h' : t.Alike u) : s.Alike u :=
  ⟨h'.kept.trans h.kept, h'.generation.trans h.generation, h'.failed.trans h.failed⟩

lemma alike_unobstructed (s : StoreState) : s.Alike s.unobstructed := ⟨rfl, rfl, rfl⟩

lemma Alike.document_eq (h : s.Alike t) : t.document = s.document := by
  rw [document, document, h.kept]

end StoreState

namespace Store

variable {s : Store} {c : StoreCall} {version : SourceVersion} {fault : SourceFault}

/-- The call reads a file with a marker, and the file is refused. -/
def Rejects (s : Store) (c : StoreCall) (version : SourceVersion) (fault : SourceFault) : Prop :=
  ∃ content, c.now = .file version content ∧ (s.call c).2.hasRead = true ∧
    s.source.Refuses s.digest? version content fault

/-- A call that reads finds a file, and is a reload or does not remember the marker. -/
lemma call_of_hasRead (h : (s.call c).2.hasRead = true) : ∃ version content,
    c.now = .file version content ∧ (c.isReload = true ∨ ¬ s.state.Remembers version) ∧
      (s.call c).2 = s.source.refreshFile s.state.unobstructed version content := by
  obtain ⟨isReload, now⟩ := c
  rw [call_pass] at h ⊢
  cases now with
  | absent =>
      rw [StoreSource.refresh_absent] at h
      split at h <;> cases h
  | obstructed obstacle =>
      rw [StoreSource.refresh_obstructed] at h
      cases h
  | file version content =>
      refine ⟨version, content, rfl, ?_⟩
      rw [StoreSource.refresh_file] at h ⊢
      split at h
      · cases h
      next hreads =>
        refine ⟨?_, if_neg hreads⟩
        rw [not_and_or, Bool.not_eq_false] at hreads
        exact hreads

/-- A call that does not read leaves everything as it is but the reports, unless the source is
absent. -/
lemma alike_call (hread : (s.call c).2.hasRead = false) (hnow : c.now ≠ .absent) :
    s.state.Alike (s.call c).2.state := by
  obtain ⟨isReload, now⟩ := c
  rw [call_pass] at hread ⊢
  cases now with
  | absent => exact absurd rfl hnow
  | obstructed obstacle =>
      rw [StoreSource.refresh_obstructed]
      exact ⟨rfl, rfl, rfl⟩
  | file version content =>
      rw [StoreSource.refresh_file] at hread ⊢
      split at hread
      next hknown =>
        rw [if_pos hknown]
        exact s.state.alike_unobstructed
      · rw [(s.source.reading_refreshFile s.state.unobstructed version content).hasRead_eq] at hread
        cases hread

/-- **A rejected call notes the marker and reports the fault.** -/
lemma call_of_rejects (h : s.Rejects c version fault) : (s.call c).2 =
    s.source.reject { s.state.unobstructed with absentReported := false } version fault := by
  obtain ⟨content, hnow, hread, hrefuses⟩ := h
  obtain ⟨version', content', hnow', -, hpass⟩ := call_of_hasRead hread
  rw [hnow] at hnow'
  cases hnow'
  rw [hpass]
  exact StoreSource.refreshFile_of_refuses hrefuses

/-- A call is rejected if it reads a file and leaves the marker of the file as failed. -/
lemma rejects_iff : (∃ fault, s.Rejects c version fault) ↔
    (s.call c).2.hasRead = true ∧ (s.call c).2.state.failed = some version := by
  constructor
  · rintro ⟨fault, h⟩
    rw [call_of_rejects h]
    exact ⟨rfl, rfl⟩
  · rintro ⟨hread, hfailed⟩
    obtain ⟨version', content, hnow, -, hpass⟩ := call_of_hasRead hread
    have hreading := s.source.reading_refreshFile s.state.unobstructed version' content
    rw [← hpass] at hreading
    obtain ⟨fault, hrefuses⟩ := hreading.exists_refuses (hfailed ▸ Option.some_ne_none version)
    have hrejects : s.Rejects c version' fault := ⟨content, hnow, hread, hrefuses⟩
    rw [call_of_rejects hrejects] at hfailed
    cases hfailed
    exact ⟨fault, hrejects⟩

/-! ## Remembered rejections -/

/-- A call after which a file that was refused may be read again. -/
inductive Disturbs (s : Store) (version : SourceVersion) (c : StoreCall) : Prop
  /-- The file is to be read in any case. -/
  | reload (h : c.isReload = true)
  /-- There is no file. -/
  | absent (h : c.now = .absent)
  /-- A file with another marker is read. -/
  | other (hread : (s.call c).2.hasRead = true) (hnow : c.now.observe ≠ .present version)

/-- None of the calls of a run disturbs what is remembered of a marker. -/
def Undisturbed (version : SourceVersion) : Store → List StoreCall → Prop
  | _, [] => True
  | s, c :: calls => ¬ s.Disturbs version c ∧ Undisturbed version (s.call c).1 calls

/-- Where the marker is noted as failed, a call that does not disturb it changes nothing. -/
lemma alike_of_not_disturbs (hfailed : s.state.failed = some version)
    (h : ¬ s.Disturbs version c) : s.state.Alike (s.call c).1.state := by
  rw [call_state]
  refine alike_call (Bool.eq_false_iff.2 fun hread => ?_) fun hnow => h (.absent hnow)
  obtain ⟨version', content, hnow, hreload | hnot, -⟩ := call_of_hasRead hread
  · exact h (.reload hreload)
  · -- A load that reads does not remember the marker that it finds, so that is another one.
    refine h (.other hread ?_)
    rw [hnow]
    rintro ⟨⟩
    exact hnot (.inr hfailed)

/-- **A rejection is remembered** through any run of calls that do not disturb it. -/
lemma alike_after {calls : List StoreCall} (hfailed : s.state.failed = some version)
    (h : s.Undisturbed version calls) : s.state.Alike (s.after calls).state := by
  induction calls generalizing s with
  | nil => exact ⟨rfl, rfl, rfl⟩
  | cons c calls ih =>
      have hstep := alike_of_not_disturbs hfailed h.1
      exact hstep.trans (ih (hstep.failed.trans hfailed) h.2)

/-- A load that finds a marker that is noted as failed does not read the file. -/
lemma load_of_failed {now : SourceState} (hfailed : s.state.failed = some version)
    (hnow : now.observe = .present version) :
    (s.load now).2 = .unchanged s.state.unobstructed s.state.document := by
  have hload : (s.load now).2 = s.source.refresh s.state now false := s.call_pass ⟨false, now⟩
  cases now with
  | absent | obstructed obstacle => cases hnow
  | file version' content =>
      cases hnow
      rw [hload, StoreSource.refresh_file, if_pos ⟨rfl, .inr hfailed⟩]

/-! ## What is served meanwhile -/

/-- The document that a run of calls has handed out last, where `served` is what was handed out
before the run. -/
def lastDocument : Store → Document → List StoreCall → Document
  | _, served, [] => served
  | s, _, c :: calls => lastDocument (s.call c).1 (s.call c).2.document calls

lemma lastDocument_eq (s : Store) (calls : List StoreCall) :
    s.lastDocument s.state.document calls = (s.after calls).state.document := by
  induction calls generalizing s with
  | nil => rfl
  | cons c calls ih =>
      rw [lastDocument, document_call, ← call_state]
      exact ih (s.call c).1

/-- A call that is rejected or finds an obstruction changes nothing that a store tells of its
document. -/
lemma intact_call
    (h : (∃ version fault, s.Rejects c version fault) ∨ ∃ obstacle, c.now = .obstructed obstacle) :
    (s.call c).2.document = s.state.document ∧
      (s.call c).1.state.generation = s.state.generation ∧ (s.call c).1.version? = s.version? ∧
      (s.call c).1.digest? = s.digest? := by
  obtain ⟨hkept, hgeneration⟩ : (s.call c).1.state.kept = s.state.kept ∧
      (s.call c).1.state.generation = s.state.generation := by
    rw [call_state]
    rcases h with ⟨version, fault, hrejects⟩ | ⟨obstacle, hnow⟩
    · rw [call_of_rejects hrejects]
      exact ⟨rfl, rfl⟩
    · rw [call_pass, hnow, StoreSource.refresh_obstructed]
      exact ⟨rfl, rfl⟩
  refine ⟨?_, hgeneration, ?_, ?_⟩
  · rw [document_call, ← call_state, StoreState.document, StoreState.document, hkept]
  · rw [version?, version?, hkept]
  · rw [digest?, digest?, hkept]

/-- After a rejection the file is not read again, as long as nothing disturbs what is remembered. -/
lemma load_after_rejects (h : s.Rejects c version fault) {between : List StoreCall}
    (hbetween : (s.call c).1.Undisturbed version between) {now : SourceState}
    (hnow : now.observe = .present version) :
    let later := (((s.call c).1.after between).load now).2
    later.document = (s.call c).2.document ∧ later.hasRead = false ∧ later.events = [] := by
  have hfailed : (s.call c).1.state.failed = some version := by
    rw [call_state]
    exact (rejects_iff.1 ⟨fault, h⟩).2
  have halike := alike_after hfailed hbetween
  rw [load_of_failed (halike.failed.trans hfailed) hnow, document_call, ← call_state,
    ← halike.document_eq]
  exact ⟨rfl, rfl, rfl⟩

/-- **Failed reads leave a store intact, and are remembered.**  In every state that a run of calls
leaves, a call whose file is refused, or that finds the source obstructed, hands out the document
that was handed out last, and neither the generation nor the version nor the digest changes.

A call is rejected at a marker if it reads a file with the marker and notes it as failed, which is
where the file is refused.  It reports the fault.  From then on every load that observes the marker
hands out the same document, reads no file and reports nothing, until some call reads a file with
another marker, is a reload, or finds no file. -/
theorem failed_reads_remembered (p : StoreSource) (earlier : List StoreCall) (c : StoreCall) :
    let s := (opened p).after earlier
    let done := s.call c
    ((∃ version fault, s.Rejects c version fault) ∨ (∃ obstacle, c.now = .obstructed obstacle) →
      done.2.document = (opened p).lastDocument .empty earlier ∧
        done.1.state.generation = s.state.generation ∧ done.1.version? = s.version? ∧
        done.1.digest? = s.digest?) ∧
    (∀ version, (∃ fault, s.Rejects c version fault) ↔
      done.2.hasRead = true ∧ done.1.state.failed = some version) ∧
    ∀ version fault, s.Rejects c version fault →
      done.2.events = [⟨.sourceError, none, none, none,
        p.path.text ++ " (" ++ version.length.repr ++ "): " ++ fault.message ++
          (if s.state.kept.isSome then "; keeping previous rules" else "; no rules apply")⟩] ∧
      ∀ between, done.1.Undisturbed version between →
        ∀ now, now.observe = .present version →
          let later := ((done.1.after between).load now).2
          later.document = done.2.document ∧ later.hasRead = false ∧ later.events = [] := by
  intro s done
  have hserved : (opened p).lastDocument .empty earlier = s.state.document :=
    lastDocument_eq (opened p) earlier
  have hsource : s.source = p := source_after_opened p earlier
  refine ⟨fun h => ?_, fun version => ?_, fun version fault h => ⟨?_, ?_⟩⟩
  · rw [hserved]
    exact intact_call h
  · rw [call_state]
    exact rejects_iff
  · rw [call_of_rejects h, hsource]
    rfl
  · exact fun between hbetween now hnow => load_after_rejects h hbetween hnow

/-- A file with an empty form. -/
def goodFile : SourceState := .file ⟨0, 9⟩ (.ok "\x7b\"F\": \x7b\x7d\x7d".toUTF8)

/-- A file that ends too early. -/
def brokenFile : SourceState := .file ⟨1, 1⟩ (.ok "\x7b".toUTF8)

/-- A good file is rewritten with broken content.  Then a directory stands in its place, the good
file is back for a while, and after that the broken one: it is not read again, so that it does not
matter that it cannot be. -/
theorem failed_reads_remembered_broken :
    let s := (opened ⟨⟨"rules.json"⟩, .json, 100⟩).after [⟨false, goodFile⟩]
    let done := s.call ⟨false, brokenFile⟩
    let between : List StoreCall := [⟨false, .obstructed .notFile⟩, ⟨false, goodFile⟩]
    let later := ((done.1.after between).load (.file ⟨1, 1⟩ (.error "denied"))).2
    s.Rejects ⟨false, brokenFile⟩ ⟨1, 1⟩ .unparsable ∧ done.1.Undisturbed ⟨1, 1⟩ between ∧
      done.2.document = ⟨KeyMap.ofList [("F", .empty)]⟩ ∧
      later.document = done.2.document ∧ later.hasRead = false ∧ later.events = [] := by
  intro s done between later
  have hrejects : s.Rejects ⟨false, brokenFile⟩ ⟨1, 1⟩ .unparsable := by
    have htext : String.fromUTF8? "\x7b".toUTF8 = some "\x7b" := by decide +kernel
    exact ⟨_, rfl, by decide +kernel, .unparsable (by decide +kernel) (by decide +kernel)
      (by decide +kernel) htext (by decide +kernel)⟩
  have hundisturbed : done.1.Undisturbed ⟨1, 1⟩ between := by
    refine ⟨?_, ?_, trivial⟩ <;> rintro (h | h | ⟨h, -⟩)
    case refine_1.other | refine_2.other => exact absurd h (by decide +kernel)
    all_goals cases h
  obtain ⟨hintact, -, hremembered⟩ := failed_reads_remembered ⟨⟨"rules.json"⟩, .json, 100⟩
    [⟨false, goodFile⟩] ⟨false, brokenFile⟩
  refine ⟨hrejects, hundisturbed, ?_, ?_⟩
  · rw [(hintact (.inl ⟨_, _, hrejects⟩)).1]
    decide +kernel
  · exact (hremembered _ _ hrejects).2 between hundisturbed _ rfl

end Store

end FormValidation
