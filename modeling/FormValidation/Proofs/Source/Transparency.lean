import FormValidation.Proofs.Source.Refresh
import Mathlib.Data.List.DropRight

/-!
# A store without its memory

A store remembers the last document that it could load, the markers of files, a digest and two
flags, and it leaves out work that these tell it to be in vain.  This file says that nobody can
tell: after every call of every run the document is what a reader without any memory but the
states of the source would serve.

`StoreSource.loadable?` is the document in a state of the source, `lastLoaded` the last one among
the states since the source was last absent, and `served` is what they say should be served.  The
invariant `Knows` ties what a store remembers to the states that it has seen: the kept document is
the last loaded one and comes from a file with the kept marker and digest, and a marker that is
remembered as failed stands for a file that cannot be loaded.

`Knows.remembered` says that a file with a marker that is remembered need not be read,
`knows_reading` that reading a file is right, and `knows_after` carries the invariant through a run.
The main statement is `document_call_after`; it needs that a marker and a digest each stand for one
content (`MarkersTell`, `DigestsTell`).
-/

namespace FormValidation

/-- Whether there is nothing at the path of a source. -/
def SourceState.isAbsent : SourceState → Bool
  | .absent => true
  | _ => false

/-- A marker never stands for two different contents; that a file cannot be read counts as a
content of its own. -/
def MarkersTell (states : List SourceState) : Prop :=
  ∀ version content other, .file version content ∈ states → .file version other ∈ states →
    content = other

/-- No two contents have the same digest. -/
def DigestsTell (states : List SourceState) : Prop :=
  ∀ version content version' other, .file version (.ok content) ∈ states →
    .file version' (.ok other) ∈ states → Digest.of content = Digest.of other → content = other

lemma MarkersTell.front {states more : List SourceState} (h : MarkersTell (states ++ more)) :
    MarkersTell states := fun version content other hcontent hother =>
  h version content other (List.mem_append_left _ hcontent) (List.mem_append_left _ hother)

lemma DigestsTell.front {states more : List SourceState} (h : DigestsTell (states ++ more)) :
    DigestsTell states := fun version content version' other hcontent hother =>
  h version content version' other (List.mem_append_left _ hcontent)
    (List.mem_append_left _ hother)

namespace StoreSource

/-! ## What should be served -/

/-- The document in a state of the source: there is one if there is a file, its length is within
the limit, its bytes are a text, and the text is a document.  The length is looked at twice, once
as the marker gives it and once in the bytes. -/
def loadable? (p : StoreSource) : SourceState → Option Document
  | .file version (.ok content) =>
    if version.length ≤ p.maxBytes ∧ content.size ≤ p.maxBytes then (p.document content).toOption
    else none
  | _ => none

/-- The last document that could be loaded since the source was last absent. -/
def lastLoaded (p : StoreSource) (states : List SourceState) : Option Document :=
  ((states.rtakeWhile fun state => !state.isAbsent).filterMap p.loadable?).getLast?

/-- The document to serve for a state of the source, with the earlier ones known. -/
def served (p : StoreSource) (earlier : List SourceState) (now : SourceState) : Document :=
  match now with
  | .absent => .empty
  | now => (p.loadable? now).getD ((p.lastLoaded earlier).getD .empty)

lemma lastLoaded_absent (p : StoreSource) (states : List SourceState) :
    p.lastLoaded (states ++ [.absent]) = none := by
  rw [lastLoaded, List.rtakeWhile_concat_neg _ _ _ (by simp [SourceState.isAbsent])]
  rfl

lemma lastLoaded_concat (p : StoreSource) (states : List SourceState) {now : SourceState}
    (h : now.isAbsent = false) :
    p.lastLoaded (states ++ [now]) = (p.loadable? now).or (p.lastLoaded states) := by
  rw [lastLoaded, List.rtakeWhile_concat_pos _ _ _ (by simp [h]), List.filterMap_append]
  cases hload : p.loadable? now with
  | none => simp [hload, lastLoaded]
  | some d => simp [hload]

/-- What should be served is the last loaded document when the present state counts as seen. -/
lemma served_eq (p : StoreSource) (earlier : List SourceState) (now : SourceState) :
    p.served earlier now = (p.lastLoaded (earlier ++ [now])).getD .empty := by
  cases now with
  | absent => rw [lastLoaded_absent]; rfl
  | obstructed obstacle => rw [lastLoaded_concat _ _ rfl]; rfl
  | file version content =>
      rw [lastLoaded_concat _ _ rfl, served]
      · cases p.loadable? (.file version content) <;> rfl
      · exact SourceState.noConfusion

/-- What can be loaded from a file is the document in its bytes, if they come out of it. -/
lemma loadable?_file (p : StoreSource) (version : SourceVersion)
    (content : Except String ByteArray) : p.loadable? (.file version content) =
      (p.bytes version content).toOption.bind fun read => (p.document read.1).toOption := by
  cases content with
  | error reason =>
      rw [bytes]
      split <;> rfl
  | ok content =>
      rw [loadable?, bytes]
      by_cases hlength : version.length ≤ p.maxBytes
      · by_cases hsize : content.size ≤ p.maxBytes
        · rw [if_pos ⟨hlength, hsize⟩, if_neg (Nat.not_lt.2 hlength), if_neg (Nat.not_lt.2 hsize)]
          rfl
        · rw [if_neg (fun h => hsize h.2), if_neg (Nat.not_lt.2 hlength),
            if_pos (Nat.lt_of_not_le hsize)]
          rfl
      · rw [if_neg (fun h => hlength h.1), if_pos (Nat.lt_of_not_le hlength)]
        rfl

/-! ## What a store knows -/

/-- What a store remembers agrees with the states that it has seen. -/
structure Knows (p : StoreSource) (seen : List SourceState) (s : StoreState) : Prop where
  /-- The kept document is the last one that could be loaded. -/
  loaded : s.kept.map (·.document) = p.lastLoaded seen
  /-- The kept document is that of a file with the kept marker and the kept digest. -/
  kept : ∀ k, s.kept = some k → ∃ content, .file k.version (.ok content) ∈ seen ∧
    Digest.of content = k.digest ∧ p.document content = .ok k.document ∧
    p.loadable? (.file k.version (.ok content)) = some k.document
  /-- The failed marker is that of a file that cannot be loaded. -/
  failed : ∀ version, s.failed = some version →
    ∃ content, .file version content ∈ seen ∧ p.loadable? (.file version content) = none

variable {p : StoreSource} {seen : List SourceState} {now : SourceState} {s : StoreState}

lemma knows_start (p : StoreSource) : Knows p [] .start :=
  ⟨rfl, fun _ h => (nomatch h), fun _ h => (nomatch h)⟩

namespace Knows

/-- The flags and the generation have no part in what a store knows. -/
lemma congr {t : StoreState} (h : Knows p seen s) (hkept : t.kept = s.kept)
    (hfailed : t.failed = s.failed) : Knows p seen t :=
  ⟨hkept ▸ h.loaded, hkept ▸ h.kept, hfailed ▸ h.failed⟩

lemma document_eq (h : Knows p seen s) : s.document = (p.lastLoaded seen).getD .empty := by
  rw [StoreState.document, h.loaded]

/-- One more state is seen: what was remembered stays as true as it was, so all that is to be said
is what is served from now on. -/
lemma see (h : Knows p seen s) (now : SourceState)
    (hloaded : s.kept.map (·.document) = p.lastLoaded (seen ++ [now])) :
    Knows p (seen ++ [now]) s where
  loaded := hloaded
  kept k hk := by
    obtain ⟨content, hmem, hrest⟩ := h.kept k hk
    exact ⟨content, List.mem_append_left _ hmem, hrest⟩
  failed version hv := by
    obtain ⟨content, hmem, hrest⟩ := h.failed version hv
    exact ⟨content, List.mem_append_left _ hmem, hrest⟩

/-- A state without a document that can be loaded changes nothing, unless the source is absent. -/
lemma see_unloadable (h : Knows p seen s) (habsent : now.isAbsent = false)
    (hload : p.loadable? now = none) : Knows p (seen ++ [now]) s := by
  refine h.see now ?_
  rw [lastLoaded_concat p seen habsent, hload, h.loaded]
  rfl

/-- A document that is kept already can be loaded again. -/
lemma see_kept {k : KeptDocument} (h : Knows p seen s) (hkept : s.kept = some k)
    (habsent : now.isAbsent = false) (hload : p.loadable? now = some k.document) :
    Knows p (seen ++ [now]) s := by
  refine h.see now ?_
  rw [lastLoaded_concat p seen habsent, hload, hkept]
  rfl

/-- **A file need not be read if its marker is remembered.**  The store serves the right document
for it already. -/
lemma remembered {version : SourceVersion} {content : Except String ByteArray} (h : Knows p seen s)
    (hmark : MarkersTell (seen ++ [.file version content])) (hknown : s.Remembers version) :
    Knows p (seen ++ [.file version content]) s := by
  -- The marker has been seen before, so it has been seen with the very same content.
  have hsame : ∀ other, .file version other ∈ seen → other = content := fun other hother =>
    hmark version other content (List.mem_append_left _ hother) (by simp)
  rcases hknown with hkept | hfailed
  · obtain ⟨k, hk, rfl⟩ := Option.map_eq_some_iff.1 hkept
    obtain ⟨other, hother, -, -, hload⟩ := h.kept k hk
    rw [hsame _ hother] at hload
    exact h.see_kept hk rfl hload
  · obtain ⟨other, hother, hload⟩ := h.failed version hfailed
    rw [hsame _ hother] at hload
    exact h.see_unloadable rfl hload

/-- Where nothing is remembered, the source may be absent. -/
lemma see_absent (h : Knows p seen s) (hkept : s.kept = none) : Knows p (seen ++ [.absent]) s := by
  refine h.see _ ?_
  rw [lastLoaded_absent, hkept]
  rfl

end Knows

/-! ## Looking at a source again -/

/-- Where the source is absent, everything from before is forgotten. -/
lemma knows_refreshAbsent (p : StoreSource) (seen : List SourceState) (s : StoreState) :
    Knows p (seen ++ [.absent]) (p.refreshAbsent s).state := by
  obtain ⟨hkept, hfailed⟩ := forgotten_refreshAbsent p s
  refine ⟨?_, fun k hk => ?_, fun version hv => ?_⟩
  · rw [lastLoaded_absent, hkept]
    rfl
  · rw [hkept] at hk
    cases hk
  · rw [hfailed] at hv
    cases hv

lemma knows_refreshObstructed (h : Knows p seen s) (obstacle : Obstacle) :
    Knows p (seen ++ [.obstructed obstacle]) (p.refreshObstructed s obstacle).state :=
  (h.see_unloadable rfl rfl).congr rfl rfl

lemma knows_reject {version : SourceVersion} {content : Except String ByteArray}
    (h : Knows p seen s) (fault : SourceFault)
    (hload : p.loadable? (.file version content) = none) :
    Knows p (seen ++ [.file version content]) (p.reject s version fault).state where
  loaded := (h.see_unloadable rfl hload).loaded
  kept := (h.see_unloadable rfl hload).kept
  failed v hv := by
    cases hv
    exact ⟨content, by simp, hload⟩

/-- Once the document in a file is kept, with its marker and its digest, nothing else matters. -/
lemma knows_keep {version : SourceVersion} {content : ByteArray} {d : Document}
    (hdocument : p.document content = .ok d)
    (hload : p.loadable? (.file version (.ok content)) = some d)
    (hkept : s.kept = some ⟨d, version, Digest.of content⟩) (hfailed : s.failed = none) :
    Knows p (seen ++ [.file version (.ok content)]) s where
  loaded := by
    rw [lastLoaded_concat p seen rfl, hload, hkept]
    rfl
  kept k hk := by
    rw [hkept] at hk
    cases hk
    exact ⟨content, by simp, rfl, hdocument, hload⟩
  failed v hv := by
    rw [hfailed] at hv
    cases hv

/-- **Reading a file is right**, whatever comes of it. -/
lemma knows_reading {version : SourceVersion} {content : Except String ByteArray}
    {pass : StorePass} (h : Knows p seen s)
    (hdigest : DigestsTell (seen ++ [.file version content]))
    (hreading : Reading p s version content pass) :
    Knows p (seen ++ [.file version content]) pass.state := by
  have hload := loadable?_file p version content
  cases hreading with
  | refused fault hunusable =>
      refine knows_reject h fault ?_
      cases hbytes : p.bytes version content with
      | error fault' =>
          rw [hload, hbytes]
          rfl
      | ok read =>
          rw [hload, hbytes, Except.toOption, Option.bind_some, (hunusable read hbytes).2]
          rfl
  | known read k hbytes hk hsame =>
      obtain ⟨rfl, hread, -, -⟩ := bytes_eq_ok_iff.1 hbytes
      obtain ⟨old, hold, holdDigest, hdocument, -⟩ := h.kept k hk
      -- Bytes with the digest of the kept document are the bytes that it was read from.
      have heq : old = read.1 :=
        hdigest _ old version read.1 (List.mem_append_left _ hold) (by simp)
          (holdDigest.trans (hsame.trans hread.symm))
      rw [heq] at hdocument
      rw [hbytes, Except.toOption, Option.bind_some, hdocument] at hload
      exact knows_keep hdocument hload (by rw [hread, ← hsame]; rfl) rfl
  | installed read d hbytes hnew hdocument =>
      obtain ⟨rfl, hread, -, -⟩ := bytes_eq_ok_iff.1 hbytes
      rw [hbytes, Except.toOption, Option.bind_some, hdocument] at hload
      exact knows_keep hdocument hload (by rw [hread]; rfl) rfl

/-! ## Calls and runs -/

/-- The flag of obstructions has no part in what a store knows. -/
lemma knows_unobstructed (h : Knows p seen s) : Knows p seen s.unobstructed := h.congr rfl rfl

lemma knows_refresh (h : Knows p seen s) (hmark : MarkersTell (seen ++ [now]))
    (hdigest : DigestsTell (seen ++ [now])) (force : Bool) :
    Knows p (seen ++ [now]) (p.refresh s now force).state := by
  cases now with
  | absent =>
      rw [refresh_absent]
      split
      · rename_i hknown
        exact (knows_unobstructed h).see_absent (Option.isNone_iff_eq_none.1 hknown.2.1)
      · exact knows_refreshAbsent p seen s.unobstructed
  | obstructed obstacle =>
      rw [refresh_obstructed]
      exact knows_refreshObstructed h obstacle
  | file version content =>
      rw [refresh_file]
      split
      · rename_i hknown
        exact (knows_unobstructed h).remembered hmark hknown.2
      · have hseen : Knows p seen { s.unobstructed with absentReported := false } :=
          h.congr rfl rfl
        exact knows_reading hseen hdigest (reading_refreshFile p s.unobstructed version content)

/-- One call keeps what a store knows in line with what it has seen. -/
lemma knows_call {store : Store} {c : StoreCall} (hsource : store.source = p)
    (h : Knows p seen store.state) (hmark : MarkersTell (seen ++ [c.now]))
    (hdigest : DigestsTell (seen ++ [c.now])) :
    Knows p (seen ++ [c.now]) (store.call c).2.state := by
  subst hsource
  rw [Store.call_pass]
  exact knows_refresh h hmark hdigest c.isReload

/-- A run of calls does so as well. -/
lemma knows_after (p : StoreSource) (calls : List StoreCall)
    (hmark : MarkersTell (calls.map (·.now))) (hdigest : DigestsTell (calls.map (·.now))) :
    Knows p (calls.map (·.now)) ((Store.opened p).after calls).state := by
  induction calls using List.reverseRecOn with
  | nil => exact knows_start p
  | append_singleton calls c ih =>
      rw [List.map_append, List.map_singleton] at hmark hdigest ⊢
      rw [Store.after_concat, Store.call_state]
      exact knows_call (Store.source_after_opened p _) (ih hmark.front hdigest.front) hmark hdigest

/-- **A store serves what a reader without a memory of its own would serve.**  In every run of
loads and reloads, over every sequence of states of the source in which a marker stands for one
content and a digest for one content, the document of every call is the empty one if the source is
absent, the one in the file if it can be loaded, and otherwise the last one that could be loaded
since the source was last absent, or the empty one. -/
theorem document_call_after (p : StoreSource) (earlier : List StoreCall) (c : StoreCall)
    (hmark : MarkersTell ((earlier ++ [c]).map (·.now)))
    (hdigest : DigestsTell ((earlier ++ [c]).map (·.now))) :
    (((Store.opened p).after earlier).call c).2.document =
      p.served (earlier.map (·.now)) c.now := by
  rw [List.map_append, List.map_singleton] at hmark hdigest
  have hearlier := knows_after p earlier hmark.front hdigest.front
  have hknows := knows_call (Store.source_after_opened p earlier) hearlier hmark hdigest
  rw [Store.document_call, hknows.document_eq, served_eq]

/-- A file is rewritten with broken content, and then a directory stands in its place: a store goes
on serving the document from before, even when it is told to look again. -/
theorem document_call_after_broken :
    (((Store.opened ⟨⟨"rules.json"⟩, .json, 100⟩).after
        [⟨false, .file ⟨0, 9⟩ (.ok "\x7b\"F\": \x7b\x7d\x7d".toUTF8)⟩,
          ⟨false, .file ⟨1, 1⟩ (.ok "\x7b".toUTF8)⟩]).call
      ⟨true, .obstructed .notFile⟩).2.document = ⟨KeyMap.ofList [("F", .empty)]⟩ := by
  have hdiffers : Digest.of "\x7b\"F\": \x7b\x7d\x7d".toUTF8 ≠ Digest.of "\x7b".toUTF8 := by
    decide +kernel
  rw [document_call_after]
  · decide +kernel
  · intro version content other hcontent hother
    simp only [List.map_cons, List.map_nil, List.cons_append, List.nil_append, List.mem_cons,
      List.not_mem_nil, SourceState.file.injEq, or_false, reduceCtorEq] at hcontent hother
    rcases hcontent with ⟨rfl, rfl⟩ | ⟨rfl, rfl⟩ <;> rcases hother with ⟨h, rfl⟩ | ⟨h, rfl⟩ <;>
      first | rfl | exact absurd h (by decide)
  · intro version content version' other hcontent hother heq
    simp only [List.map_cons, List.map_nil, List.cons_append, List.nil_append, List.mem_cons,
      List.not_mem_nil, SourceState.file.injEq, or_false, reduceCtorEq, Except.ok.injEq]
      at hcontent hother
    rcases hcontent with ⟨-, rfl⟩ | ⟨-, rfl⟩ <;> rcases hother with ⟨-, rfl⟩ | ⟨-, rfl⟩
    · rfl
    · exact absurd heq hdiffers
    · exact absurd heq.symm hdiffers
    · rfl

end StoreSource

end FormValidation
