import FormValidation.Proofs.Source.Refresh

/-!
# The law of generations

A store counts the documents that it has served.  This file says exactly which calls count, what
they report, and that the count stands for the document: whatever is made from a document may be
kept under its generation.  Nothing is assumed of markers or digests, and calls may be forced.

`Store.Takes` and `Store.Drops` say, from the state of the store and what the call finds, that a
document is taken over and that the kept one is dropped.  `Store.CallEffect` lists what a call can
do: one of these, or neither, and `Store.callEffect_call` says that it does one of them.  The main
statement is `Store.generation_law`.
-/

namespace FormValidation

/-- A count that grows and does not come to its end has grown. -/
lemma Generation.le_of_next_lt {g : Generation} (h : next g < last) : g ≤ next g := by
  rw [next] at h ⊢
  rcases Nat.le_total (g + 1) last with hle | hle
  · rw [Nat.min_eq_left hle]
    exact Nat.le_succ g
  · rw [Nat.min_eq_right hle] at h
    exact absurd h (Nat.lt_irrefl _)

namespace Store

/-! ## What a call does to the count -/

/-- The call takes a document over: there is a file that it has to read, the content of the file is
within the limit and is a document, and its digest is not that of what is kept. -/
def Takes (s : Store) (c : StoreCall) (content : ByteArray) (d : Document) : Prop :=
  ∃ version, c.now = .file version (.ok content) ∧
    (c.isReload = true ∨ ¬ s.state.Remembers version) ∧
    version.length ≤ s.source.maxBytes ∧ content.size ≤ s.source.maxBytes ∧
    s.source.document content = .ok d ∧ s.digest? ≠ some (Digest.of content)

/-- The call drops the kept document, since the source is absent. -/
def Drops (s : Store) (c : StoreCall) : Prop := c.now = .absent ∧ s.state.kept.isSome

/-- What a call can do to the document, to the count and to the log. -/
inductive CallEffect (s : Store) (c : StoreCall) (pass : StorePass) : Prop
  | take (content : ByteArray) (d : Document) (htakes : s.Takes c content d)
      (hgeneration : pass.state.generation = Generation.next s.state.generation)
      (hdocument : pass.state.document = d)
      (hevents : pass.events =
        s.source.loadedEvent d (Generation.next s.state.generation) (Digest.of content) ::
          d.lint.map StoreSource.lintEvent)
  | drop (hdrops : s.Drops c)
      (hgeneration : pass.state.generation = Generation.next s.state.generation)
      (hevents : ∀ event ∈ pass.events, event.kind = .sourceError)
  | keep (htakes : ∀ content d, ¬ s.Takes c content d) (hdrops : ¬ s.Drops c)
      (hgeneration : pass.state.generation = s.state.generation)
      (hdocument : pass.state.document = s.state.document)
      (hevents : ∀ event ∈ pass.events, event.kind = .sourceError)

variable {s : Store} {c : StoreCall} {content : ByteArray} {d : Document} {isReload : Bool}

lemma Takes.now_ne_absent (h : s.Takes c content d) : c.now ≠ .absent := by
  obtain ⟨version, hnow, -⟩ := h
  rw [hnow]
  exact SourceState.noConfusion

/-- A call takes over what is in the file, and only that. -/
lemma Takes.unique {content' : ByteArray} {d' : Document} (h : s.Takes c content d)
    (h' : s.Takes c content' d') : content' = content ∧ d' = d := by
  obtain ⟨version, hnow, -, -, -, hdocument, -⟩ := h
  obtain ⟨version', hnow', -, -, -, hdocument', -⟩ := h'
  rw [hnow] at hnow'
  cases hnow'
  rw [hdocument] at hdocument'
  cases hdocument'
  exact ⟨rfl, rfl⟩

lemma callEffect_absent (s : Store) (isReload : Bool) :
    s.CallEffect ⟨isReload, .absent⟩ (s.source.refresh s.state .absent isReload) := by
  have htakes : ∀ content d, ¬ s.Takes ⟨isReload, .absent⟩ content d :=
    fun content d h => h.now_ne_absent rfl
  rw [StoreSource.refresh_absent]
  split
  · rename_i hknown
    obtain ⟨-, hkept, -⟩ := hknown
    refine .keep htakes (fun hdrops => ?_) rfl rfl fun event hevent => nomatch hevent
    rw [Option.isNone_iff_eq_none] at hkept
    rw [Drops, hkept] at hdrops
    exact nomatch hdrops.2
  · have hevents : ∀ event ∈ (s.source.refreshAbsent s.state.unobstructed).events,
        event.kind = .sourceError := by
      intro event hevent
      rw [StoreSource.refreshAbsent] at hevent
      dsimp only [StorePass.serve] at hevent
      split at hevent
      · cases hevent
      · rw [List.mem_singleton.1 hevent]
        rfl
    cases hkept : s.state.kept with
    | none =>
        have hsame : (s.source.refreshAbsent s.state.unobstructed).state =
            { s.state.unobstructed with failed := none, absentReported := true } := by
          simp [StoreSource.refreshAbsent, StorePass.serve, StoreState.unobstructed, hkept]
        refine .keep htakes (fun hdrops => ?_) ?_ ?_ hevents
        · rw [Drops, hkept] at hdrops
          exact nomatch hdrops.2
        · rw [hsame]
          rfl
        · rw [hsame]
          rfl
    | some kept =>
        refine .drop ⟨rfl, by rw [hkept]; rfl⟩ ?_ hevents
        simp [StoreSource.refreshAbsent, StorePass.serve, StoreState.unobstructed,
          StoreState.replace, hkept]

lemma callEffect_obstructed (s : Store) (isReload : Bool) (obstacle : Obstacle) :
    s.CallEffect ⟨isReload, .obstructed obstacle⟩
      (s.source.refresh s.state (.obstructed obstacle) isReload) := by
  rw [StoreSource.refresh_obstructed]
  refine .keep ?_ (fun hdrops => nomatch hdrops.1) rfl rfl fun event hevent => ?_
  · rintro content d ⟨version, hnow, -⟩
    cases hnow
  · rw [StoreSource.refreshObstructed] at hevent
    dsimp only [StorePass.serve] at hevent
    split at hevent
    · cases hevent
    · rw [List.mem_singleton.1 hevent]
      rfl

/-- What a call takes over is what its file is read as. -/
lemma Takes.bytes_eq {version : SourceVersion} {file : Except String ByteArray}
    (h : s.Takes ⟨isReload, .file version file⟩ content d) :
    s.source.bytes version file = .ok (content, Digest.of content) ∧
      s.source.document content = .ok d ∧ s.digest? ≠ some (Digest.of content) ∧
      (isReload = true ∨ ¬ s.state.Remembers version) := by
  obtain ⟨version', hnow, hreads, hlength, hsize, hdocument, hnew⟩ := h
  cases hnow
  exact ⟨StoreSource.bytes_eq_ok_iff.2 ⟨rfl, rfl, hlength, hsize⟩, hdocument, hnew, hreads⟩

/-- The flags do not matter for what comes of reading a file. -/
lemma callEffect_reading {t : StoreState} {version : SourceVersion}
    {file : Except String ByteArray} {pass : StorePass} (hkept : t.kept = s.state.kept)
    (hgeneration : t.generation = s.state.generation)
    (hreads : isReload = true ∨ ¬ s.state.Remembers version)
    (h : s.source.Reading t version file pass) :
    s.CallEffect ⟨isReload, .file version file⟩ pass := by
  have hdrops : ¬ s.Drops ⟨isReload, .file version file⟩ := by
    rintro ⟨hnow, -⟩
    cases hnow
  have hdigest : t.digest? = s.digest? := by rw [StoreState.digest?, hkept, digest?]
  have hdocument : t.document = s.state.document := by
    rw [StoreState.document, StoreState.document, hkept]
  cases h with
  | refused fault hunusable =>
      refine .keep (fun content d htakes => ?_) hdrops hgeneration hdocument fun event hevent => ?_
      · obtain ⟨hbytes, hok, -⟩ := htakes.bytes_eq
        have herror := (hunusable _ hbytes).2
        rw [hok] at herror
        cases herror
      · rw [List.mem_singleton.1 hevent]
        rfl
  | known read kept hbytes hsome hsame =>
      refine .keep (fun content d htakes => ?_) hdrops hgeneration ?_
        fun event hevent => absurd hevent List.not_mem_nil
      · obtain ⟨hbytes', -, hnew, -⟩ := htakes.bytes_eq
        rw [hbytes] at hbytes'
        cases hbytes'
        rw [← hdigest, StoreState.digest?, hsome] at hnew
        exact hnew (congrArg some hsame)
      · have hsame : t.document = kept.document := by
          rw [StoreState.document, hsome]
          rfl
        rw [← hdocument, hsame]
        rfl
  | installed read d hbytes hnew hok =>
      obtain ⟨hfile, hread, hlength, hsize⟩ := StoreSource.bytes_eq_ok_iff.1 hbytes
      rw [← hread, hdigest] at hnew
      refine .take read.1 d ⟨version, by rw [hfile], hreads, hlength, hsize, hok, hnew⟩ ?_ rfl ?_
      · rw [← hgeneration]
        rfl
      · rw [hread, ← hgeneration]
        rfl

lemma callEffect_file (s : Store) (isReload : Bool) (version : SourceVersion)
    (file : Except String ByteArray) :
    s.CallEffect ⟨isReload, .file version file⟩
      (s.source.refresh s.state (.file version file) isReload) := by
  rw [StoreSource.refresh_file]
  split
  · rename_i hknown
    refine .keep (fun content d htakes => ?_) (fun hdrops => nomatch hdrops.1) rfl rfl
      fun event hevent => nomatch hevent
    obtain ⟨-, -, -, hreads⟩ := htakes.bytes_eq
    rcases hreads with hreload | hnew
    · exact nomatch hknown.1.symm.trans hreload
    · exact hnew hknown.2
  · rename_i hread
    refine callEffect_reading (t := { s.state.unobstructed with absentReported := false }) rfl rfl
      ?_ (StoreSource.reading_refreshFile s.source s.state.unobstructed version file)
    rcases not_and_or.1 hread with hreload | hnew
    · exact .inl (Bool.not_eq_false _ ▸ hreload)
    · exact .inr hnew

/-- **A call takes a document over, drops the kept one, or leaves all as it is.** -/
lemma callEffect_call (s : Store) (c : StoreCall) : s.CallEffect c (s.call c).2 := by
  rw [call_pass]
  obtain ⟨isReload, now⟩ := c
  cases now with
  | absent => exact callEffect_absent s isReload
  | obstructed obstacle => exact callEffect_obstructed s isReload obstacle
  | file version file => exact callEffect_file s isReload version file

/-! ## Single calls -/

/-- What a single call does to the count, as long as there is room in it. -/
structure CountsCall (s : Store) (c : StoreCall) : Prop where
  /-- The count stays or grows by one. -/
  grows : (s.call c).1.state.generation = s.state.generation ∨
    (s.call c).1.state.generation = s.state.generation + 1
  /-- It grows exactly if a document is taken over or dropped. -/
  counts_iff : (s.call c).1.state.generation = s.state.generation + 1 ↔
    (∃ content d, s.Takes c content d) ∨ s.Drops c
  /-- A document that is taken over is served, and it is reported: one event says that it was
  loaded, and one for each of its issues says what is wrong and where. -/
  reports_of_takes : ∀ content d, s.Takes c content d → (s.call c).2.document = d ∧
    (s.call c).2.events =
      ⟨.loaded, none, none, none, "loaded " ++ d.size.repr ++ " form(s) from " ++
          s.source.path.text ++ " (generation " ++ (s.state.generation + 1).repr ++ ", sha256 " ++
          (Digest.of content).text ++ ")"⟩ ::
        d.lint.map fun i => ⟨.lint, some i.form, some i.group, i.index, i.message⟩
  /-- Otherwise nothing is reported but what is wrong with the source. -/
  reports_of_not_takes : (∀ content d, ¬ s.Takes c content d) →
    ∀ event ∈ (s.call c).2.events, event.kind = .sourceError

lemma countsCall (s : Store) (c : StoreCall) (hroom : s.state.generation < Generation.last) :
    s.CountsCall c := by
  have hnext : Generation.next s.state.generation = s.state.generation + 1 :=
    Generation.next_eq hroom
  cases callEffect_call s c with
  | take content d htakes hgeneration hdocument hevents =>
      rw [hnext, ← call_state] at hgeneration
      refine ⟨.inr hgeneration, iff_of_true hgeneration (.inl ⟨content, d, htakes⟩), ?_,
        fun hnot => absurd htakes (hnot content d)⟩
      intro content' d' htakes'
      obtain ⟨rfl, rfl⟩ := htakes.unique htakes'
      rw [document_call, hevents, hnext]
      exact ⟨hdocument, rfl⟩
  | drop hdrops hgeneration hevents =>
      rw [hnext, ← call_state] at hgeneration
      refine ⟨.inr hgeneration, iff_of_true hgeneration (.inr hdrops), ?_, fun _ => hevents⟩
      exact fun content d htakes => absurd hdrops.1 htakes.now_ne_absent
  | keep htakes hdrops hgeneration hdocument hevents =>
      rw [← call_state] at hgeneration
      refine ⟨.inl hgeneration, iff_of_false ?_ ?_, fun content d h => absurd h (htakes content d),
        fun _ => hevents⟩
      · rw [hgeneration]
        exact (Nat.succ_ne_self _).symm
      · rintro (⟨content, d, h⟩ | h)
        · exact htakes content d h
        · exact hdrops h

/-- While the count stays, so does the document. -/
lemma document_call_eq (s : Store) (c : StoreCall) (hroom : s.state.generation < Generation.last)
    (hsame : (s.call c).1.state.generation = s.state.generation) :
    (s.call c).1.state.document = s.state.document := by
  have hgrown : Generation.next s.state.generation ≠ s.state.generation := by
    rw [Generation.next_eq hroom]
    exact Nat.succ_ne_self _
  rw [call_state] at hsame ⊢
  cases callEffect_call s c with
  | take content d htakes hgeneration => exact absurd (hgeneration.symm.trans hsame) hgrown
  | drop hdrops hgeneration => exact absurd (hgeneration.symm.trans hsame) hgrown
  | keep htakes hdrops hgeneration hdocument => exact hdocument

/-- A count that has not come to its end has not gone back. -/
lemma generation_le_call (s : Store) (c : StoreCall)
    (hroom : (s.call c).1.state.generation < Generation.last) :
    s.state.generation ≤ (s.call c).1.state.generation := by
  rw [call_state] at hroom ⊢
  cases callEffect_call s c with
  | take content d htakes hgeneration =>
      rw [hgeneration] at hroom ⊢
      exact Generation.le_of_next_lt hroom
  | drop hdrops hgeneration =>
      rw [hgeneration] at hroom ⊢
      exact Generation.le_of_next_lt hroom
  | keep htakes hdrops hgeneration => exact Nat.le_of_eq hgeneration.symm

/-! ## Runs -/

lemma after_append (s : Store) (calls more : List StoreCall) :
    s.after (calls ++ more) = (s.after calls).after more := List.foldl_append

lemma generation_le_after (s : Store) (calls : List StoreCall)
    (hroom : (s.after calls).state.generation < Generation.last) :
    s.state.generation ≤ (s.after calls).state.generation := by
  induction calls generalizing s with
  | nil => exact Nat.le_refl _
  | cons c calls ih =>
      have hrest := ih (s.call c).1 hroom
      exact Nat.le_trans (generation_le_call s c (Nat.lt_of_le_of_lt hrest hroom)) hrest

/-- The count cannot leave and come back, so what holds of a call holds of a run. -/
lemma document_after_eq (s : Store) (calls : List StoreCall)
    (hroom : s.state.generation < Generation.last)
    (hsame : (s.after calls).state.generation = s.state.generation) :
    (s.after calls).state.document = s.state.document := by
  induction calls generalizing s with
  | nil => rfl
  | cons c calls ih =>
      have hend : ((s.call c).1.after calls).state.generation < Generation.last :=
        Nat.lt_of_le_of_lt (Nat.le_of_eq hsame) hroom
      have hrest := generation_le_after (s.call c).1 calls hend
      have hfirst := generation_le_call s c (Nat.lt_of_le_of_lt hrest hend)
      have hcall : (s.call c).1.state.generation = s.state.generation :=
        Nat.le_antisymm (Nat.le_trans hrest (Nat.le_of_eq hsame)) hfirst
      calc ((s.call c).1.after calls).state.document
          = (s.call c).1.state.document :=
            ih (s.call c).1 (hcall ▸ hroom) (hsame.trans hcall.symm)
        _ = s.state.document := document_call_eq s c hroom hcall

/-- Two calls of a run that end at the same count serve the same document. -/
lemma document_eq_of_generation_eq (s : Store) {calls first second : List StoreCall}
    (hroom : (s.after calls).state.generation < Generation.last) (hfirst : first <+: calls)
    (hsecond : second <+: calls)
    (hsame : (s.after first).state.generation = (s.after second).state.generation) :
    (s.after first).state.document = (s.after second).state.document := by
  -- One of the two comes first, and what is between them leaves the count as it is.
  have hbetween : ∀ {earlier later : List StoreCall}, later <+: calls → earlier <+: later →
      (s.after earlier).state.generation = (s.after later).state.generation →
      (s.after earlier).state.document = (s.after later).state.document := by
    rintro earlier _ ⟨rest, rfl⟩ ⟨more, rfl⟩ hcount
    rw [after_append] at hroom
    have hlater := Nat.lt_of_le_of_lt (generation_le_after _ rest hroom) hroom
    rw [after_append] at hcount hlater ⊢
    exact (document_after_eq _ more (hcount ▸ hlater) hcount.symm).symm
  rcases List.prefix_or_prefix_of_prefix hfirst hsecond with hearlier | hearlier
  · exact hbetween hsecond hearlier hsame
  · exact (hbetween hfirst hearlier hsame.symm).symm

/-- **The law of generations.**  In every run of loads and reloads in which the count does not come
to its end, over every sequence of states of the source: the count begins with zero; every call
counts as `CountsCall` says, so by one if it takes a document over or drops the kept one and not at
all otherwise; and any two calls that end at the same count serve the same document. -/
theorem generation_law (p : StoreSource) (calls : List StoreCall)
    (hroom : ((opened p).after calls).state.generation < Generation.last) :
    (opened p).state.generation = 0 ∧
    (∀ before c later, calls = before ++ c :: later → ((opened p).after before).CountsCall c) ∧
    (∀ before c later before' c' later', calls = before ++ c :: later →
      calls = before' ++ c' :: later' →
      ((opened p).after (before ++ [c])).state.generation =
        ((opened p).after (before' ++ [c'])).state.generation →
      (((opened p).after before).call c).2.document =
        (((opened p).after before').call c').2.document) := by
  refine ⟨rfl, ?_, ?_⟩
  · rintro before c later rfl
    rw [after_append] at hroom
    exact countsCall _ c (Nat.lt_of_le_of_lt (generation_le_after _ _ hroom) hroom)
  · intro before c later before' c' later' hcalls hcalls' hsame
    have hprefix : before ++ [c] <+: calls := ⟨later, by rw [hcalls, List.append_assoc]; rfl⟩
    have hprefix' : before' ++ [c'] <+: calls := ⟨later', by rw [hcalls', List.append_assoc]; rfl⟩
    have hdocument := document_eq_of_generation_eq (opened p) hroom hprefix hprefix' hsame
    rw [after_concat, after_concat, call_state, call_state] at hdocument
    rw [document_call, document_call]
    exact hdocument

/-- A file is rewritten with broken content, and then a directory stands in its place: the count
stays at one, and the document stays with it. -/
theorem generation_law_broken :
    let p : StoreSource := ⟨⟨"rules.json"⟩, .json, 100⟩
    let good : StoreCall := ⟨false, .file ⟨0, 9⟩ (.ok "\x7b\"F\": \x7b\x7d\x7d".toUTF8)⟩
    let broken : StoreCall := ⟨false, .file ⟨1, 1⟩ (.ok "\x7b".toUTF8)⟩
    let last : StoreCall := ⟨true, .obstructed .notFile⟩
    ((opened p).after [good, broken, last]).state.generation = 1 ∧ 1 < Generation.last ∧
      (((opened p).after [good, broken]).call last).2.document =
        (((opened p).after []).call good).2.document := by
  intro p good broken last
  have hone : ((opened p).after [good]).state.generation = 1 := by decide +kernel
  have hcount : ((opened p).after [good, broken, last]).state.generation = 1 := by
    decide +kernel
  have hroom : ((opened p).after [good, broken, last]).state.generation < Generation.last := by
    rw [hcount]
    decide
  have hsame : ((opened p).after ([good, broken] ++ [last])).state.generation =
      ((opened p).after ([] ++ [good])).state.generation := hcount.trans hone.symm
  refine ⟨hcount, by decide, ?_⟩
  exact (generation_law p [good, broken, last] hroom).2.2 [good, broken] last [] [] good
    [broken, last] rfl rfl hsame

end Store

end FormValidation
