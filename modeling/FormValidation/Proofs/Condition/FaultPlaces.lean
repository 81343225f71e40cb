import FormValidation.Proofs.Condition.FaultClasses
import FormValidation.Proofs.Condition.PlaceReading

/-!
# Where the faults of reading are

A fault of reading a condition points to a token of the text, to a character at which no token can
be read, or to the end of the text (`PointsTo`); the offset therefore lies in the text and not
within a character.  Reading the same text by offsets and places gives the same outcome, so
everything that it looks at or cuts out is there.  Evaluating what has been read gives faults of
another class.
-/

namespace FormValidation.Condition

open Scan (At)

/-- What is at an offset that a fault of reading points to. -/
inductive PointsTo (source : String) (fault : Fault) (p : Nat) : Prop where
  /-- One of the tokens of the text begins there. -/
  | token {ts : List Placed} {c : Char} {cs : List Char} {l : Lexeme}
      (htokens : tokens source.toList = .ok ts) (ht : ⟨l.token, p⟩ ∈ ts)
      (h : At source p (c :: cs)) (hread : Lexeme.read p c cs = .ok l)
  /-- A character is there at which no token can be read, for this fault. -/
  | character {c : Char} {cs : List Char} (h : At source p (c :: cs))
      (hread : Lexeme.read p c cs = .error fault)
  /-- The text ends there. -/
  | ending (hp : p = source.utf8ByteSize)

section

variable {source : String} {fault : Fault} {p : Nat}

lemma PointsTo.exists_at (h : PointsTo source fault p) : ∃ cs, At source p cs := by
  cases h with
  | token _ _ h => exact ⟨_, h⟩
  | character h => exact ⟨_, h⟩
  | ending hp => exact ⟨[], source, by rw [String.ofList_nil, String.append_empty], hp⟩

lemma PointsTo.le (h : PointsTo source fault p) : p ≤ source.utf8ByteSize := by
  obtain ⟨cs, hat⟩ := h.exists_at
  rw [hat.size_eq]
  exact Nat.le_add_right _ _

lemma PointsTo.isValid (h : PointsTo source fault p) : String.Pos.Raw.IsValid source ⟨p⟩ := by
  obtain ⟨cs, hat⟩ := h.exists_at
  exact hat.isValid

end

/-- What is read from all tokens of a text, and where a fault is. -/
lemma ofTokens_follows (endAt : Nat) (ts : List Placed) :
    ofPlaces (placesOf endAt ts) = (ofTokens endAt ts).mapError .fault ∧
      ∀ fault, ofTokens endAt ts = .error fault → Located endAt ts fault := by
  have hread : Follows endAt ts (disjunction endAt maxNesting (ts.drop 0))
      (Walk.disjunction (placesOf endAt ts) maxNesting 0) :=
    disjunction_follows maxNesting 0 (Nat.zero_le _)
  rw [List.drop_zero] at hread
  rw [ofTokens, ofPlaces]
  generalize disjunction endAt maxNesting ts = r at hread ⊢
  generalize Walk.disjunction (placesOf endAt ts) maxNesting 0 = w at hread ⊢
  cases hread with
  | fault hlocated => exact ⟨rfl, fun fault h => by cases h; exact hlocated⟩
  | @read e index hindex =>
    obtain ⟨place, -, hcurrent, hsees⟩ := exists_sees endAt hindex
    have htrailing : Located endAt ts (.trailing place.position) := hsees.located rfl rfl
    rw [ok_bind, ok_bind]
    dsimp only
    rw [hcurrent, ok_bind]
    generalize ts.drop index = rest at hsees ⊢
    cases hsees with
    | ending => exact ⟨rfl, nofun⟩
    | token => exact ⟨rfl, fun fault h => by cases h; exact htrailing⟩

/-- **Reading by offsets** has the outcome of reading, and a fault points to a place in the text. -/
lemma parseByOffset_eq (source : String) :
    parseByOffset source = (parse source).mapError .fault ∧
      ∀ fault, parse source = .error fault → fault.isParseFault = true ∧
        ∀ p, fault.position? = some p → PointsTo source fault p := by
  rw [parse, parseByOffset]
  split
  · exact ⟨rfl, fun fault h => by cases h; exact ⟨rfl, nofun⟩⟩
  · have hscans := Scan.scan_scans source
    generalize hresult : tokens source.toList = result at hscans ⊢
    generalize scan source = places at hscans ⊢
    cases hscans with
    | fault hclass hplace =>
      refine ⟨rfl, fun fault h => ?_⟩
      cases h
      refine ⟨hclass, fun p hp => ?_⟩
      obtain ⟨c, cs, hat, hread⟩ := hplace p hp
      exact .character hat hread
    | @tokens ts hbegins =>
      obtain ⟨hplaces, hlocated⟩ := ofTokens_follows source.utf8ByteSize ts
      refine ⟨hplaces, fun fault h => ?_⟩
      obtain ⟨hclass, hposition⟩ := hlocated fault h
      refine ⟨hclass, fun p hp => ?_⟩
      rcases hposition p hp with hend | ⟨t, ht, rfl⟩
      · exact .ending hend
      · obtain ⟨c, cs, l, hat, hread, htoken⟩ := hbegins t ht
        exact .token hresult (by rw [htoken]; exact ht) hat hread

/-- Reading a text never looks at or cuts out anything that is not there.  If the text is no
condition, the fault is one of reading, and if it points to anything, then to an offset in the text
where a character begins or the text ends: to a token, to a character at which no token can be read,
or to the end.  If it is a condition, then evaluating it never gives a fault of reading. -/
theorem parse_faults_placed (source : String) :
    parseByOffset source = (parse source).mapError .fault ∧
      (∀ fault, parse source = .error fault → fault.isParseFault = true ∧
        ∀ p, fault.position? = some p → p ≤ source.utf8ByteSize ∧
          String.Pos.Raw.IsValid source ⟨p⟩ ∧ PointsTo source fault p) ∧
      ∀ e, parse source = .ok e →
        ∀ context fault, e.eval context = .error fault → fault.isParseFault = false := by
  obtain ⟨hoffset, hfault⟩ := parseByOffset_eq source
  refine ⟨hoffset, fun fault h => ?_, fun e _ context fault h =>
    (Expr.evaluated_eval context e).isParseFault h⟩
  obtain ⟨hclass, hplace⟩ := hfault fault h
  exact ⟨hclass, fun p hp => ⟨(hplace p hp).le, (hplace p hp).isValid, hplace p hp⟩⟩

/-- Behind a quoted text with a character of two bytes, another such character is no token. -/
theorem parse_faults_placed_accented :
    parse "'é'+ü" = .error (.unexpected "ü" 5 .token) ∧
      String.Pos.Raw.IsValid "'é'+ü" ⟨5⟩ ∧
      PointsTo "'é'+ü" (.unexpected "ü" 5 .token) 5 := by
  have hfault : (parse "'é'+ü").map (fun _ => ()) = .error (.unexpected "ü" 5 .token) := by
    decide +kernel
  have hparse : parse "'é'+ü" = .error (.unexpected "ü" 5 .token) := by
    cases hresult : parse "'é'+ü" with
    | error fault => rw [hresult] at hfault; cases hfault; rfl
    | ok e => rw [hresult] at hfault; cases hfault
  exact ⟨hparse, (((parse_faults_placed "'é'+ü").2.1 _ hparse).2 5 rfl).2⟩

end FormValidation.Condition
