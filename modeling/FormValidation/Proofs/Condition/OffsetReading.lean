import FormValidation.Condition.Walk
import FormValidation.Proofs.Condition.QuotedTexts
import Mathlib.Data.List.TakeWhile

/-!
# Tokens by offset and by character

Reading tokens from the bytes of a text gives the tokens that `tokensFrom` reads from its
characters, or the same fault.  `Lexes` relates the outcomes for a single token; it also says that
the offset behind a token is again one where a character begins, which is what the run over the
whole text (`scanFrom_eq`) goes on from.
-/

namespace FormValidation.Condition

/-- The place of a token. -/
def Placed.place (t : Placed) : Place := ⟨some t.token, t.position⟩

/-- The places of the tokens of a text and, as the last one, of its end. -/
def placesOf (endAt : Nat) (ts : List Placed) : Array Place :=
  (ts.map Placed.place ++ [Place.mk none endAt]).toArray

lemma push_append_placesOf (found : Array Place) (t : Placed) (endAt : Nat) (ts : List Placed) :
    found.push t.place ++ placesOf endAt ts = found ++ placesOf endAt (t :: ts) := by
  simp [placesOf]

namespace Scan

/-- The outcomes of reading a token by character and by offset agree: they are the same fault at the
token, or the same token, and the text goes on behind it with what is left. -/
inductive Lexes (source : String) (start : Nat) :
    Except Fault Lexeme → Except Halt (Token × Nat) → Prop where
  | fault {fault : Fault} (hclass : fault.isParseFault = true)
      (hposition : fault.position? = some start) :
      Lexes source start (.error fault) (.error (.fault fault))
  | token {l : Lexeme} (h : At source (start + l.size) l.rest) :
      Lexes source start (.ok l) (.ok (l.token, start + l.size))

section

variable {source : String} {start offset : Nat} {c : Char} {cs : List Char}

/-! ## Runs of characters -/

lemma lt_of_utf8Size (h : c.utf8Size = 1) : c.toNat < 128 :=
  Nat.lt_succ_of_le (UInt32.le_iff_toNat_le.1 (Char.utf8Size_eq_one_iff.1 h))

lemma lt_of_isDigit (h : c.isDigit = true) : c.toNat < 128 :=
  lt_of_utf8Size (utf8Size_of_isDigit h)

lemma lt_of_isWordPart (h : isWordPart c = true) : c.toNat < 128 :=
  lt_of_utf8Size (utf8Size_of_isWordPart h)

lemma lt_of_isWordStart (h : isWordStart c = true) : c.toNat < 128 :=
  lt_of_isWordPart (Lexeme.isWordPart_of_isWordStart h)

/-- A test that only ASCII characters pass, from the other side. -/
lemma eq_false_of_le {p : Char → Bool} (hp : ∀ d, p d = true → d.toNat < 128) {d : Char}
    (hd : 128 ≤ d.toNat) : p d = false := by
  rw [← Bool.not_eq_true]
  exact fun h => Nat.not_lt_of_le hd (hp d h)

/-- **A run of characters** that pass a test is passed over byte by byte, and can be cut out. -/
lemma At.passWhile {p : Char → Bool} (hp : ∀ d, p d = true → d.toNat < 128)
    (h : At source offset cs) :
    passWhile source p offset = offset + (cs.takeWhile p).length ∧
      At source (offset + (cs.takeWhile p).length) (cs.dropWhile p) := by
  induction cs generalizing offset with
  | nil =>
    refine ⟨passWhile_of_rejects source fun byte hbyte => ?_, h⟩
    cases h.byteAt?_nil.symm.trans hbyte
  | cons c cs ih =>
    obtain ⟨byte, hbyte, hleads⟩ := h.leads
    have htest := hleads.test fun _ => eq_false_of_le hp
    cases hc : p c with
    | false =>
      rw [List.takeWhile_cons_of_neg (by simp [hc]), List.dropWhile_cons_of_neg (by simp [hc])]
      refine ⟨passWhile_of_rejects source fun found hfound => ?_, h⟩
      cases hbyte.symm.trans hfound
      rw [htest, hc]
    | true =>
      obtain ⟨hpass, hrest⟩ := ih (h.next_ascii (hp c hc))
      have hlength : offset + (c :: cs.takeWhile p).length =
          offset + 1 + (cs.takeWhile p).length := by
        rw [List.length_cons]
        omega
      rw [List.takeWhile_cons_of_pos hc, List.dropWhile_cons_of_pos hc, hlength,
        passWhile_of_accepts source hbyte (htest.trans hc)]
      exact ⟨hpass, hrest⟩

lemma At.slice_run {run rest : List Char} (hrun : ∀ d ∈ run, d.toNat < 128)
    (h : At source offset (run ++ rest)) :
    Scan.slice source offset (offset + run.length) = .ok (String.ofList run) := by
  rw [← utf8ByteSize_eq_length fun d hd => utf8Size_of_lt (hrun d hd)]
  exact h.slice

lemma lt_of_mem_takeWhile {p : Char → Bool} (hp : ∀ d, p d = true → d.toNat < 128) (d : Char)
    (hd : d ∈ cs.takeWhile p) : d.toNat < 128 :=
  hp d (List.mem_takeWhile_imp hd)

/-! ## Single tokens -/

/-- A second character that must be the given one. -/
lemma byteAt?_eq_some_iff (h : At source offset cs) {d : Char} (hd : d.toNat < 128) :
    byteAt? source offset = some d.toUInt8 ↔ ∃ rest, cs = d :: rest := by
  cases cs with
  | nil => simp [h.byteAt?_nil]
  | cons c cs =>
    obtain ⟨byte, hbyte, hleads⟩ := h.leads
    rw [hbyte, Option.some_inj, hleads.eq_iff hd]
    simp

lemma paired_lexes {token : Token} (hc : c.toNat < 128) (h : At source start (c :: cs)) :
    Lexes source start (Lexeme.paired start c token cs) (paired source start c token) := by
  have hnext := h.next_ascii hc
  have hsecond := byteAt?_eq_some_iff hnext hc
  have hmissing : byteAt? source (start + 1) ≠ some c.toUInt8 → Lexes source start
      (.error (.unexpected (String.singleton c) start (.operator (String.ofList [c, c]))))
      (paired source start c token) := by
    intro hne
    rw [paired, if_neg hne, byteAt, h.byteAt?_ascii hc]
    show Lexes source start _ (.error (.fault (.unexpected
      (String.singleton (Char.ofUInt8 c.toUInt8)) start (.operator (String.ofList [c, c])))))
    rw [ofUInt8_toUInt8 hc]
    exact .fault rfl rfl
  cases cs with
  | nil => exact hmissing fun heq => by simpa using hsecond.1 heq
  | cons d rest =>
    rw [Lexeme.paired]
    split
    · rename_i hd
      subst hd
      rw [paired, if_pos (hsecond.2 ⟨rest, rfl⟩)]
      exact .token (hnext.next_ascii hc)
    · rename_i hd
      exact hmissing fun heq => by
        obtain ⟨_, heq⟩ := hsecond.1 heq
        cases heq
        exact hd rfl

lemma either_lexes {withEquals alone : Token} (hc : c.toNat < 128)
    (h : At source start (c :: cs)) :
    Lexes source start (.ok (Lexeme.either withEquals alone cs))
      (.ok (either source start withEquals alone)) := by
  have hequals : '='.toNat < 128 := by decide
  have hnext := h.next_ascii hc
  have hsecond := byteAt?_eq_some_iff hnext hequals
  have halone : byteAt? source (start + 1) ≠ some '='.toUInt8 → Lexes source start
      (.ok ⟨alone, 1, cs⟩) (.ok (either source start withEquals alone)) := by
    intro hne
    rw [either, if_neg hne]
    exact .token hnext
  cases cs with
  | nil => exact halone fun heq => by simpa using hsecond.1 heq
  | cons d rest =>
    rw [Lexeme.either]
    split
    · rename_i hd
      subst hd
      rw [either, if_pos (hsecond.2 ⟨rest, rfl⟩)]
      exact .token (hnext.next_ascii hequals)
    · rename_i hd
      exact halone fun heq => by
        obtain ⟨_, heq⟩ := hsecond.1 heq
        cases heq
        exact hd rfl

lemma quoted_lexes (hc : IsQuote c) (h : At source start (c :: cs)) :
    Lexes source start
      (match quotedText? c cs with
      | some q => .ok ⟨.text (String.ofList q.content), 1 + q.size, q.rest⟩
      | none => .error (.unterminated start))
      ((quoted source c.toUInt8 start).map fun (text, stop) => (.text text, stop)) := by
  rw [quoted_eq_copied hc h]
  cases hread : quotedText? c cs with
  | none => exact .fault rfl rfl
  | some q =>
    obtain ⟨content, size, rest⟩ := q
    obtain ⟨body, rfl, hstands⟩ := exists_standsFor hc hread
    cases (quotedText?_of_standsFor hc hstands rest).symm.trans hread
    have hclosed : At source start ((c :: (body ++ [c])) ++ rest) := by
      rwa [List.cons_append, List.append_assoc, List.singleton_append]
    have hbehind := hclosed.behind
    rw [utf8ByteSize_ofList_cons, String.ofList_append, String.utf8ByteSize_append,
      utf8ByteSize_ofList_cons, hc.utf8Size] at hbehind
    simp only [copied, Except.map, String.empty_append, Nat.add_assoc]
    exact .token hbehind

lemma word_lexes (h : At source start cs) :
    Lexes source start (.ok (Lexeme.word cs)) (word source start) := by
  obtain ⟨hpass, hrest⟩ := h.passWhile fun _ => lt_of_isWordPart
  have hslice : slice source start (start + (cs.takeWhile isWordPart).length) =
      .ok (String.ofList (cs.takeWhile isWordPart)) := by
    rw [← List.takeWhile_append_dropWhile (p := isWordPart) (l := cs)] at h
    exact h.slice_run (lt_of_mem_takeWhile fun _ => lt_of_isWordPart)
  rw [word, hpass, hslice]
  exact .token hrest

lemma any_byteAt? {p : Char → Bool} (hp : ∀ d, p d = true → d.toNat < 128)
    (h : At source offset cs) :
    (byteAt? source offset).any (fun byte => p (Char.ofUInt8 byte)) = cs.head?.any p := by
  cases cs with
  | nil => rw [h.byteAt?_nil]; rfl
  | cons c cs =>
    obtain ⟨byte, hbyte, hleads⟩ := h.leads
    rw [hbyte]
    exact hleads.test fun _ => eq_false_of_le hp

/-- A fraction follows where there is a point with a digit behind it. -/
lemma fraction_iff (h : At source offset cs) :
    byteAt? source offset = some '.'.toUInt8 ∧
        (byteAt? source (offset + 1)).any (fun byte => (Char.ofUInt8 byte).isDigit) = true ↔
      ∃ d rest, cs = '.' :: d :: rest ∧ d.isDigit = true := by
  have hpoint : '.'.toNat < 128 := by decide
  rw [byteAt?_eq_some_iff h hpoint]
  constructor
  · rintro ⟨⟨rest, rfl⟩, hany⟩
    rw [any_byteAt? (fun _ => lt_of_isDigit) (h.next_ascii hpoint)] at hany
    cases rest with
    | nil => cases hany
    | cons d rest => exact ⟨d, rest, rfl, hany⟩
  · rintro ⟨d, rest, rfl, hd⟩
    rw [any_byteAt? (fun _ => lt_of_isDigit) (h.next_ascii hpoint)]
    exact ⟨⟨d :: rest, rfl⟩, hd⟩

lemma number_of_fraction {d : Char} {rest : List Char}
    (hdrop : cs.dropWhile Char.isDigit = '.' :: d :: rest) (hd : d.isDigit = true) :
    Lexeme.number cs =
      ⟨.float (String.ofList
        (cs.takeWhile Char.isDigit ++ '.' :: (d :: rest).takeWhile Char.isDigit)),
        (cs.takeWhile Char.isDigit).length + 1 + ((d :: rest).takeWhile Char.isDigit).length,
        (d :: rest).dropWhile Char.isDigit⟩ := by
  simp only [Lexeme.number, hdrop, hd, if_true]

lemma number_of_whole
    (h : ¬∃ d rest, cs.dropWhile Char.isDigit = '.' :: d :: rest ∧ d.isDigit = true) :
    Lexeme.number cs = ⟨.int (String.ofList (cs.takeWhile Char.isDigit)),
      (cs.takeWhile Char.isDigit).length, cs.dropWhile Char.isDigit⟩ := by
  rw [Lexeme.number]
  dsimp only
  split
  · rename_i d rest hdrop
    rw [if_neg fun hd => h ⟨d, rest, hdrop, hd⟩]
  · rfl

lemma number_lexes (h : At source start cs) :
    Lexes source start (.ok (Lexeme.number cs)) (number source start) := by
  have hdigit : ∀ d : Char, d.isDigit = true → d.toNat < 128 := fun _ => lt_of_isDigit
  have hpoint : '.'.toNat < 128 := by decide
  obtain ⟨hpass, hrest⟩ := h.passWhile hdigit
  have hwhole : ∀ d ∈ cs.takeWhile Char.isDigit, d.toNat < 128 := lt_of_mem_takeWhile hdigit
  rw [← List.takeWhile_append_dropWhile (p := Char.isDigit) (l := cs)] at h
  rw [number]
  dsimp only
  rw [hpass]
  by_cases hfraction : ∃ d rest, cs.dropWhile Char.isDigit = '.' :: d :: rest ∧ d.isDigit = true
  · rw [if_pos ((fraction_iff hrest).2 hfraction)]
    obtain ⟨d, rest, hdrop, hd⟩ := hfraction
    rw [hdrop] at h hrest
    obtain ⟨hpass', hrest'⟩ := (hrest.next_ascii hpoint).passWhile hdigit
    have hdigits : ∀ e ∈ cs.takeWhile Char.isDigit ++ '.' :: (d :: rest).takeWhile Char.isDigit,
        e.toNat < 128 := by
      intro e he
      rcases List.mem_append.1 he with he | he
      · exact hwhole e he
      rcases List.mem_cons.1 he with rfl | he
      · exact hpoint
      · exact lt_of_mem_takeWhile hdigit e he
    rw [← List.takeWhile_append_dropWhile (p := Char.isDigit) (l := d :: rest),
      ← List.cons_append, ← List.append_assoc] at h
    have hpiece := h.slice_run hdigits
    have hlength : (cs.takeWhile Char.isDigit ++ '.' :: (d :: rest).takeWhile Char.isDigit).length =
        (cs.takeWhile Char.isDigit).length + 1 + ((d :: rest).takeWhile Char.isDigit).length := by
      rw [List.length_append, List.length_cons]
      omega
    have hstop : start + (cs.takeWhile Char.isDigit).length + 1 +
        ((d :: rest).takeWhile Char.isDigit).length = start +
        ((cs.takeWhile Char.isDigit).length + 1 + ((d :: rest).takeWhile Char.isDigit).length) := by
      omega
    rw [hlength] at hpiece
    rw [hstop] at hpass' hrest'
    rw [number_of_fraction hdrop hd, hpass', hpiece]
    exact .token hrest'
  · rw [if_neg ((fraction_iff hrest).not.2 hfraction), h.slice_run hwhole,
      number_of_whole hfraction]
    exact .token hrest

/-- A character that begins no token is named in the fault as a whole, whatever its first byte. -/
lemma unreadable_lexes (h : At source start (c :: cs)) (first : Char) :
    Lexes source start (.error (.unexpected (String.singleton c) start .token)) (do
      let rest ← slice source start source.utf8ByteSize
      .error (.fault
        (.unexpected (String.singleton (rest.toList.head?.getD first)) start .token))) := by
  have hrest : slice source start source.utf8ByteSize = .ok (String.ofList (c :: cs)) := by
    rw [h.size_eq]
    rw [← List.append_nil (c :: cs)] at h
    exact h.slice
  rw [hrest]
  show Lexes source start _ (.error (.fault (.unexpected
    (String.singleton ((String.ofList (c :: cs)).toList.head?.getD first)) start .token)))
  rw [String.toList_ofList]
  exact .fault rfl rfl

lemma mark?_of_le (hc : 128 ≤ c.toNat) : Lexeme.mark? c = none := by
  rw [Lexeme.mark?] <;> exact ne_of_le hc (by decide)

lemma Lexes.ite {p q : Prop} [Decidable p] [Decidable q] {r r' : Except Fault Lexeme}
    {t t' : Except Halt (Token × Nat)} (hpq : q ↔ p) (hpos : p → Lexes source start r t)
    (hneg : ¬p → Lexes source start r' t') :
    Lexes source start (if p then r else r') (if q then t else t') := by
  by_cases h : p
  · rw [if_pos h, if_pos (hpq.2 h)]
    exact hpos h
  · rw [if_neg h, if_neg (hpq.not.2 h)]
    exact hneg h

/-- **A token** is the same by offset and by character. -/
lemma token_lexes {byte : UInt8} (h : At source start (c :: cs))
    (hbyte : byteAt? source start = some byte) :
    Lexes source start (Lexeme.read start c cs) (token source byte start) := by
  obtain ⟨found, hfound, hleads⟩ := h.leads
  cases hfound.symm.trans hbyte
  have hchar : ∀ {d : Char}, d.toNat < 128 → (Char.ofUInt8 byte = d ↔ c = d) :=
    fun hd => (ofUInt8_eq_iff hd).trans (hleads.eq_iff hd)
  have htest : ∀ {p : Char → Bool}, (∀ d, p d = true → d.toNat < 128) →
      (p (Char.ofUInt8 byte) = true ↔ p c = true) := by
    intro p hp
    rw [hleads.test fun _ => eq_false_of_le hp]
  have hpaired : ∀ {d : Char} {t : Token}, d.toNat < 128 → c = d →
      Lexes source start (Lexeme.paired start c t cs)
        (paired source start (Char.ofUInt8 byte) t) := by
    rintro d t hd rfl
    rw [(hchar hd).2 rfl]
    exact paired_lexes hd h
  have heither : ∀ {d : Char} {t t' : Token}, d.toNat < 128 → c = d →
      Lexes source start (.ok (Lexeme.either t t' cs)) (.ok (either source start t t')) := by
    rintro d t t' hd rfl
    exact either_lexes hd h
  rw [Lexeme.read, token]
  dsimp only
  rw [hleads.test fun _ => mark?_of_le]
  cases hmark : Lexeme.mark? c with
  | some mark => exact .token (h.next_ascii (lt_of_eq_some (fun _ => mark?_of_le) hmark))
  | none =>
    refine .ite (hchar (by decide)) (hpaired (by decide)) fun _ => ?_
    refine .ite (hchar (by decide)) (hpaired (by decide)) fun _ => ?_
    refine .ite (hchar (by decide)) (hpaired (by decide)) fun _ => ?_
    refine .ite (hchar (by decide)) (heither (by decide)) fun _ => ?_
    refine .ite (hchar (by decide)) (heither (by decide)) fun _ => ?_
    refine .ite (hchar (by decide)) (heither (by decide)) fun _ => ?_
    refine .ite (or_congr (hchar (by decide)) (hchar (by decide))) (fun hquote => ?_) fun _ => ?_
    · have hc : c.toNat < 128 := by rcases hquote with rfl | rfl <;> decide
      rw [(hleads.eq_iff hc).2 rfl]
      exact quoted_lexes hquote h
    refine .ite (htest fun _ => lt_of_isDigit) (fun _ => number_lexes h) fun _ => ?_
    exact .ite (htest fun _ => lt_of_isWordStart) (fun _ => word_lexes h)
      fun _ => unreadable_lexes h _

/-! ## All tokens -/

variable {found : Array Place}

lemma lt_of_isSpace (h : isSpace c = true) : c.toNat < 128 := by
  simp only [isSpace, Bool.or_eq_true, beq_iff_eq] at h
  rcases h with ((rfl | rfl) | rfl) | rfl <;> decide

lemma scanFrom_of_none (h : byteAt? source offset = none) :
    scanFrom source offset found =
      if found.isEmpty then .error (.fault .emptyInput) else .ok (found.push ⟨none, offset⟩) := by
  rw [scanFrom]
  split
  next => rfl
  next byte hbyte => cases h.symm.trans hbyte

lemma scanFrom_of_space {byte : UInt8} (h : byteAt? source offset = some byte)
    (hspace : isSpace (Char.ofUInt8 byte) = true) :
    scanFrom source offset found = scanFrom source (offset + 1) found := by
  rw [scanFrom]
  split
  next hnone => cases hnone.symm.trans h
  next other hother =>
    cases hother.symm.trans h
    rw [if_pos hspace]

lemma scanFrom_of_token {byte : UInt8} (h : byteAt? source offset = some byte)
    (hspace : isSpace (Char.ofUInt8 byte) = false) :
    scanFrom source offset found =
      match token source byte offset with
      | .error halt => .error halt
      | .ok (t, stop) => scanFrom source stop (found.push ⟨some t, offset⟩) := by
  rw [scanFrom]
  split
  next hnone => cases hnone.symm.trans h
  next other hother =>
    cases hother.symm.trans h
    rw [if_neg (by rw [hspace]; exact Bool.false_ne_true)]
    split <;> simp_all

/-- Where no white space is, the run goes on with the outcome of reading a token. -/
lemma exists_lexes (h : At source offset (c :: cs)) (hspace : ¬isSpace c = true)
    (found : Array Place) :
    ∃ result, Lexes source offset (Lexeme.read offset c cs) result ∧
      scanFrom source offset found =
        match result with
        | .error halt => .error halt
        | .ok (t, stop) => scanFrom source stop (found.push (Placed.place ⟨t, offset⟩)) := by
  obtain ⟨byte, hbyte, hleads⟩ := h.leads
  refine ⟨_, token_lexes h hbyte, scanFrom_of_token hbyte ?_⟩
  rw [hleads.test fun _ => eq_false_of_le fun _ => lt_of_isSpace]
  exact Bool.eq_false_iff.2 hspace

/-- A token of a text begins where the text goes on with what it is read from. -/
def Begins (source : String) (t : Placed) : Prop :=
  ∃ c cs l, At source t.position (c :: cs) ∧ Lexeme.read t.position c cs = .ok l ∧
    l.token = t.token

/-- **The tokens by offset**, behind those found before, are the tokens by character.  Each of them
begins at its position, and a fault is at a character at which no token can be read. -/
lemma scanFrom_eq (h : At source offset cs) (found : Array Place) :
    match tokensFrom offset cs with
    | .error fault => scanFrom source offset found = .error (.fault fault) ∧
        fault.isParseFault = true ∧ ∃ p c cs, fault.position? = some p ∧
          At source p (c :: cs) ∧ Lexeme.read p c cs = .error fault
    | .ok ts => scanFrom source offset found =
        (if found.isEmpty && ts.isEmpty then .error (.fault .emptyInput)
        else .ok (found ++ placesOf source.utf8ByteSize ts)) ∧ ∀ t ∈ ts, Begins source t := by
  fun_induction tokensFrom offset cs generalizing found with
  | case1 offset =>
    have hend : source.utf8ByteSize = offset := h.size_eq
    rw [scanFrom_of_none h.byteAt?_nil, hend]
    simp [placesOf]
  | case2 offset c cs hspace ih =>
    have hc := lt_of_isSpace hspace
    rw [scanFrom_of_space (h.byteAt?_ascii hc) (by rwa [ofUInt8_toUInt8 hc])]
    exact ih (h.next_ascii hc) found
  | case3 offset c cs hspace fault hread =>
    obtain ⟨result, hlexes, hscan⟩ := exists_lexes h hspace found
    rw [hread] at hlexes
    cases hlexes with
    | fault hclass hposition => exact ⟨hscan, hclass, offset, c, cs, hposition, h, hread⟩
  | case4 offset c cs hspace l hread _ fault hrest ih =>
    obtain ⟨result, hlexes, hscan⟩ := exists_lexes h hspace found
    rw [hread] at hlexes
    cases hlexes with
    | token hbehind =>
      have hmore := ih hbehind (found.push (Placed.place ⟨l.token, offset⟩))
      rw [hrest] at hmore
      exact ⟨hscan.trans hmore.1, hmore.2⟩
  | case5 offset c cs hspace l hread _ rest hrest ih =>
    obtain ⟨result, hlexes, hscan⟩ := exists_lexes h hspace found
    rw [hread] at hlexes
    cases hlexes with
    | token hbehind =>
      have hmore := ih hbehind (found.push (Placed.place ⟨l.token, offset⟩))
      rw [hrest] at hmore
      dsimp only at hmore
      rw [push_append_placesOf] at hmore
      refine ⟨hscan.trans (hmore.1.trans ?_),
        List.forall_mem_cons.2 ⟨⟨c, cs, l, h, hread, rfl⟩, hmore.2⟩⟩
      simp

end

/-- The outcomes of reading all tokens by character and by offset agree: they are the same fault,
which points to a character at which no token can be read if it points to anything, or the same
tokens, each of which begins at its position. -/
inductive Scans (source : String) :
    Except Fault (List Placed) → Except Halt (Array Place) → Prop where
  | fault {fault : Fault} (hclass : fault.isParseFault = true)
      (hplace : ∀ p, fault.position? = some p →
        ∃ c cs, At source p (c :: cs) ∧ Lexeme.read p c cs = .error fault) :
      Scans source (.error fault) (.error (.fault fault))
  | tokens {ts : List Placed} (h : ∀ t ∈ ts, Begins source t) :
      Scans source (.ok ts) (.ok (placesOf source.utf8ByteSize ts))

/-- **The tokens of a text** are the same by offset and by character. -/
lemma scan_scans (source : String) : Scans source (tokens source.toList) (scan source) := by
  have hrun := scanFrom_eq (at_zero source) #[]
  rw [tokens, scan]
  cases htokens : tokensFrom 0 source.toList with
  | error fault =>
    rw [htokens] at hrun
    obtain ⟨hscan, hclass, p, c, cs, hposition, hplace⟩ := hrun
    rw [hscan]
    refine .fault hclass fun q hq => ?_
    cases hposition.symm.trans hq
    exact ⟨c, cs, hplace⟩
  | ok ts =>
    rw [htokens] at hrun
    obtain ⟨hscan, hbegins⟩ := hrun
    rw [hscan]
    cases ts with
    | nil => exact .fault rfl fun p hp => by cases hp
    | cons t ts =>
      have hplaces : #[] ++ placesOf source.utf8ByteSize (t :: ts) =
          placesOf source.utf8ByteSize (t :: ts) := Array.empty_append
      rw [List.isEmpty_cons, Bool.and_false, if_neg Bool.false_ne_true, hplaces]
      exact .tokens hbegins

end Scan

end FormValidation.Condition
