import FormValidation.Proofs.Condition.Offsets

/-!
# Quoted texts, by segments and by characters

A quoted text is copied out of the bytes of a condition by segments: what has been passed over since
the last escape is cut out at the next escape or at the closing quote.  `quotedText?` reads the same
text character by character.  The two agree (`copyQuoted_eq`); the invariant of the loop is that the
text goes on, at the start of the segment, with the characters passed over and then those to come.

What a quoted text stands for is also said without reading it: `StandsFor quote body content` holds
if `body`, between two quotes, stands for `content`.  Such a body holds its kind of quote behind
backslashes only, so it ends at the first quote that no backslash escapes.
-/

namespace FormValidation.Condition

/-- What stands between two quotes of a kind, and the text it stands for. -/
inductive StandsFor (quote : Char) : List Char → List Char → Prop where
  | nil : StandsFor quote [] []
  | plain {c : Char} {cs ds : List Char} (hquote : c ≠ quote) (hslash : c ≠ '\\')
      (h : StandsFor quote cs ds) : StandsFor quote (c :: cs) (c :: ds)
  | escape {e d : Char} {cs ds : List Char} (he : unescape? e = some d)
      (h : StandsFor quote cs ds) : StandsFor quote ('\\' :: e :: cs) (d :: ds)
  /-- A backslash that escapes nothing is kept, and so is the character behind it. -/
  | kept {c : Char} {cs ds : List Char} (hc : unescape? c = none) (h : StandsFor quote cs ds) :
      StandsFor quote ('\\' :: c :: cs) ('\\' :: c :: ds)

namespace Scan

section

variable {source : String} {quote : Char} {start offset segment : Nat} {text : String} {c : Char}
  {cs : List Char}

/-! ## Single steps of the loop -/

lemma unescape?_of_le {c : Char} (hc : 128 ≤ c.toNat) : unescape? c = none := by
  have hne : ∀ d : Char, d.toNat < 128 → c ≠ d := fun _ => ne_of_le hc
  simp only [unescape?, hne 'n' (by decide), hne 't' (by decide), hne '\\' (by decide),
    hne '\'' (by decide), hne '"' (by decide), if_false, or_self]

lemma lt_of_unescape? {e d : Char} (h : unescape? e = some d) : e.toNat < 128 :=
  lt_of_eq_some (fun _ => unescape?_of_le) h

lemma copyQuoted_of_none {quote : UInt8} (h : byteAt? source offset = none) :
    copyQuoted source quote start offset segment text = .error (.fault (.unterminated start)) := by
  rw [copyQuoted]
  split
  next => rfl
  next byte hbyte => cases h.symm.trans hbyte

/-- The closing quote ends the last segment. -/
lemma copyQuoted_of_quote {quote : UInt8} {piece : String} (h : byteAt? source offset = some quote)
    (hpiece : slice source segment offset = .ok piece) :
    copyQuoted source quote start offset segment text = .ok (text ++ piece, offset + 1) := by
  rw [copyQuoted]
  split
  next hnone => cases hnone.symm.trans h
  next byte hbyte =>
    cases hbyte.symm.trans h
    rw [if_pos rfl, hpiece]
    rfl

/-- A backslash ends a segment, and the next one begins behind what it escapes. -/
lemma copyQuoted_of_backslash {quote : UInt8} {piece : String}
    (h : byteAt? source offset = some '\\'.toUInt8) (hquote : '\\'.toUInt8 ≠ quote)
    (hpiece : slice source segment offset = .ok piece) :
    copyQuoted source quote start offset segment text =
      match byteAt? source (offset + 1) with
      | none => .error (.fault (.unterminated start))
      | some escaped =>
        match unescape? (Char.ofUInt8 escaped) with
        | some c =>
          copyQuoted source quote start (offset + 2) (offset + 2) ((text ++ piece).push c)
        | none =>
          copyQuoted source quote start (offset + 1) (offset + 1) ((text ++ piece).push '\\') := by
  rw [copyQuoted]
  split
  next hnone => cases hnone.symm.trans h
  next byte hbyte =>
    cases hbyte.symm.trans h
    rw [if_neg hquote, if_pos rfl]
    generalize slice source segment offset = result at hpiece ⊢
    subst hpiece
    rfl

/-- Any other byte is passed over. -/
lemma copyQuoted_of_other {quote byte : UInt8} (h : byteAt? source offset = some byte)
    (hquote : byte ≠ quote) (hslash : byte ≠ '\\'.toUInt8) :
    copyQuoted source quote start offset segment text =
      copyQuoted source quote start (offset + 1) segment text := by
  rw [copyQuoted]
  split
  next hnone => cases hnone.symm.trans h
  next found hfound =>
    cases hfound.symm.trans h
    rw [if_neg hquote, if_neg hslash]

/-- **A character** that is neither the quote nor a backslash is passed over, byte by byte. -/
lemma copyQuoted_pass (hquote : quote.toNat < 128) (h : At source offset (c :: cs))
    (hne : c ≠ quote) (hslash : c ≠ '\\') :
    copyQuoted source quote.toUInt8 start offset segment text =
      copyQuoted source quote.toUInt8 start (offset + c.utf8Size) segment text := by
  have hbackslash : '\\'.toNat < 128 := by decide
  rcases Nat.lt_or_ge c.toNat 128 with hc | hc
  · obtain ⟨byte, hbyte, hleads⟩ := h.leads
    rw [utf8Size_of_lt hc]
    exact copyQuoted_of_other hbyte ((hleads.eq_iff hquote).not.2 hne)
      ((hleads.eq_iff hbackslash).not.2 hslash)
  · have habove : ∀ {byte : UInt8} {d : Char}, 128 ≤ byte.toNat → d.toNat < 128 →
        byte ≠ d.toUInt8 := by
      rintro byte d hle hd rfl
      have : d.toUInt8.toNat = d.toNat % 256 := rfl
      omega
    have hpass : ∀ i ≤ c.utf8Size, copyQuoted source quote.toUInt8 start offset segment text =
        copyQuoted source quote.toUInt8 start (offset + i) segment text := by
      intro i hi
      induction i with
      | zero => rfl
      | succ i ih =>
        obtain ⟨byte, hbyte, hle⟩ := h.above hc hi
        rw [ih (Nat.le_of_succ_le hi), copyQuoted_of_other hbyte (habove hle hquote)
          (habove hle hbackslash), Nat.add_assoc]
    exact hpass _ (Nat.le_refl _)

/-! ## The loop -/

/-- What copying comes to if the text is read from `offset` on as `result`, and `text` has been
copied before. -/
def copied (start offset : Nat) (text : String) (result : Option QuotedText) :
    Except Halt (String × Nat) :=
  match result with
  | some q => .ok (text ++ String.ofList q.content, offset + q.size)
  | none => .error (.fault (.unterminated start))

lemma copied_cons (size : Nat) (result : Option QuotedText) :
    copied start offset text (result.map (.cons c size)) =
      copied start (offset + size) (text.push c) result := by
  cases result with
  | none => rfl
  | some q =>
    simp only [copied, Option.map_some, QuotedText.cons, String.ofList_cons, Nat.add_assoc,
      String.push_eq_append, String.append_assoc]

/-- **The loop** copies what is read character by character. -/
lemma copyQuoted_eq (hquote : IsQuote quote) (text : String) (pending : List Char)
    (h : At source segment (pending ++ cs)) :
    copyQuoted source quote.toUInt8 start (segment + (String.ofList pending).utf8ByteSize) segment
        text =
      copied start (segment + (String.ofList pending).utf8ByteSize)
        (text ++ String.ofList pending) (quotedText? quote cs) := by
  have hbackslash : '\\'.toNat < 128 := by decide
  have hascii : quote.toNat < 128 := by rcases hquote with rfl | rfl <;> decide
  have hne : '\\'.toUInt8 ≠ quote.toUInt8 := by rcases hquote with rfl | rfl <;> decide
  fun_induction quotedText? quote cs generalizing pending segment text with
  | case1 => exact copyQuoted_of_none h.behind.byteAt?_nil
  | case2 cs =>
    rw [copyQuoted_of_quote (h.behind.byteAt?_ascii hascii) h.slice, copied, String.ofList_nil,
      String.append_empty]
  | case3 =>
    have hend := h.behind.next_ascii hbackslash
    rw [copyQuoted_of_backslash (h.behind.byteAt?_ascii hbackslash) hne h.slice, hend.byteAt?_nil]
    rfl
  | case4 e rest d he _ ih =>
    have hescape := h.behind.next_ascii hbackslash
    obtain ⟨escaped, hescaped, hleads⟩ := hescape.leads
    have hread : unescape? (Char.ofUInt8 escaped) = some d :=
      (hleads.test fun _ => unescape?_of_le).trans he
    have hrest := hescape.next_ascii (lt_of_unescape? he)
    have hih := ih ((text ++ String.ofList pending).push d) [] hrest
    simp only [String.ofList_nil, String.utf8ByteSize_empty, Nat.add_zero,
      String.append_empty] at hih
    rw [copyQuoted_of_backslash (h.behind.byteAt?_ascii hbackslash) hne h.slice, hescaped]
    simp only [hread]
    rw [hih, copied_cons]
  | case5 e rest he _ ih =>
    have hescape := h.behind.next_ascii hbackslash
    obtain ⟨escaped, hescaped, hleads⟩ := hescape.leads
    have hread : unescape? (Char.ofUInt8 escaped) = none :=
      (hleads.test fun _ => unescape?_of_le).trans he
    have hih := ih ((text ++ String.ofList pending).push '\\') [] hescape
    simp only [String.ofList_nil, String.utf8ByteSize_empty, Nat.add_zero,
      String.append_empty] at hih
    rw [copyQuoted_of_backslash (h.behind.byteAt?_ascii hbackslash) hne h.slice, hescaped]
    simp only [hread]
    rw [hih, copied_cons]
  | case6 c cs hplain hslash ih =>
    have hpending : At source segment ((pending ++ [c]) ++ cs) := by
      rwa [List.append_assoc, List.singleton_append]
    have hih := ih text (pending ++ [c]) hpending
    rw [String.ofList_append, ← String.singleton_eq_ofList, String.utf8ByteSize_append,
      String.utf8ByteSize_singleton, ← Nat.add_assoc] at hih
    rw [copyQuoted_pass hascii h.behind hplain hslash, hih, copied_cons, ← String.append_assoc,
      String.push_eq_append]

/-! ## What a quoted text stands for -/

/-- A character behind a backslash that escapes nothing neither closes the text nor escapes. -/
lemma ne_of_unescape? (hquote : IsQuote quote) (h : unescape? c = none) :
    c ≠ quote ∧ c ≠ '\\' := by
  constructor
  · rintro rfl
    rw [hquote.unescape?] at h
    cases h
  · rintro rfl
    cases h

lemma quotedText?_kept (hquote : IsQuote quote) (h : unescape? c = none) (cs : List Char) :
    quotedText? quote ('\\' :: c :: cs) =
      ((quotedText? quote cs).map (.cons c c.utf8Size)).map (.cons '\\' 1) := by
  obtain ⟨hplain, hslash⟩ := ne_of_unescape? hquote h
  rw [← quotedText?_plain hplain hslash, quotedText?.eq_def]
  simp [hquote.ne_backslash.symm, h]

lemma quotedText?_of_standsFor (hquote : IsQuote quote) {body content : List Char}
    (h : StandsFor quote body content) (rest : List Char) :
    quotedText? quote (body ++ quote :: rest) =
      some ⟨content, (String.ofList body).utf8ByteSize + 1, rest⟩ := by
  have hbackslash : '\\'.utf8Size = 1 := rfl
  induction h with
  | nil =>
    rw [List.nil_append, quotedText?.eq_def]
    simp
  | plain hplain hslash _ ih =>
    rw [List.cons_append, quotedText?_plain hplain hslash, ih, utf8ByteSize_ofList_cons,
      Nat.add_assoc]
    rfl
  | escape he _ ih =>
    rw [List.cons_append, List.cons_append, quotedText?_escape hquote he, ih,
      utf8ByteSize_ofList_cons, utf8ByteSize_ofList_cons, hbackslash,
      utf8Size_of_lt (lt_of_unescape? he), ← Nat.add_assoc, Nat.add_assoc (1 + 1)]
    rfl
  | kept hc _ ih =>
    rw [List.cons_append, List.cons_append, quotedText?_kept hquote hc, ih,
      utf8ByteSize_ofList_cons, utf8ByteSize_ofList_cons, hbackslash, Nat.add_assoc, Nat.add_assoc]
    rfl

lemma exists_standsFor (hquote : IsQuote quote) {q : QuotedText}
    (h : quotedText? quote cs = some q) :
    ∃ body, cs = body ++ quote :: q.rest ∧ StandsFor quote body q.content := by
  fun_induction quotedText? quote cs generalizing q with
  | case1 => cases h
  | case2 cs => cases h; exact ⟨[], rfl, .nil⟩
  | case3 => cases h
  | case4 e rest d he _ ih =>
    obtain ⟨p, hp, rfl⟩ := Option.map_eq_some_iff.1 h
    obtain ⟨body, rfl, hstands⟩ := ih hp
    exact ⟨'\\' :: e :: body, rfl, .escape he hstands⟩
  | case5 e rest he _ ih =>
    obtain ⟨⟨content, size, behind⟩, hp, rfl⟩ := Option.map_eq_some_iff.1 h
    obtain ⟨body, hbody, hstands⟩ := ih hp
    obtain ⟨hplain, hslash⟩ := ne_of_unescape? hquote he
    refine ⟨'\\' :: body, by rw [hbody]; rfl, ?_⟩
    -- The character behind the backslash is read as itself.
    dsimp only at hstands hbody
    cases hstands with
    | nil => cases hbody; exact absurd rfl hplain
    | plain _ _ hstands => cases hbody; exact .kept he hstands
    | escape => cases hbody; exact absurd rfl hslash
    | kept => cases hbody; exact absurd rfl hslash
  | case6 c cs hplain hslash ih =>
    obtain ⟨p, hp, rfl⟩ := Option.map_eq_some_iff.1 h
    obtain ⟨body, rfl, hstands⟩ := ih hp
    exact ⟨c :: body, rfl, .plain hplain hslash hstands⟩

/-! ## Agreement -/

lemma quoted_eq_copied (hquote : IsQuote quote) (hopen : At source start (quote :: cs)) :
    quoted source quote.toUInt8 start = copied start (start + 1) "" (quotedText? quote cs) := by
  have hascii : quote.toNat < 128 := by rcases hquote with rfl | rfl <;> decide
  exact copyQuoted_eq hquote "" [] (hopen.next_ascii hascii)

/-- Copying a quoted text by segments gives what reading it character by character gives, so no
piece is ever out of range or cut within a character.  It succeeds at the first quote of the kind
that nothing escapes, with the text that stands between the quotes, and fails, at the opening quote,
if and only if there is no such quote. -/
theorem quoted_by_characters (hquote : IsQuote quote) (hopen : At source start (quote :: cs)) :
    quoted source quote.toUInt8 start = copied start (start + 1) "" (quotedText? quote cs) ∧
      (∀ content stop, quoted source quote.toUInt8 start = .ok (content, stop) ↔
        ∃ body rest, cs = body ++ quote :: rest ∧ StandsFor quote body content.toList ∧
          stop = start + (String.ofList (quote :: body ++ [quote])).utf8ByteSize) ∧
      (quoted source quote.toUInt8 start = .error (.fault (.unterminated start)) ↔
        ¬∃ body rest content, cs = body ++ quote :: rest ∧ StandsFor quote body content) := by
  have hquoted := quoted_eq_copied hquote hopen
  have hclosed : ∀ {body content : List Char} {rest : List Char},
      cs = body ++ quote :: rest → StandsFor quote body content →
      quoted source quote.toUInt8 start = .ok (String.ofList content,
        start + (String.ofList (quote :: body ++ [quote])).utf8ByteSize) := by
    rintro body content rest rfl hstands
    rw [hquoted, quotedText?_of_standsFor hquote hstands, copied, String.empty_append,
      List.cons_append, utf8ByteSize_ofList_cons, String.ofList_append, String.utf8ByteSize_append,
      utf8ByteSize_ofList_cons, hquote.utf8Size, Nat.add_assoc start]
    rfl
  refine ⟨hquoted, fun content stop => ⟨fun h => ?_, ?_⟩, fun h => ?_, fun h => ?_⟩
  · cases hread : quotedText? quote cs with
    | none =>
      rw [hquoted, hread] at h
      cases h
    | some q =>
      obtain ⟨body, hcs, hstands⟩ := exists_standsFor hquote hread
      cases (hclosed hcs hstands).symm.trans h
      exact ⟨body, q.rest, hcs, by rwa [String.toList_ofList], rfl⟩
  · rintro ⟨body, rest, hcs, hstands, rfl⟩
    rw [hclosed hcs hstands, String.ofList_toList]
  · rintro ⟨body, rest, content, hcs, hstands⟩
    cases (hclosed hcs hstands).symm.trans h
  · cases hread : quotedText? quote cs with
    | none => rw [hquoted, hread, copied]
    | some q =>
      obtain ⟨body, hcs, hstands⟩ := exists_standsFor hquote hread
      exact absurd ⟨body, q.rest, q.content, hcs, hstands⟩ h

/-- Behind `é==`, a quoted text with a quote of the other kind, a backslash kept in front of a
character of two bytes, and an escaped quote in front of the closing one. -/
theorem quoted_by_characters_accented :
    quoted ("é==" ++ String.ofList ('\'' :: (['"', 'ü', '\\', 'ü', '\\', 'n', '\\', '\''] ++
      '\'' :: [' ', 'x']))) '\''.toUInt8 4 =
      .ok (String.ofList ['"', 'ü', '\\', 'ü', '\n', '\''], 16) := by
  have hquote : IsQuote '\'' := .inl rfl
  have hstands : StandsFor '\'' ['"', 'ü', '\\', 'ü', '\\', 'n', '\\', '\'']
      ['"', 'ü', '\\', 'ü', '\n', '\''] :=
    .plain (by decide) (by decide) <| .plain (by decide) (by decide) <| .kept rfl <|
      .escape rfl <| .escape rfl .nil
  have hopen : At ("é==" ++ String.ofList ('\'' :: (['"', 'ü', '\\', 'ü', '\\', 'n', '\\', '\''] ++
      '\'' :: [' ', 'x']))) 4 _ := ⟨"é==", rfl, by decide⟩
  exact ((quoted_by_characters hquote hopen).2.1 _ _).2
    ⟨_, _, rfl, by rwa [String.toList_ofList], by decide⟩

end

end Scan

end FormValidation.Condition
