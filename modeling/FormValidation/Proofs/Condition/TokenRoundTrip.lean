import FormValidation.Condition.Reader
import FormValidation.Proofs.Condition.Spelling
import FormValidation.Proofs.Condition.WellFormed

/-!
# Tokens and their spellings

Most tokens can be spelled in several ways: a keyword as one of two words or as a sign, a text
between either kind of quotes.  `Spelled t s` says that `s` is a spelling of `t`.  A text that is
put together from spellings, with white space between them, is read as the tokens that were spelled,
each at the offset at which its spelling begins (`tokens_round_trip`).

A spelling alone does not determine its token.  A word, a number and `<` may go on in what comes
behind, so each spelling is read in front of white space or of the end (`EndsToken`): that is
`Spelled.reads`, with one case for each kind of spelling.  The texts of white space and spellings
are then read by induction on their pieces, from any offset (`tokensFrom_written`).
-/

namespace FormValidation.Condition

/-! ## Spellings -/

/-- The keywords. -/
def keywordTokens : List (String × Token) :=
  [("and", .and), ("or", .or), ("not", .not), ("in", .isIn), ("is", .same), ("True", .true),
    ("true", .true), ("False", .false), ("false", .false), ("None", .none), ("null", .none)]

/-- The operators, and the signs for keywords. -/
def operatorTokens : List (String × Token) :=
  [("==", .eq), ("!=", .notEq), ("<", .lt), ("<=", .le), (">", .gt), (">=", .ge), ("&&", .and),
    ("||", .or), ("!", .not)]

/-- The characters that are tokens by themselves. -/
def markTokens : List (Char × Token) :=
  [('+', .plus), ('-', .minus), ('*', .star), ('/', .slash), ('%', .percent), ('(', .openParen),
    (')', .closeParen), ('[', .openBracket), (']', .closeBracket), (',', .comma), ('.', .dot)]

/-- One or more digits. -/
def IsDigits (s : String) : Prop := s ≠ "" ∧ ∀ c ∈ s.toList, c.isDigit = true

/-- The spellings of a token. -/
inductive Spelled : Token → String → Prop
  | name {x : String} (h : IsName x) : Spelled (.ident x) x
  | int {digits : String} (h : IsDigits digits) : Spelled (.int digits) digits
  | decimal {whole fraction : String} (h : IsDigits whole) (h' : IsDigits fraction) :
      Spelled (.float (whole ++ "." ++ fraction)) (whole ++ "." ++ fraction)
  | text {quote : Char} (h : IsQuote quote) (s : String) : Spelled (.text s) (quotedIn quote s)
  | keyword {word : String} {t : Token} (h : (word, t) ∈ keywordTokens) : Spelled t word
  | operator {sign : String} {t : Token} (h : (sign, t) ∈ operatorTokens) : Spelled t sign
  | mark {c : Char} {t : Token} (h : (c, t) ∈ markTokens) : Spelled t (String.singleton c)

/-! ## Where tokens end -/

/-- Nothing or white space is behind. -/
def EndsToken (cs : List Char) : Prop := ∀ c ∈ cs.head?, isSpace c = true

lemma isWordPart_of_isSpace {c : Char} (h : isSpace c = true) : isWordPart c = false := by
  by_contra hpart
  rw [Bool.not_eq_false] at hpart
  rw [isSpace_of_isWordPart hpart] at h
  cases h

lemma EndsToken.endsWord {cs : List Char} (h : EndsToken cs) : EndsWord cs :=
  fun c hc => isWordPart_of_isSpace (h c hc)

lemma EndsToken.endsNumber {cs : List Char} (h : EndsToken cs) : EndsNumber cs := by
  intro c hc
  have hpart := isWordPart_of_isSpace (h c hc)
  simp only [isWordPart, Char.isAlphanum, Bool.or_eq_false_iff] at hpart
  exact ⟨hpart.1.2, ne_of_holds (h c hc) rfl⟩

/-! ## Every spelling is read as its token -/

lemma reads_name {x : String} (h : IsName x) : ReadsBefore EndsWord x (.ident x) := by
  obtain ⟨⟨c, cs, rfl, hstart, hpart⟩, hfree⟩ := h
  have hword := reads_word hstart hpart
  rwa [ofWord_eq_ident_iff.2 ⟨rfl, hfree⟩] at hword

lemma IsDigits.exists_cons {s : String} (h : IsDigits s) :
    ∃ c cs, s = String.ofList (c :: cs) ∧ ∀ d ∈ c :: cs, d.isDigit = true := by
  obtain ⟨hne, hdigits⟩ := h
  cases hs : s.toList with
  | nil => exact absurd (String.toList_eq_nil_iff.1 hs) hne
  | cons c cs =>
      rw [hs] at hdigits
      exact ⟨c, cs, by rw [← hs, String.ofList_toList], hdigits⟩

lemma reads_int {digits : String} (h : IsDigits digits) :
    ReadsBefore EndsNumber digits (.int digits) := by
  obtain ⟨c, cs, rfl, hdigits⟩ := h.exists_cons
  exact reads_digits hdigits

lemma reads_float {whole fraction : String} (h : IsDigits whole) (h' : IsDigits fraction) :
    ReadsBefore EndsNumber (whole ++ "." ++ fraction) (.float (whole ++ "." ++ fraction)) := by
  obtain ⟨c, cs, rfl, hwhole⟩ := h.exists_cons
  obtain ⟨d, ds, rfl, hfraction⟩ := h'.exists_cons
  have htext : String.ofList (c :: cs) ++ "." ++ String.ofList (d :: ds) =
      String.ofList (c :: cs ++ '.' :: d :: ds) := by
    rw [← String.toList_inj]
    simp
  rw [htext]
  exact reads_decimal hwhole hfraction

lemma reads_keyword {word : String} {t : Token} (h : (word, t) ∈ keywordTokens) :
    ReadsBefore EndsWord word t := by
  have hwords : ∀ e ∈ keywordTokens, Token.ofWord e.1 = e.2 ∧ e.1.toList.all isWordPart = true ∧
      e.1.toList.head?.any isWordStart = true := by decide
  obtain ⟨htoken, hpart, hstart⟩ := hwords (word, t) h
  cases hs : word.toList with
  | nil =>
      rw [hs] at hstart
      cases hstart
  | cons c cs =>
      rw [hs] at hpart hstart
      have hparts : ∀ d ∈ cs, isWordPart d = true :=
        fun d hd => List.all_eq_true.1 hpart d (List.mem_cons_of_mem c hd)
      have hword : ReadsBefore EndsWord _ _ := reads_word hstart hparts
      rwa [← hs, String.ofList_toList, htoken] at hword

lemma reads_mark {c : Char} {t : Token} (h : (c, t) ∈ markTokens) :
    ReadsBefore (fun _ => True) (String.singleton c) t := by
  have hmarks : ∀ e ∈ markTokens, Lexeme.mark? e.1 = some e.2 ∧ isSpace e.1 = false ∧
      e.1.utf8Size = 1 := by decide
  obtain ⟨hmark, hspace, hsize⟩ := hmarks (c, t) h
  refine ⟨c, [], String.toList_singleton c, hspace, fun position rest _ => ?_⟩
  rw [Lexeme.read, hmark, String.utf8ByteSize_singleton, hsize]
  rfl

/-- A sign that an equals sign would make longer. -/
lemma reads_alone {m : String} {c : Char} {t t' : Token} (hm : m.toList = [c])
    (hspace : isSpace c = false) (hsize : m.utf8ByteSize = 1)
    (hread : ∀ position cs, Lexeme.read position c cs = .ok (Lexeme.either t' t cs)) :
    ReadsBefore EndsToken m t := by
  refine ⟨c, [], hm, hspace, fun position rest hrest => ?_⟩
  rw [List.nil_append, hread, hsize]
  cases rest with
  | nil => rfl
  | cons d more =>
      have hequals : d ≠ '=' := ne_of_holds (hrest d rfl) rfl
      rw [Lexeme.either, if_neg hequals]

/-- A sign of two characters. -/
lemma reads_pair {m : String} {c d : Char} {t : Token} (hm : m.toList = [c, d])
    (hspace : isSpace c = false)
    (hread : ∀ position rest,
      Lexeme.read position c (d :: rest) = .ok ⟨t, m.utf8ByteSize, rest⟩) :
    ReadsBefore EndsToken m t :=
  ⟨c, [d], hm, hspace, fun position rest _ => hread position rest⟩

lemma reads_operator : ∀ e ∈ operatorTokens, ReadsBefore EndsToken e.1 e.2 := by
  simp only [operatorTokens, List.forall_mem_cons]
  refine ⟨?eq, ?notEq, ?lt, ?le, ?gt, ?ge, ?and, ?or, ?not, fun _ h => nomatch h⟩
  case lt => exact reads_alone rfl rfl rfl fun _ _ => rfl
  case gt => exact reads_alone rfl rfl rfl fun _ _ => rfl
  case not => exact reads_alone rfl rfl rfl fun _ _ => rfl
  all_goals exact reads_pair rfl rfl fun _ _ => rfl

/-- **Every spelling** is read as its token in front of white space and of the end. -/
lemma Spelled.reads {t : Token} {s : String} (h : Spelled t s) : ReadsBefore EndsToken s t := by
  cases h with
  | name h => exact (reads_name h).mono fun _ => EndsToken.endsWord
  | int h => exact (reads_int h).mono fun _ => EndsToken.endsNumber
  | decimal h h' => exact (reads_float h h').mono fun _ => EndsToken.endsNumber
  | text h content => exact (reads_quotedIn h content).mono fun _ _ => trivial
  | keyword h => exact (reads_keyword h).mono fun _ => EndsToken.endsWord
  | operator h => exact reads_operator (s, t) h
  | mark h => exact (reads_mark h).mono fun _ _ => trivial

/-! ## Texts of spellings and white space -/

/-- A text of white space. -/
def IsWhite (s : String) : Prop := ∀ c ∈ s.toList, c = ' ' ∨ c = '\t' ∨ c = '\n' ∨ c = '\r'

/-- A token, one of its spellings, and the white space behind. -/
structure Piece where
  token : Token
  spelling : String
  space : String
  spelled : Spelled token spelling
  white : IsWhite space

/-- The text of pieces one behind the other. -/
def written : List Piece → String
  | [] => ""
  | p :: pieces => p.spelling ++ p.space ++ written pieces

/-- There is white space between any two pieces. -/
def Separated (pieces : List Piece) : Prop := ∀ p ∈ pieces.dropLast, p.space ≠ ""

/-- The tokens of pieces, whose text begins at `position`, with the offsets of their spellings. -/
def placedFrom (position : Nat) : List Piece → List Placed
  | [] => []
  | p :: pieces =>
    ⟨p.token, position⟩ :: placedFrom (position + (p.spelling ++ p.space).utf8ByteSize) pieces

lemma isSpace_iff {c : Char} :
    isSpace c = true ↔ c = ' ' ∨ c = '\t' ∨ c = '\n' ∨ c = '\r' := by
  simp [isSpace, or_assoc]

lemma utf8Size_of_isSpace {c : Char} (h : isSpace c = true) : c.utf8Size = 1 := by
  rcases isSpace_iff.1 h with rfl | rfl | rfl | rfl <;> rfl

/-- White space is passed over. -/
lemma tokensFrom_white {s : String} (h : IsWhite s) (position : Nat) (rest : List Char) :
    tokensFrom position (s.toList ++ rest) = tokensFrom (position + s.utf8ByteSize) rest := by
  have hspaces : ∀ cs : List Char, (∀ c ∈ cs, isSpace c = true) → ∀ position,
      tokensFrom position (cs ++ rest) = tokensFrom (position + cs.length) rest := by
    intro cs hcs
    induction cs with
    | nil => exact fun _ => rfl
    | cons c cs ih =>
        obtain ⟨hc, hcs⟩ := List.forall_mem_cons.1 hcs
        intro position
        rw [List.cons_append, tokensFrom, if_pos hc, ih hcs, List.length_cons, Nat.add_assoc,
          Nat.add_comm 1]
  have hs : ∀ c ∈ s.toList, isSpace c = true := fun c hc => isSpace_iff.2 (h c hc)
  have hsize : s.utf8ByteSize = s.toList.length := by
    rw [← utf8ByteSize_eq_length fun c hc => utf8Size_of_isSpace (hs c hc), String.ofList_toList]
  rw [hspaces s.toList hs, hsize]

lemma Separated.tail {p : Piece} {pieces : List Piece} (h : Separated (p :: pieces)) :
    Separated pieces := by
  cases pieces with
  | nil => exact fun _ hq => nomatch hq
  | cons q pieces => exact fun r hr => h r (List.mem_cons_of_mem p hr)

/-- Behind a spelling is white space, or nothing. -/
lemma Separated.endsToken {p : Piece} {pieces : List Piece} (h : Separated (p :: pieces)) :
    EndsToken (p.space ++ written pieces).toList := by
  intro c hc
  rw [String.toList_append] at hc
  cases hspace : p.space.toList with
  | nil =>
      -- No white space is only behind the last piece.
      have hempty : p.space = "" := String.toList_eq_nil_iff.1 hspace
      rw [hspace] at hc
      cases pieces with
      | nil => cases hc
      | cons q pieces => exact absurd hempty (h p List.mem_cons_self)
  | cons d ds =>
      rw [hspace] at hc
      cases hc
      exact isSpace_iff.2 (p.white c (by rw [hspace]; exact List.mem_cons_self))

/-- **Pieces are read as their tokens**, from any offset. -/
lemma tokensFrom_written {pieces : List Piece} (h : Separated pieces) (position : Nat) :
    tokensFrom position (written pieces).toList = .ok (placedFrom position pieces) := by
  induction pieces generalizing position with
  | nil =>
      show tokensFrom position [] = .ok []
      rw [tokensFrom]
  | cons p pieces ih =>
      rw [written, String.append_assoc, String.toList_append,
        p.spelled.reads.tokensFrom_eq position h.endsToken, String.toList_append,
        tokensFrom_white p.white, ih h.tail, Nat.add_assoc, ← String.utf8ByteSize_append]
      rfl

lemma map_token_placedFrom (position : Nat) (pieces : List Piece) :
    (placedFrom position pieces).map (·.token) = pieces.map (·.token) := by
  induction pieces generalizing position with
  | nil => rfl
  | cons p pieces ih => exact congrArg (p.token :: ·) (ih _)

/-- A token is placed behind the text of the pieces in front of it. -/
lemma getElem?_placedFrom (position : Nat) (front : List Piece) (p : Piece) (back : List Piece) :
    (placedFrom position (front ++ p :: back))[front.length]? =
      some ⟨p.token, position + (written front).utf8ByteSize⟩ := by
  induction front generalizing position with
  | nil => rfl
  | cons q front ih =>
      rw [written, String.utf8ByteSize_append, ← Nat.add_assoc]
      exact ih _

/-- **Token round trip**: a text of spellings, with white space between any two of them and with any
white space around them, is read as the tokens that they spell, each at the offset in bytes at which
its spelling begins.  Behind the last of them the condition has its end, which is at the end of the
text. -/
theorem tokens_round_trip (lead : String) (pieces : List Piece) (hlead : IsWhite lead)
    (hne : pieces ≠ []) (hgaps : Separated pieces) :
    ∃ placed, tokens (lead ++ written pieces).toList = .ok placed ∧
      placed.map (·.token) = pieces.map (·.token) ∧
      (∀ front p back, pieces = front ++ p :: back →
        placed[front.length]? = some ⟨p.token, (lead ++ written front).utf8ByteSize⟩) ∧
      ((lead ++ written pieces).utf8ByteSize ≤ maxConditionBytes →
        parse (lead ++ written pieces) =
          ofTokens (lead ++ written pieces).utf8ByteSize placed) := by
  have hread : tokensFrom 0 (lead ++ written pieces).toList =
      .ok (placedFrom lead.utf8ByteSize pieces) := by
    rw [String.toList_append, tokensFrom_white hlead, tokensFrom_written hgaps, Nat.zero_add]
  have htokens : tokens (lead ++ written pieces).toList =
      .ok (placedFrom lead.utf8ByteSize pieces) := by
    rw [tokens, hread]
    cases pieces with
    | nil => exact absurd rfl hne
    | cons p pieces => rfl
  refine ⟨placedFrom lead.utf8ByteSize pieces, htokens, map_token_placedFrom _ pieces, ?_, ?_⟩
  · rintro front p back rfl
    rw [String.utf8ByteSize_append]
    exact getElem?_placedFrom _ front p back
  · intro hsize
    rw [parse, if_neg (Nat.not_lt.2 hsize), htokens]
    rfl

theorem tokens_round_trip_comparison :
    ∃ placed, tokens "\tx <=\n'é\\'s' \r1.5".toList = .ok placed ∧
      placed.map (·.token) = [.ident "x", .le, .text "é's", .float "1.5"] ∧
      placed[3]? = some ⟨.float "1.5", 15⟩ := by
  have hname : IsName "x" := ⟨⟨'x', [], rfl, rfl, fun _ h => nomatch h⟩, by decide⟩
  have hnumber : Spelled (.float "1.5") "1.5" :=
    @Spelled.decimal "1" "5" ⟨by decide, List.forall_mem_singleton.2 rfl⟩
      ⟨by decide, List.forall_mem_singleton.2 rfl⟩
  obtain ⟨placed, htokens, hmap, hplace, -⟩ := tokens_round_trip "\t"
    [⟨.ident "x", "x", " ", .name hname, by simp [IsWhite]⟩,
      ⟨.le, "<=", "\n", .operator (by decide), by simp [IsWhite]⟩,
      ⟨.text "é's", quotedIn '\'' "é's", " \r", .text (.inl rfl) "é's", by simp [IsWhite]⟩,
      ⟨.float "1.5", "1.5", "", hnumber, by simp [IsWhite]⟩]
    (by simp [IsWhite]) (by simp) (by simp [Separated])
  exact ⟨placed, htokens, hmap, hplace [_, _, _] _ [] rfl⟩

end FormValidation.Condition
