import FormValidation.Condition.Lexer
import Mathlib.Tactic.Common

/-!
# How tokens are spelled

A text is put together from pieces, and its tokens should be those of the pieces.  Whether they are
depends on what comes behind a piece: a word must not go on there, a number must not go on nor have
a point behind it, and an operator may be made longer by an equals sign.  `ReadsBefore p` says that
a text is read as one token if what comes behind it satisfies `p`, and `SpellsBefore p` that it is
read as some tokens; one lemma puts texts of the second kind one behind the other
(`SpellsBefore.append`).

Most texts only must not have a word going on behind them, which is `Spells`: words
(`reads_word`), quoted texts, whatever is in them (`reads_quotedIn`), and all that ends with a mark.
-/

namespace FormValidation.Condition

/-! ## Texts and their tokens -/

/-- A text is read as some tokens, whenever a condition holds of what comes behind it. -/
def SpellsBefore (p : List Char → Prop) (s : String) (ts : List Token) : Prop :=
  ∀ position rest, p rest → ∃ placed : List Placed, placed.map (·.token) = ts ∧
    tokensFrom position (s.toList ++ rest) =
      (tokensFrom (position + s.utf8ByteSize) rest).map (placed ++ ·)

section

variable {p q : List Char → Prop} {s s' : String} {ts ts' : List Token}

lemma SpellsBefore.mono (h : SpellsBefore p s ts) (hpq : ∀ rest, q rest → p rest) :
    SpellsBefore q s ts :=
  fun position rest hrest => h position rest (hpq rest hrest)

/-- **Texts one behind the other** are read one after the other. -/
lemma SpellsBefore.append (h : SpellsBefore p s ts) (h' : SpellsBefore q s' ts')
    (hbehind : ∀ rest, q rest → p (s'.toList ++ rest)) : SpellsBefore q (s ++ s') (ts ++ ts') := by
  intro position rest hrest
  obtain ⟨placed, hplaced, hread⟩ := h position (s'.toList ++ rest) (hbehind rest hrest)
  obtain ⟨placed', hplaced', hread'⟩ := h' (position + s.utf8ByteSize) rest hrest
  refine ⟨placed ++ placed', by rw [List.map_append, hplaced, hplaced'], ?_⟩
  rw [String.toList_append, List.append_assoc, hread, hread', String.utf8ByteSize_append,
    Nat.add_assoc]
  cases tokensFrom (position + (s.utf8ByteSize + s'.utf8ByteSize)) rest with
  | error fault => rfl
  | ok more => exact congrArg Except.ok (List.append_assoc placed placed' more).symm

lemma SpellsBefore.nil : SpellsBefore p "" [] := by
  intro position rest hrest
  refine ⟨[], rfl, ?_⟩
  show tokensFrom position rest = (tokensFrom position rest).map _
  cases tokensFrom position rest <;> rfl

/-- A blank spells nothing, whatever comes behind it. -/
lemma SpellsBefore.blank : SpellsBefore (fun _ => True) " " [] := by
  intro position rest hrest
  refine ⟨[], rfl, ?_⟩
  have hskip : tokensFrom position (' ' :: rest) = tokensFrom (position + 1) rest := by
    rw [tokensFrom]
    rfl
  show tokensFrom position (' ' :: rest) = (tokensFrom (position + 1) rest).map _
  rw [hskip]
  cases tokensFrom (position + 1) rest <;> rfl

lemma tokensFrom_of_read {position : Nat} {c : Char} {cs : List Char} {l : Lexeme}
    (hspace : isSpace c = false) (h : Lexeme.read position c cs = .ok l) :
    tokensFrom position (c :: cs) =
      (tokensFrom (position + l.size) l.rest).map (⟨l.token, position⟩ :: ·) := by
  rw [tokensFrom, if_neg (by simp [hspace])]
  split
  · rename_i fault herror
    rw [h] at herror
    cases herror
  · rename_i l' hok
    rw [h] at hok
    cases hok
    cases tokensFrom (position + l.size) l.rest <;> rfl

/-- A text is read as one token, whenever a condition holds of what comes behind it. -/
def ReadsBefore (p : List Char → Prop) (s : String) (t : Token) : Prop :=
  ∃ c cs, s.toList = c :: cs ∧ isSpace c = false ∧ ∀ position rest, p rest →
    Lexeme.read position c (cs ++ rest) = .ok ⟨t, s.utf8ByteSize, rest⟩

lemma ReadsBefore.mono {t : Token} (h : ReadsBefore p s t) (hpq : ∀ rest, q rest → p rest) :
    ReadsBefore q s t := by
  obtain ⟨c, cs, hs, hspace, hread⟩ := h
  exact ⟨c, cs, hs, hspace, fun position rest hrest => hread position rest (hpq rest hrest)⟩

/-- **A token that is read** stands where its text begins. -/
lemma ReadsBefore.tokensFrom_eq {t : Token} (h : ReadsBefore p s t) (position : Nat)
    {rest : List Char} (hrest : p rest) :
    tokensFrom position (s.toList ++ rest) =
      (tokensFrom (position + s.utf8ByteSize) rest).map (⟨t, position⟩ :: ·) := by
  obtain ⟨c, cs, hs, hspace, hread⟩ := h
  rw [hs, List.cons_append, tokensFrom_of_read hspace (hread position rest hrest)]

lemma SpellsBefore.of_reads {t : Token} (h : ReadsBefore p s t) : SpellsBefore p s [t] :=
  fun position _ hrest => ⟨[⟨t, position⟩], rfl, h.tokensFrom_eq position hrest⟩

/-- What is spelled with nothing behind it is read as a whole. -/
lemma SpellsBefore.tokens_eq (h : SpellsBefore p s ts) (hend : p []) (hne : ts ≠ []) :
    ∃ placed : List Placed, placed.map (·.token) = ts ∧ tokens s.toList = .ok placed := by
  obtain ⟨placed, hplaced, hread⟩ := h 0 [] hend
  refine ⟨placed, hplaced, ?_⟩
  rw [List.append_nil, tokensFrom] at hread
  rw [tokens, hread]
  cases placed with
  | nil => exact absurd hplaced.symm hne
  | cons t placed => exact congrArg Except.ok (List.append_nil (t :: placed))

end

/-! ## Where words end -/

/-- A text does not continue a word in front of it. -/
def EndsWord (cs : List Char) : Prop := ∀ c ∈ cs.head?, isWordPart c = false

/-- A text is read as some tokens, whatever comes behind it that does not continue a word. -/
def Spells (s : String) (ts : List Token) : Prop := SpellsBefore EndsWord s ts

lemma spells_nil : Spells "" [] := SpellsBefore.nil

lemma endsWord_nil : EndsWord [] := by
  intro c hc
  cases hc

lemma Spells.append {s s' : String} {ts ts' : List Token} (h : Spells s ts) (h' : Spells s' ts')
    (hword : EndsWord s'.toList) : Spells (s ++ s') (ts ++ ts') := by
  refine SpellsBefore.append h h' fun rest hrest => ?_
  cases hs : s'.toList with
  | nil => exact hrest
  | cons c cs =>
      rw [hs] at hword
      exact hword

lemma endsWord_cons {c : Char} (hc : isWordPart c = false) (cs : List Char) :
    EndsWord (c :: cs) := by
  rintro _ ⟨⟩
  exact hc

/-- A text ends a word if a character that is in no word begins it. -/
lemma endsWord_append {s m : String} {c : Char} {cs : List Char} (hm : m.toList = c :: cs)
    (hc : isWordPart c = false) : EndsWord (m ++ s).toList := by
  rw [String.toList_append, hm]
  exact endsWord_cons hc (cs ++ s.toList)

/-- A mark is read as its token, whatever comes behind it. -/
lemma Spells.behindMark {s m : String} {c : Char} {cs : List Char} {t : Token} {ts : List Token}
    (h : Spells s ts) (hmark : m.toList = c :: cs) (hspace : isSpace c = false)
    (hread : ∀ position rest,
      Lexeme.read position c (cs ++ rest) = .ok ⟨t, m.utf8ByteSize, rest⟩) :
    Spells (m ++ s) (t :: ts) :=
  SpellsBefore.append (p := fun _ => True)
    (.of_reads ⟨c, cs, hmark, hspace, fun position rest _ => hread position rest⟩) h
    fun _ _ => trivial

lemma spells_closeParen : Spells ")" [.closeParen] :=
  spells_nil.behindMark (m := ")") rfl rfl fun _ _ => rfl

lemma spells_closeBracket : Spells "]" [.closeBracket] :=
  spells_nil.behindMark (m := "]") rfl rfl fun _ _ => rfl

/-- Between parentheses a text is read if it is in front of a closing one. -/
lemma SpellsBefore.inParens {p : List Char → Prop} {s : String} {ts : List Token}
    (h : SpellsBefore p s ts) (hclose : ∀ rest, p (')' :: rest)) :
    Spells ("(" ++ (s ++ ")")) (.openParen :: (ts ++ [.closeParen])) :=
  Spells.behindMark (m := "(") (h.append spells_closeParen fun rest _ => hclose rest) rfl rfl
    fun _ _ => rfl

lemma SpellsBefore.inBrackets {p : List Char → Prop} {s : String} {ts : List Token}
    (h : SpellsBefore p s ts) (hclose : ∀ rest, p (']' :: rest)) :
    Spells ("[" ++ (s ++ "]")) (.openBracket :: (ts ++ [.closeBracket])) :=
  Spells.behindMark (m := "[") (h.append spells_closeBracket fun rest _ => hclose rest) rfl rfl
    fun _ _ => rfl

lemma tokens_of_spells {s : String} {ts : List Token} (h : Spells s ts) (hne : ts ≠ []) :
    ∃ placed : List Placed, placed.map (·.token) = ts ∧ tokens s.toList = .ok placed :=
  SpellsBefore.tokens_eq h endsWord_nil hne

/-- A blank is behind. -/
def BeginsBlank (cs : List Char) : Prop := ∃ more, cs = ' ' :: more

/-- An operator that is read as its token in front of a blank. -/
lemma spells_operator {m : String} {c : Char} {cs : List Char} {t : Token} (hm : m.toList = c :: cs)
    (hspace : isSpace c = false)
    (hread : ∀ position rest,
      Lexeme.read position c (cs ++ ' ' :: rest) = .ok ⟨t, m.utf8ByteSize, ' ' :: rest⟩) :
    SpellsBefore BeginsBlank m [t] := by
  refine .of_reads ⟨c, cs, hm, hspace, fun position rest hrest => ?_⟩
  obtain ⟨more, rfl⟩ := hrest
  exact hread position more

/-- Behind an operator and a blank anything may be. -/
lemma SpellsBefore.operator {p : List Char → Prop} {m s : String} {ts ts' : List Token}
    (h : SpellsBefore BeginsBlank m ts) (h' : SpellsBefore p s ts') :
    SpellsBefore p (m ++ (" " ++ s)) (ts ++ ts') := by
  refine h.append (SpellsBefore.blank.append h' fun _ _ => trivial) fun rest _ =>
    ⟨s.toList ++ rest, ?_⟩
  rw [String.toList_append]
  rfl

/-- An operator between blanks. -/
lemma Spells.infixed {s m s' : String} {ts ts' ts'' : List Token} (h : Spells s ts)
    (hm : SpellsBefore BeginsBlank m ts') (h' : Spells s' ts'') :
    Spells (s ++ (" " ++ (m ++ (" " ++ s')))) (ts ++ (ts' ++ ts'')) := by
  have hblank : Spells (" " ++ (m ++ (" " ++ s'))) (ts' ++ ts'') :=
    SpellsBefore.blank.append (hm.operator h') fun _ _ => trivial
  exact h.append hblank (endsWord_append rfl rfl)

/-! ## Words -/

lemma toNat_of_isWordStart {c : Char} (h : isWordStart c = true) :
    57 < c.toNat ∧ c.toNat ≤ 122 := by
  have hkind : (c.isUpper = true ∨ c.isLower = true) ∨ c = '_' := by
    rw [isWordStart, Bool.or_eq_true, beq_iff_eq] at h
    exact h.imp_left Bool.or_eq_true_iff.1
  rcases hkind with (hupper | hlower) | rfl
  · obtain ⟨hge, hle⟩ : 'A'.val ≤ c.val ∧ c.val ≤ 'Z'.val := of_decide_eq_true hupper
    rw [UInt32.le_iff_toNat_le] at hge hle
    exact ⟨Nat.lt_of_lt_of_le (by decide) hge, Nat.le_trans hle (by decide)⟩
  · obtain ⟨hge, hle⟩ := Bool.and_eq_true_iff.1 hlower
    have hge := UInt32.le_iff_toNat_le.1 (of_decide_eq_true hge)
    have hle := UInt32.le_iff_toNat_le.1 (of_decide_eq_true hle)
    exact ⟨Nat.lt_of_lt_of_le (by decide) hge, hle⟩
  · decide

lemma isDigit_of_isWordStart {c : Char} (h : isWordStart c = true) : c.isDigit = false := by
  rw [← Bool.not_eq_true, Char.isDigit_iff_toNat]
  intro hdigit
  exact absurd hdigit.2 (Nat.not_le.2 (toNat_of_isWordStart h).1)

lemma utf8Size_of_isDigit {c : Char} (h : c.isDigit = true) : c.utf8Size = 1 := by
  rw [Char.utf8Size_eq_one_iff, UInt32.le_iff_toNat_le]
  exact Nat.le_trans (Char.isDigit_iff_toNat.1 h).2 (by decide)

lemma utf8Size_of_isWordPart {c : Char} (h : isWordPart c = true) : c.utf8Size = 1 := by
  have hkind : isWordStart c = true ∨ c.isDigit = true := by
    simp only [isWordPart, isWordStart, Char.isAlphanum, Bool.or_eq_true] at h ⊢
    tauto
  rcases hkind with hstart | hdigit
  · rw [Char.utf8Size_eq_one_iff, UInt32.le_iff_toNat_le]
    exact Nat.le_trans (toNat_of_isWordStart hstart).2 (by decide)
  · exact utf8Size_of_isDigit hdigit

lemma utf8ByteSize_ofList_cons (c : Char) (cs : List Char) :
    (String.ofList (c :: cs)).utf8ByteSize = c.utf8Size + (String.ofList cs).utf8ByteSize := by
  rw [String.ofList_cons, String.utf8ByteSize_append, String.utf8ByteSize_singleton]

/-- A text of characters of one byte is as long in bytes as in characters. -/
lemma utf8ByteSize_eq_length {cs : List Char} (h : ∀ c ∈ cs, c.utf8Size = 1) :
    (String.ofList cs).utf8ByteSize = cs.length := by
  induction cs with
  | nil => rfl
  | cons c cs ih =>
      obtain ⟨hc, hcs⟩ := List.forall_mem_cons.1 h
      rw [utf8ByteSize_ofList_cons, hc, ih hcs, List.length_cons, Nat.add_comm]

lemma ne_of_holds {p : Char → Bool} {c k : Char} (h : p c = true) (hk : p k = false) : c ≠ k := by
  rintro rfl
  rw [h] at hk
  cases hk

lemma isSpace_of_isWordPart {c : Char} (h : isWordPart c = true) : isSpace c = false := by
  have hne : ∀ k, isWordPart k = false → c ≠ k := fun _ => ne_of_holds h
  simp [isSpace, hne ' ' rfl, hne '\t' rfl, hne '\n' rfl, hne '\r' rfl]

/-- What begins a word or a number begins nothing else. -/
lemma read_of_isWordPart {c : Char} (h : isWordPart c = true) (position : Nat) (cs : List Char) :
    Lexeme.read position c cs =
      if c.isDigit then .ok (Lexeme.number (c :: cs))
      else if isWordStart c then .ok (Lexeme.word (c :: cs))
      else .error (.unexpected (String.singleton c) position .token) := by
  have hne : ∀ k, isWordPart k = false → c ≠ k := fun _ => ne_of_holds h
  have hmark : Lexeme.mark? c = none := by
    rw [Lexeme.mark?] <;> exact hne _ rfl
  rw [Lexeme.read, hmark]
  simp [hne '=' rfl, hne '&' rfl, hne '|' rfl, hne '!' rfl, hne '<' rfl, hne '>' rfl, hne '\'' rfl,
    hne '"' rfl]

/-- What a predicate holds of, and something else behind it. -/
lemma takeWhile_dropWhile_append {p : Char → Bool} {cs rest : List Char}
    (hcs : ∀ c ∈ cs, p c = true) (hrest : ∀ c ∈ rest.head?, p c = false) :
    (cs ++ rest).takeWhile p = cs ∧ (cs ++ rest).dropWhile p = rest := by
  rw [List.takeWhile_append_of_pos hcs, List.dropWhile_append_of_pos hcs]
  cases rest with
  | nil => exact ⟨List.append_nil cs, rfl⟩
  | cons c rest =>
      have hc : ¬ p c = true := by simp [hrest c rfl]
      rw [List.takeWhile_cons_of_neg hc, List.dropWhile_cons_of_neg hc, List.append_nil]
      exact ⟨rfl, rfl⟩

/-- **A word** is read as its token. -/
lemma reads_word {c : Char} {cs : List Char} (hstart : isWordStart c = true)
    (hpart : ∀ d ∈ cs, isWordPart d = true) :
    ReadsBefore EndsWord (String.ofList (c :: cs)) (Token.ofWord (String.ofList (c :: cs))) := by
  have hword : ∀ d ∈ c :: cs, isWordPart d = true :=
    List.forall_mem_cons.2 ⟨Lexeme.isWordPart_of_isWordStart hstart, hpart⟩
  have hfirst := hword c List.mem_cons_self
  refine ⟨c, cs, String.toList_ofList, isSpace_of_isWordPart hfirst, fun position rest hrest => ?_⟩
  obtain ⟨htake, hdrop⟩ := takeWhile_dropWhile_append hword hrest
  rw [read_of_isWordPart hfirst, if_neg (by simp [isDigit_of_isWordStart hstart]), if_pos hstart,
    ← List.cons_append, Lexeme.word, htake, hdrop,
    utf8ByteSize_eq_length fun d hd => utf8Size_of_isWordPart (hword d hd)]

lemma spells_word {c : Char} {cs : List Char} (hstart : isWordStart c = true)
    (hpart : ∀ d ∈ cs, isWordPart d = true) :
    Spells (String.ofList (c :: cs)) [Token.ofWord (String.ofList (c :: cs))] :=
  .of_reads (reads_word hstart hpart)

/-! ## Numbers -/

/-- What does not continue a number in front of it. -/
def EndsNumber (cs : List Char) : Prop := ∀ c ∈ cs.head?, c.isDigit = false ∧ c ≠ '.'

/-- **Digits** are read as an integer. -/
lemma reads_digits {c : Char} {cs : List Char} (h : ∀ d ∈ c :: cs, d.isDigit = true) :
    ReadsBefore EndsNumber (String.ofList (c :: cs)) (.int (String.ofList (c :: cs))) := by
  have hdigit : c.isDigit = true := h c List.mem_cons_self
  have hfirst : isWordPart c = true := by simp [isWordPart, Char.isAlphanum, hdigit]
  refine ⟨c, cs, String.toList_ofList, isSpace_of_isWordPart hfirst, fun position rest hrest => ?_⟩
  obtain ⟨htake, hdrop⟩ := takeWhile_dropWhile_append h fun d hd => (hrest d hd).1
  rw [read_of_isWordPart hfirst, if_pos hdigit, ← List.cons_append, Lexeme.number, htake, hdrop,
    utf8ByteSize_eq_length fun d hd => utf8Size_of_isDigit (h d hd)]
  -- No point is behind the digits.
  split
  · rename_i d tail
    exact absurd rfl (hrest '.' rfl).2
  · rfl

lemma spells_digits {c : Char} {cs : List Char} (h : ∀ d ∈ c :: cs, d.isDigit = true) :
    SpellsBefore EndsNumber (String.ofList (c :: cs)) [.int (String.ofList (c :: cs))] :=
  .of_reads (reads_digits h)

/-- **Digits, a point and digits** are read as a decimal. -/
lemma reads_decimal {c d : Char} {cs ds : List Char} (hwhole : ∀ e ∈ c :: cs, e.isDigit = true)
    (hfraction : ∀ e ∈ d :: ds, e.isDigit = true) :
    ReadsBefore EndsNumber (String.ofList (c :: cs ++ '.' :: d :: ds))
      (.float (String.ofList (c :: cs ++ '.' :: d :: ds))) := by
  have hdigit : c.isDigit = true := hwhole c List.mem_cons_self
  have hfirst : isWordPart c = true := by simp [isWordPart, Char.isAlphanum, hdigit]
  have hsize : (String.ofList (c :: cs ++ '.' :: d :: ds)).utf8ByteSize =
      (c :: cs).length + 1 + (d :: ds).length := by
    rw [utf8ByteSize_eq_length fun e he => ?_, List.length_append, List.length_cons (a := '.')]
    · omega
    · rcases List.mem_append.1 he with he | he
      · exact utf8Size_of_isDigit (hwhole e he)
      · rcases List.mem_cons.1 he with rfl | he
        · rfl
        · exact utf8Size_of_isDigit (hfraction e he)
  refine ⟨c, cs ++ '.' :: d :: ds, String.toList_ofList, isSpace_of_isWordPart hfirst,
    fun position rest hrest => ?_⟩
  have htext : c :: (cs ++ '.' :: d :: ds ++ rest) = c :: cs ++ '.' :: d :: (ds ++ rest) := by simp
  have hpoint : ∀ e ∈ ('.' :: d :: (ds ++ rest)).head?, e.isDigit = false := by
    rintro _ ⟨⟩
    rfl
  obtain ⟨htake, hdrop⟩ := takeWhile_dropWhile_append hwhole hpoint
  obtain ⟨htake', hdrop'⟩ := takeWhile_dropWhile_append hfraction fun e he => (hrest e he).1
  rw [List.cons_append] at htake' hdrop'
  rw [read_of_isWordPart hfirst, if_pos hdigit, htext, Lexeme.number, htake, hdrop]
  simp only [hfraction d List.mem_cons_self, if_true, htake', hdrop', hsize]

/-! ## Quoted texts -/

/-- How a character is written between single quotes. -/
def escaped (c : Char) : List Char :=
  if c = '\\' then ['\\', '\\']
  else if c = '\'' then ['\\', '\'']
  else if c = '\n' then ['\\', 'n']
  else if c = '\t' then ['\\', 't']
  else [c]

/-- A text between single quotes. -/
def quoted (s : String) : String := "'" ++ (String.ofList (s.toList.flatMap escaped) ++ "'")

/-- The characters that quote a text. -/
def IsQuote (quote : Char) : Prop := quote = '\'' ∨ quote = '"'

/-- How a character is written between quotes of a kind. -/
def escapedIn (quote c : Char) : List Char :=
  if c = '\\' then ['\\', '\\']
  else if c = quote then ['\\', quote]
  else if c = '\n' then ['\\', 'n']
  else if c = '\t' then ['\\', 't']
  else [c]

/-- A text between quotes of a kind. -/
def quotedIn (quote : Char) (s : String) : String :=
  String.ofList (quote :: (s.toList.flatMap (escapedIn quote) ++ [quote]))

section

variable {quote : Char}

lemma IsQuote.ne_backslash (h : IsQuote quote) : quote ≠ '\\' := by
  rcases h with rfl | rfl <;> decide

lemma IsQuote.unescape? (h : IsQuote quote) : unescape? quote = some quote := by
  rcases h with rfl | rfl <;> rfl

lemma IsQuote.utf8Size (h : IsQuote quote) : quote.utf8Size = 1 := by
  rcases h with rfl | rfl <;> rfl

lemma IsQuote.isSpace (h : IsQuote quote) : isSpace quote = false := by
  rcases h with rfl | rfl <;> rfl

/-- A character is written as itself, if it neither closes the text nor escapes anything, or behind
a backslash. -/
lemma escapedIn_cases (h : IsQuote quote) (c : Char) :
    (escapedIn quote c = [c] ∧ c ≠ quote ∧ c ≠ '\\') ∨
      ∃ e, escapedIn quote c = ['\\', e] ∧ Condition.unescape? e = some c ∧ e.utf8Size = 1 := by
  rw [escapedIn]
  split
  · rename_i hc
    subst hc
    exact .inr ⟨'\\', rfl, rfl, rfl⟩
  · rename_i hslash
    split
    · rename_i hc
      subst hc
      exact .inr ⟨c, rfl, h.unescape?, h.utf8Size⟩
    · rename_i hquote
      split
      · rename_i hc
        subst hc
        exact .inr ⟨'n', rfl, rfl, rfl⟩
      · split
        · rename_i hc
          subst hc
          exact .inr ⟨'t', rfl, rfl, rfl⟩
        · exact .inl ⟨rfl, hquote, hslash⟩

lemma quotedText?_plain {c : Char} (hquote : c ≠ quote) (hslash : c ≠ '\\') (cs : List Char) :
    quotedText? quote (c :: cs) = (quotedText? quote cs).map (.cons c c.utf8Size) := by
  rw [quotedText?.eq_def]
  simp [hquote, hslash]

lemma quotedText?_escape {e d : Char} (hquote : IsQuote quote) (h : unescape? e = some d)
    (cs : List Char) :
    quotedText? quote ('\\' :: e :: cs) = (quotedText? quote cs).map (.cons d 2) := by
  rw [quotedText?.eq_def]
  simp [hquote.ne_backslash.symm, h]

/-- What is written between quotes is read as it was. -/
lemma quotedText?_escapedIn (h : IsQuote quote) (cs rest : List Char) :
    quotedText? quote (cs.flatMap (escapedIn quote) ++ quote :: rest) =
      some ⟨cs, (String.ofList (cs.flatMap (escapedIn quote))).utf8ByteSize + 1, rest⟩ := by
  induction cs with
  | nil =>
      rw [List.flatMap_nil, List.nil_append, quotedText?.eq_def]
      simp
  | cons c cs ih =>
      rw [List.flatMap_cons, List.append_assoc]
      rcases escapedIn_cases h c with ⟨hc, hquote, hslash⟩ | ⟨e, hc, hd, hsize⟩
      · rw [hc, List.singleton_append, List.singleton_append, quotedText?_plain hquote hslash, ih,
          utf8ByteSize_ofList_cons, Nat.add_assoc]
        rfl
      · have hbackslash : '\\'.utf8Size = 1 := rfl
        rw [hc, List.cons_append, List.singleton_append, quotedText?_escape h hd, ih,
          List.cons_append, List.singleton_append, utf8ByteSize_ofList_cons,
          utf8ByteSize_ofList_cons, hsize, hbackslash, ← Nat.add_assoc, Nat.add_assoc (1 + 1)]
        rfl

/-- A quote begins a quoted text. -/
lemma read_quote (hquote : IsQuote quote) {cs : List Char} {q : QuotedText}
    (h : quotedText? quote cs = some q) (position : Nat) :
    Lexeme.read position quote cs = .ok ⟨.text (String.ofList q.content), 1 + q.size, q.rest⟩ := by
  rcases hquote with rfl | rfl
  · rw [Lexeme.read, show Lexeme.mark? '\'' = none from rfl]
    simp [h]
  · rw [Lexeme.read, show Lexeme.mark? '"' = none from rfl]
    simp [h]

/-- **A quoted text** is read as the text, whatever comes behind it. -/
lemma reads_quotedIn (h : IsQuote quote) (s : String) :
    ReadsBefore (fun _ => True) (quotedIn quote s) (.text s) := by
  have hsize : (quotedIn quote s).utf8ByteSize =
      1 + ((String.ofList (s.toList.flatMap (escapedIn quote))).utf8ByteSize + 1) := by
    rw [quotedIn, utf8ByteSize_ofList_cons, String.ofList_append, String.utf8ByteSize_append,
      utf8ByteSize_ofList_cons, h.utf8Size]
    rfl
  refine ⟨quote, _, String.toList_ofList, h.isSpace, fun position rest _ => ?_⟩
  rw [List.append_assoc, List.singleton_append,
    read_quote h (quotedText?_escapedIn h s.toList rest) position, hsize, String.ofList_toList]

end

lemma quoted_eq (s : String) : quoted s = quotedIn '\'' s := by
  have hquote : "'" = String.ofList ['\''] := rfl
  rw [quoted, quotedIn, String.ofList_cons, String.ofList_append, hquote]
  rfl

lemma spells_quoted (s : String) : Spells (quoted s) [.text s] := by
  rw [quoted_eq]
  exact .of_reads ((reads_quotedIn (.inl rfl) s).mono fun _ _ => trivial)

end FormValidation.Condition
