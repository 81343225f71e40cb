import FormValidation.Json.Token
import FormValidation.Json.Writer
import FormValidation.Proofs.Number.FiniteDoubles
import Mathlib

/-!
# Written tokens are read back

A JSON text is scanned character by character, and what is seen of a token is kept until the token
ends.  This file follows the scan through what is written.  A quoted text is read back whatever is in
it: each character comes back from its escape, the control characters from their code
(`Scan.rest?_quote`).  A word has no end of its own, so it is read back in front of what ends a word,
which is white space, a quote, a mark or the end of the text (`Scan.rest?_word`).  The words that are
written are the literals and the whole numbers, and every whole number of 128 bits is a word with a
value, although only those of 64 bits are kept as integers (`Token.exists_word?_ofNat`).
-/

namespace FormValidation

lemma Quoted.hexValue?_hexDigit {n : Nat} (h : n < 16) : hexValue? (hexDigit n) = some n := by
  interval_cases n <;> decide

namespace Json

/-! ## The rest of a text -/

namespace Scan

/-- The tokens of a text of which a part has been scanned. -/
def rest? (scan : Scan × List Token) (cs : List Char) : Option (List Token) :=
  (cs.foldlM step scan).bind finish

variable {scan scan' : Scan × List Token} {seen : List Char} {tokens : List Token}

lemma rest?_cons {c : Char} (h : step scan c = some scan') (cs : List Char) :
    rest? scan (c :: cs) = rest? scan' cs := by
  rw [rest?, List.foldlM_cons, h]
  rfl

/-! ## Quoted texts -/

lemma step_code {c : Char} {digit : Nat} (h : Quoted.hexValue? c = some digit)
    (high : Option Nat) (digits value : Nat) :
    step (.code seen high digits value, tokens) c =
      if digits = 3 then
        (codeUnit seen high (value * 16 + digit)).map fun scan => (scan, tokens)
      else some (.code seen high (digits + 1) (value * 16 + digit), tokens) := by
  rw [step, h]
  rfl

lemma codeUnit_of_lt {unit : Nat} (h : unit < 32) :
    codeUnit seen none unit = some (.text (Char.ofNat unit :: seen)) := by
  have hlow : ¬ (0xdc00 ≤ unit ∧ unit ≤ 0xdfff) := by omega
  have hhigh : ¬ (0xd800 ≤ unit ∧ unit ≤ 0xdbff) := by omega
  simp only [codeUnit, if_neg hlow, if_neg hhigh]

/-- A control character is read back from its code. -/
lemma rest?_controlCode {c : Char} (h : c.toNat < 32) (cs : List Char) :
    rest? (.text seen, tokens) ('\\' :: 'u' :: '0' :: '0' :: Quoted.hexDigit (c.toNat / 16) ::
      Quoted.hexDigit (c.toNat % 16) :: cs) = rest? (.text (c :: seen), tokens) cs := by
  have hhigh : step (.code seen none 2 0, tokens) (Quoted.hexDigit (c.toNat / 16)) =
      some (.code seen none 3 (c.toNat / 16), tokens) := by
    rw [step_code (Quoted.hexValue?_hexDigit (by omega)), if_neg (by decide), Nat.zero_mul,
      Nat.zero_add]
  have hlow : step (.code seen none 3 (c.toNat / 16), tokens) (Quoted.hexDigit (c.toNat % 16)) =
      some (.text (c :: seen), tokens) := by
    have hvalue : c.toNat / 16 * 16 + c.toNat % 16 = c.toNat := by omega
    rw [step_code (Quoted.hexValue?_hexDigit (by omega)), if_pos rfl, hvalue,
      codeUnit_of_lt h, Char.ofNat_toNat]
    rfl
  calc rest? (.text seen, tokens) _
    _ = rest? (.code seen none 2 0, tokens) (Quoted.hexDigit (c.toNat / 16) ::
          Quoted.hexDigit (c.toNat % 16) :: cs) := by
        rw [rest?_cons rfl, rest?_cons rfl, rest?_cons rfl, rest?_cons rfl]
        rfl
    _ = rest? (.text (c :: seen), tokens) cs := by rw [rest?_cons hhigh, rest?_cons hlow]

/-- A character is read back from what stands for it between quotes. -/
lemma rest?_encodeChar (c : Char) (cs : List Char) :
    rest? (.text seen, tokens) (Quoted.encodeChar c ++ cs) =
      rest? (.text (c :: seen), tokens) cs := by
  have hletter : ∀ letter, letter ≠ 'u' → escaped? letter = some c →
      rest? (.text seen, tokens) ('\\' :: letter :: cs) = rest? (.text (c :: seen), tokens) cs := by
    intro letter hne hescaped
    have hstep : step (.escape seen, tokens) letter = some (.text (c :: seen), tokens) := by
      rw [step, if_neg hne, hescaped]
      rfl
    rw [rest?_cons rfl, rest?_cons hstep]
  have hcode : ∀ n, c.toNat = n → c = Char.ofNat n := fun n h => by rw [← h, Char.ofNat_toNat]
  unfold Quoted.encodeChar
  split
  next h => exact hletter '"' (by decide) (by rw [h]; rfl)
  split
  next h => exact hletter '\\' (by decide) (by rw [h]; rfl)
  split
  next h => exact hletter 'n' (by decide) (by rw [h]; rfl)
  split
  next h => exact hletter 'r' (by decide) (by rw [h]; rfl)
  split
  next h => exact hletter 't' (by decide) (by rw [h]; rfl)
  split
  next h => exact hletter 'b' (by decide) (by rw [hcode 8 h]; rfl)
  split
  next h => exact hletter 'f' (by decide) (by rw [hcode 12 h]; rfl)
  split
  next h => exact rest?_controlCode h cs
  next hquote hbackslash _ _ _ _ _ hcontrol =>
    have hstep : step (.text seen, tokens) c = some (.text (c :: seen), tokens) := by
      rw [step, if_neg hquote, if_neg hbackslash, if_neg hcontrol]
    exact rest?_cons hstep cs

lemma rest?_encode (cs rest : List Char) :
    rest? (.text seen, tokens) (Quoted.encode cs ++ '"' :: rest) =
      rest? (.between, .text (String.ofList (seen.reverse ++ cs)) :: tokens) rest := by
  induction cs generalizing seen with
  | nil =>
      rw [List.append_nil]
      exact rest?_cons rfl rest
  | cons c cs ih =>
      have hencode : Quoted.encode (c :: cs) = Quoted.encodeChar c ++ Quoted.encode cs := rfl
      rw [hencode, List.append_assoc, rest?_encodeChar, ih, List.reverse_cons, List.append_assoc]
      rfl

/-- **A quoted text is read back**, whatever is in it and whatever follows. -/
lemma rest?_quote (cs rest : List Char) :
    rest? (.between, tokens) (Quoted.quote cs ++ rest) =
      rest? (.between, .text (String.ofList cs) :: tokens) rest := by
  have hquote : Quoted.quote cs ++ rest = '"' :: (Quoted.encode cs ++ '"' :: rest) := by
    rw [Quoted.quote, List.cons_append, List.cons_append, List.append_assoc]
    rfl
  have hopen : step (.between, tokens) '"' = some (.text [], tokens) := rfl
  rw [hquote, rest?_cons hopen, rest?_encode]
  rfl

/-! ## Marks and words -/

/-- What ends a word: white space, a quote or a mark. -/
def isBreak (c : Char) : Bool := isSpace c || c == '"' || (Token.mark? c).isSome

/-- The text does not continue a word in front of it. -/
def EndsWord (cs : List Char) : Prop := ∀ c ∈ cs.head?, isBreak c = true

lemma rest?_mark {c : Char} {mark : Token} (h : Token.mark? c = some mark) (cs : List Char) :
    rest? (.between, tokens) (c :: cs) = rest? (.between, mark :: tokens) cs := by
  have hstep : step (.between, tokens) c = some (.between, mark :: tokens) := by
    unfold Token.mark? at h
    split at h <;> cases h <;> rfl
  exact rest?_cons hstep cs

lemma rest?_inWord {word : List Char} (h : ∀ c ∈ word, isBreak c = false) (rest : List Char) :
    rest? (.word seen, tokens) (word ++ rest) = rest? (.word (word.reverse ++ seen), tokens) rest := by
  induction word generalizing seen with
  | nil => rfl
  | cons c word ih =>
      obtain ⟨hc, hword⟩ := List.forall_mem_cons.1 h
      have hstep : step (.word seen, tokens) c = some (.word (c :: seen), tokens) := by
        rw [isBreak] at hc
        rw [step, hc]
        rfl
      rw [List.cons_append, rest?_cons hstep, ih hword, List.reverse_cons, List.append_assoc]
      rfl

lemma rest?_wordEnd {v : Json} (h : Token.word? seen.reverse = some v) {rest : List Char}
    (hrest : EndsWord rest) :
    rest? (.word seen, tokens) rest = rest? (.between, .word v :: tokens) rest := by
  cases rest with
  | nil =>
      show (Token.word? seen.reverse).map _ = _
      rw [h]
      rfl
  | cons c rest =>
      have hc : isBreak c = true := hrest c rfl
      have hstep : step (.word seen, tokens) c = some (start (.word v :: tokens) c) := by
        rw [isBreak] at hc
        rw [step, hc, h]
        rfl
      rw [rest?_cons hstep, rest?_cons rfl]

/-- **A word is read back** in front of what ends it. -/
lemma rest?_word {word : List Char} {v : Json} (hne : word ≠ [])
    (hword : ∀ c ∈ word, isBreak c = false) (h : Token.word? word = some v) {rest : List Char}
    (hrest : EndsWord rest) :
    rest? (.between, tokens) (word ++ rest) = rest? (.between, .word v :: tokens) rest := by
  cases word with
  | nil => exact absurd rfl hne
  | cons c word =>
      obtain ⟨hc, hword⟩ := List.forall_mem_cons.1 hword
      have hstep : step (.between, tokens) c = some (.word [c], tokens) := by
        rw [isBreak, Bool.or_eq_false_iff, Bool.or_eq_false_iff] at hc
        obtain ⟨⟨hspace, hquote⟩, hmark⟩ := hc
        rw [Option.isSome_eq_false_iff, Option.isNone_iff_eq_none] at hmark
        rw [step, start, hspace, if_neg Bool.false_ne_true, if_neg (beq_eq_false_iff_ne.1 hquote),
          hmark]
      have hread : Token.word? (word.reverse ++ [c]).reverse = some v := by
        rw [List.reverse_append, List.reverse_reverse]
        exact h
      rw [List.cons_append, rest?_cons hstep, rest?_inWord hword,
        rest?_wordEnd hread hrest]

lemma isBreak_of_isDigit {c : Char} (h : c.isDigit) : isBreak c = false := by
  by_contra hbreak
  rw [Bool.not_eq_false, isBreak, isSpace] at hbreak
  simp only [Bool.or_eq_true, beq_iff_eq] at hbreak
  rcases hbreak with ((((rfl | rfl) | rfl) | rfl) | rfl) | hmark
  all_goals try exact absurd h (by decide)
  unfold Token.mark? at hmark
  split at hmark
  all_goals first
    | exact absurd h (by decide)
    | cases hmark

lemma isBreak_of_mem_ofInt {n : Int} {c : Char} (h : c ∈ Numeral.ofInt n) : isBreak c = false := by
  rw [Numeral.ofInt] at h
  split at h
  · rcases List.mem_cons.1 h with rfl | h
    · rfl
    · exact isBreak_of_isDigit (Numeral.isDigit_of_mem_ofNat h)
  · exact isBreak_of_isDigit (Numeral.isDigit_of_mem_ofNat h)

end Scan

/-! ## Whole numbers -/

namespace Token

/-- The digits of a number do not begin with a zero, unless the number is zero. -/
lemma exists_ofNat_eq_cons {n : Nat} (h : n ≠ 0) : ∃ c cs, Numeral.ofNat n = c :: cs ∧ c ≠ '0' := by
  induction n using Nat.strongRecOn with
  | ind n ih =>
      rcases Nat.lt_or_ge n 10 with hlt | hge
      · refine ⟨n.digitChar, [], Nat.toDigits_of_lt_base hlt, ?_⟩
        interval_cases n <;> first | exact absurd rfl h | decide
      · obtain ⟨c, cs, hcs, hc⟩ := ih (n / 10) (by omega) (by omega)
        refine ⟨c, cs ++ [(n % 10).digitChar], ?_, hc⟩
        have hdigits : Numeral.ofNat n = Numeral.ofNat (n / 10) ++ [(n % 10).digitChar] :=
          Nat.toDigits_of_base_le (by decide) hge
        rw [hdigits, hcs]
        rfl

lemma plainWhole_ofNat (n : Nat) : plainWhole (Numeral.ofNat n) = true := by
  by_cases h : n = 0
  · subst h
    rfl
  · obtain ⟨c, cs, hcs, hc⟩ := exists_ofNat_eq_cons h
    rw [hcs]
    unfold plainWhole
    split
    next heq => cases heq
    next => rfl
    next heq =>
      cases heq
      exact bne_iff_ne.2 hc

lemma takeWhile_ofNat (n : Nat) : (Numeral.ofNat n).takeWhile Char.isDigit = Numeral.ofNat n :=
  List.takeWhile_eq_self_iff.2 fun _ hc => Numeral.isDigit_of_mem_ofNat hc

lemma dropWhile_ofNat (n : Nat) : (Numeral.ofNat n).dropWhile Char.isDigit = [] :=
  List.dropWhile_eq_nil_iff.2 fun _ hc => Numeral.isDigit_of_mem_ofNat hc

lemma readUnsigned?_ofNat (n : Nat) : Decimal.readUnsigned? (Numeral.ofNat n) = some ⟨false, n, 0⟩ := by
  have hne : (Numeral.ofNat n).isEmpty = false := by
    simpa using Numeral.ofNat_ne_nil n
  have hunits : Nat.ofDigitChars 10 (Numeral.ofNat n) 0 = n := Nat.ofDigitChars_ten_toDigits
  rw [Decimal.readUnsigned?, takeWhile_ofNat, dropWhile_ofNat]
  dsimp only
  rw [hne, List.append_nil, hunits]
  rfl

/-- The number of digits behind an optional sign: an integer if it is in range and no negative zero,
and else a double, unless this overflows. -/
lemma number?_ofNat (negative : Bool) (n : Nat) :
    number? negative (Numeral.ofNat n) =
      let z : Int := if negative then -(n : Int) else n
      if h : InWordRange z ∧ ¬ (negative = true ∧ z = 0) then some (.integer z h.1)
      else
        let x := Decimal.toFloat ⟨negative, n, 0⟩
        if x.isFinite then some (.real x) else none := by
  simp [number?, takeWhile_ofNat, dropWhile_ofNat, plainWhole_ofNat, readUnsigned?_ofNat]

/-- A word of digits is read as a number. -/
lemma word?_ofNat (n : Nat) :
    word? (Numeral.ofNat n) = (number? false (Numeral.ofNat n)).map Json.number := by
  have hdigit : ∀ c ∈ Numeral.ofNat n, c.isDigit := fun _ => Numeral.isDigit_of_mem_ofNat
  cases hcs : Numeral.ofNat n with
  | nil => exact absurd hcs (Numeral.ofNat_ne_nil n)
  | cons c cs =>
      have hc : c.isDigit := hdigit c (hcs ▸ List.mem_cons_self)
      have hne : ∀ letter word, letter.isDigit = false → c :: cs ≠ letter :: word := by
        intro letter word hletter heq
        cases heq
        rw [hletter] at hc
        cases hc
      have hnull : c :: cs ≠ "null".toList := hne 'n' "ull".toList rfl
      have htrue : c :: cs ≠ "true".toList := hne 't' "rue".toList rfl
      have hfalse : c :: cs ≠ "false".toList := hne 'f' "alse".toList rfl
      rw [word?, if_neg hnull, if_neg htrue, if_neg hfalse]
      exact fun word => hne '-' word rfl

/-- **An integer in range is a word** that is read as itself. -/
lemma word?_ofInt {n : Int} (h : InWordRange n) :
    word? (Numeral.ofInt n) = some (.number (.integer n h)) := by
  rw [Numeral.ofInt]
  split
  next hneg =>
    have hsigned : -(n.natAbs : Int) = n := by omega
    have hnumber : number? true (Numeral.ofNat n.natAbs) = some (.integer n h) := by
      rw [number?_ofNat]
      simp only [hsigned, if_true]
      rw [dif_pos ⟨h, by omega⟩]
    show (number? true (Numeral.ofNat n.natAbs)).map Json.number = _
    rw [hnumber]
    rfl
  next hpos =>
    have hplain : (n.natAbs : Int) = n := by omega
    have hnumber : number? false (Numeral.ofNat n.natAbs) = some (.integer n h) := by
      rw [number?_ofNat]
      simp only [hplain, Bool.false_eq_true, if_false, false_and, not_false_iff, and_true]
      rw [dif_pos h]
    rw [word?_ofNat, hnumber]
    rfl

/-- **Every whole number of 128 bits is a word** with a value, a double if it is large. -/
lemma exists_word?_ofNat {n : Nat} (h : n < 2 ^ 128) : ∃ v, word? (Numeral.ofNat n) = some v := by
  rw [word?_ofNat, number?_ofNat]
  simp only [Bool.false_eq_true, if_false, false_and, not_false_iff, and_true]
  by_cases hrange : InWordRange n
  · rw [dif_pos hrange]
    exact ⟨_, rfl⟩
  · have hlarge : 2 ^ 53 ≤ n := by
      rw [InWordRange] at hrange
      omega
    rw [dif_neg hrange, if_pos (Decimal.isFinite_toFloat hlarge h)]
    exact ⟨_, rfl⟩

end Token

end Json

end FormValidation
