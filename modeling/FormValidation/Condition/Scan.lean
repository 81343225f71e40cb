import FormValidation.Condition.Lexer

/-!
# Reading tokens by offset

The tokens of a condition, read from the bytes of its text.  A reader of bytes goes on by offsets
and cuts pieces out of the text: the digits of a number, a word, and the stretches of a quoted text
between two escapes.  A piece can only be cut out where characters begin and end, so reading halts
for one of two causes (`Halt`): the text has a fault, or a byte or a piece was asked for that is not
there.

All that tokens are told apart by are ASCII characters, each of which is a byte of its own, while
every byte of any other character is above them.  So a byte is looked at as the character of its
number (`Char.ofUInt8`).
-/

namespace FormValidation.Condition

/-- Why reading by offsets and places halts. -/
inductive Halt where
  /-- The text has a fault. -/
  | fault (fault : Fault)
  /-- A byte, a piece of text or a place was asked for that is not there. -/
  | outOfRange
  deriving DecidableEq

/-- A token or, without one, the end of the text, and the offset at which it begins. -/
structure Place where
  token : Option Token
  position : Nat
  deriving DecidableEq

namespace Scan

section

variable (source : String)

/-! ## Bytes and pieces -/

/-- The byte at an offset, if there is one. -/
def byteAt? (offset : Nat) : Option UInt8 := source.toByteArray[offset]?

/-- The byte at an offset, of which there must be one. -/
def byteAt (offset : Nat) : Except Halt UInt8 :=
  match byteAt? source offset with
  | some byte => .ok byte
  | none => .error .outOfRange

/-- The piece of the text between two offsets, which must be in this order and both of which must
lie in the text, and not within a character. -/
def slice (start stop : Nat) : Except Halt String :=
  if h : String.Pos.Raw.IsValid source ⟨start⟩ ∧ String.Pos.Raw.IsValid source ⟨stop⟩ ∧
      start ≤ stop then
    .ok (source.extract ⟨⟨start⟩, h.1⟩ ⟨⟨stop⟩, h.2.1⟩)
  else .error .outOfRange

variable {source} in
theorem lt_of_byteAt? {offset : Nat} {byte : UInt8} (h : byteAt? source offset = some byte) :
    offset < source.utf8ByteSize := by
  obtain ⟨hlt, -⟩ := getElem?_eq_some_iff.1 h
  exact hlt

/-- The first offset from the given one on at which there is no byte that is accepted. -/
def passWhile (accepts : Char → Bool) (offset : Nat) : Nat :=
  match h : byteAt? source offset with
  | none => offset
  | some byte =>
    if accepts (Char.ofUInt8 byte) then
      have := lt_of_byteAt? h
      passWhile accepts (offset + 1)
    else offset
termination_by source.utf8ByteSize - offset

theorem le_passWhile (accepts : Char → Bool) (offset : Nat) :
    offset ≤ passWhile source accepts offset := by
  fun_induction passWhile source accepts offset <;> omega

theorem passWhile_of_accepts {accepts : Char → Bool} {offset : Nat} {byte : UInt8}
    (h : byteAt? source offset = some byte) (haccepts : accepts (Char.ofUInt8 byte) = true) :
    passWhile source accepts offset = passWhile source accepts (offset + 1) := by
  rw [passWhile]
  split
  next hnone => cases hnone.symm.trans h
  next found hfound =>
    cases hfound.symm.trans h
    rw [if_pos haccepts]

theorem passWhile_of_rejects {accepts : Char → Bool} {offset : Nat}
    (h : ∀ byte, byteAt? source offset = some byte → accepts (Char.ofUInt8 byte) = false) :
    passWhile source accepts offset = offset := by
  rw [passWhile]
  split
  next => rfl
  next found hfound =>
    rw [if_neg]
    simp [h found hfound]

/-! ## Single tokens -/

/-- A token of two equal characters, of which the first has been seen. -/
def paired (start : Nat) (c : Char) (token : Token) : Except Halt (Token × Nat) :=
  if byteAt? source (start + 1) = some c.toUInt8 then .ok (token, start + 2)
  else do
    let byte ← byteAt source start
    .error (.fault (.unexpected (String.singleton (Char.ofUInt8 byte)) start
      (.operator (String.ofList [c, c]))))

/-- A token that an equals sign behind it changes. -/
def either (start : Nat) (withEquals alone : Token) : Token × Nat :=
  if byteAt? source (start + 1) = some '='.toUInt8 then (withEquals, start + 2)
  else (alone, start + 1)

/-- A number: digits, and a fraction if a point and a digit follow. -/
def number (start : Nat) : Except Halt (Token × Nat) :=
  let whole := passWhile source Char.isDigit start
  if byteAt? source whole = some '.'.toUInt8 ∧
      (byteAt? source (whole + 1)).any (fun byte => (Char.ofUInt8 byte).isDigit) then
    let stop := passWhile source Char.isDigit (whole + 1)
    (slice source start stop).map fun digits => (.float digits, stop)
  else (slice source start whole).map fun digits => (.int digits, whole)

/-- A word. -/
def word (start : Nat) : Except Halt (Token × Nat) :=
  let stop := passWhile source isWordPart start
  (slice source start stop).map fun name => (Token.ofWord name, stop)

/-- Reads a quoted text whose opening quote is at `start`, from an offset in it on.  What lies
between `segment` and the offset has been passed over but not been copied to `text`. -/
def copyQuoted (quote : UInt8) (start offset segment : Nat) (text : String) :
    Except Halt (String × Nat) :=
  match h : byteAt? source offset with
  | none => .error (.fault (.unterminated start))
  | some byte =>
    have := lt_of_byteAt? h
    if byte = quote then
      (slice source segment offset).map fun piece => (text ++ piece, offset + 1)
    else if byte = '\\'.toUInt8 then
      match slice source segment offset with
      | .error halt => .error halt
      | .ok piece =>
        match byteAt? source (offset + 1) with
        | none => .error (.fault (.unterminated start))
        | some escaped =>
          match unescape? (Char.ofUInt8 escaped) with
          | some c => copyQuoted quote start (offset + 2) (offset + 2) ((text ++ piece).push c)
          | none => copyQuoted quote start (offset + 1) (offset + 1) ((text ++ piece).push '\\')
    else copyQuoted quote start (offset + 1) segment text
termination_by source.utf8ByteSize - offset

/-- A quoted text whose opening quote is at `start`. -/
def quoted (quote : UInt8) (start : Nat) : Except Halt (String × Nat) :=
  copyQuoted source quote start (start + 1) (start + 1) ""

/-- The token at an offset with the given byte, and the offset behind it. -/
def token (byte : UInt8) (start : Nat) : Except Halt (Token × Nat) :=
  let c := Char.ofUInt8 byte
  match Lexeme.mark? c with
  | some mark => .ok (mark, start + 1)
  | none =>
    if c = '=' then paired source start c .eq
    else if c = '&' then paired source start c .and
    else if c = '|' then paired source start c .or
    else if c = '!' then .ok (either source start .notEq .not)
    else if c = '<' then .ok (either source start .le .lt)
    else if c = '>' then .ok (either source start .ge .gt)
    else if c = '\'' ∨ c = '"' then
      (quoted source byte start).map fun (text, stop) => (.text text, stop)
    else if c.isDigit then number source start
    else if isWordStart c then word source start
    else do
      let rest ← slice source start source.utf8ByteSize
      .error (.fault (.unexpected (String.singleton (rest.toList.head?.getD c)) start .token))

/-! ## All tokens -/

theorem lt_of_copyQuoted {quote : UInt8} {start offset segment stop : Nat} {text content : String}
    (h : copyQuoted source quote start offset segment text = .ok (content, stop)) :
    offset < stop := by
  fun_induction copyQuoted source quote start offset segment text with
  | case1 => cases h
  | case2 offset segment text =>
    cases hslice : slice source segment offset with
    | error halt => rw [hslice] at h; cases h
    | ok piece => rw [hslice] at h; cases h; exact Nat.lt_succ_self offset
  | case3 => cases h
  | case4 => cases h
  | case5 offset _ _ _ _ _ _ _ _ _ _ _ ih => exact Nat.lt_of_succ_lt (Nat.lt_of_succ_lt (ih h))
  | case6 offset _ _ _ _ _ _ _ _ _ _ ih => exact Nat.lt_of_succ_lt (ih h)
  | case7 offset _ _ _ _ _ _ _ ih => exact Nat.lt_of_succ_lt (ih h)

/-- A token takes at least one byte. -/
theorem lt_of_token {byte : UInt8} {start stop : Nat} {t : Token}
    (hbyte : byteAt? source start = some byte) (h : token source byte start = .ok (t, stop)) :
    start < stop := by
  have hmap : ∀ {piece : Except Halt String} {f : String → Token} {behind : Nat},
      piece.map (fun s => (f s, behind)) = .ok (t, stop) → behind = stop := by
    intro piece f behind h
    cases piece with
    | error halt => cases h
    | ok s => cases h; rfl
  have hpaired : ∀ {c : Char} {token : Token},
      paired source start c token = .ok (t, stop) → start < stop := by
    intro c token h
    rw [paired] at h
    split at h
    · cases h; omega
    · rw [byteAt, hbyte] at h; cases h
  have heither : ∀ {a b : Token},
      (.ok (either source start a b) : Except Halt (Token × Nat)) = .ok (t, stop) →
        start < stop := by
    intro a b h
    rw [either] at h
    split at h <;> cases h <;> omega
  rw [token] at h
  split at h
  · cases h; exact Nat.lt_succ_self start
  split at h
  · exact hpaired h
  split at h
  · exact hpaired h
  split at h
  · exact hpaired h
  split at h
  · exact heither h
  split at h
  · exact heither h
  split at h
  · exact heither h
  split at h
  · cases hquoted : quoted source byte start with
    | error halt => rw [hquoted] at h; cases h
    | ok result =>
      rw [hquoted] at h
      cases h
      exact Nat.lt_of_succ_lt (lt_of_copyQuoted source hquoted)
  split at h
  next hdigit =>
    have hwhole : start < passWhile source Char.isDigit start := by
      rw [passWhile_of_accepts source hbyte hdigit]
      exact le_passWhile source Char.isDigit (start + 1)
    rw [number] at h
    split at h
    · have := le_passWhile source Char.isDigit (passWhile source Char.isDigit start + 1)
      have := hmap h
      omega
    · exact hmap h ▸ hwhole
  split at h
  next hstart =>
    rw [word] at h
    rw [← hmap h, passWhile_of_accepts source hbyte (Lexeme.isWordPart_of_isWordStart hstart)]
    exact le_passWhile source isWordPart (start + 1)
  · cases hslice : slice source start source.utf8ByteSize with
    | error halt => rw [hslice] at h; cases h
    | ok rest => rw [hslice] at h; cases h

/-- The tokens from an offset on, behind those found before it, and the end of the text. -/
def scanFrom (offset : Nat) (found : Array Place) : Except Halt (Array Place) :=
  match h : byteAt? source offset with
  | none => if found.isEmpty then .error (.fault .emptyInput) else .ok (found.push ⟨none, offset⟩)
  | some byte =>
    have := lt_of_byteAt? h
    if isSpace (Char.ofUInt8 byte) then scanFrom (offset + 1) found
    else
      match ht : token source byte offset with
      | .error halt => .error halt
      | .ok (t, stop) =>
        have := lt_of_token source h ht
        scanFrom stop (found.push ⟨some t, offset⟩)
termination_by source.utf8ByteSize - offset

end

end Scan

/-- The tokens of a text and, as the last place, its end. -/
def scan (source : String) : Except Halt (Array Place) := Scan.scanFrom source 0 #[]

end FormValidation.Condition
