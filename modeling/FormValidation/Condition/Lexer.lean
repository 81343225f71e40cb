import FormValidation.Condition.Fault
import FormValidation.Condition.Token

/-!
# Reading tokens

The tokens of a condition text, read from the left, each as long as possible. Quoted texts are
read by `quotedText?`, which resolves the escapes of line feeds, tabs, backslashes and quotes and
keeps every other backslash. Each step leaves less text than it found
(`Lexeme.length_rest_lt`), so reading ends.
-/

namespace FormValidation.Condition

/-- The white space between tokens. -/
def isSpace (c : Char) : Bool := c == ' ' || c == '\t' || c == '\n' || c == '\r'

/-- Characters that begin a word. -/
def isWordStart (c : Char) : Bool := c.isAlpha || c == '_'

/-- Characters that continue a word. -/
def isWordPart (c : Char) : Bool := c.isAlphanum || c == '_'

/-! ## Quoted texts -/

/-- The character that a backslash before `c` stands for, if it stands for one. -/
def unescape? (c : Char) : Option Char :=
  if c = 'n' then some '\n'
  else if c = 't' then some '\t'
  else if c = '\\' ∨ c = '\'' ∨ c = '"' then some c
  else none

/-- A quoted text that has been read: what it stands for, its size in bytes with the closing
quote, and the text behind it. -/
structure QuotedText where
  content : List Char
  size : Nat
  rest : List Char

/-- Puts a character that took `size` bytes in front of a quoted text. -/
def QuotedText.cons (c : Char) (size : Nat) (q : QuotedText) : QuotedText :=
  ⟨c :: q.content, size + q.size, q.rest⟩

/-- Reads up to the quote that closes the text. A backslash that escapes nothing stands for
itself. -/
def quotedText? (quote : Char) : List Char → Option QuotedText
  | [] => none
  | c :: cs =>
    if c = quote then some ⟨[], 1, cs⟩
    else if c = '\\' then
      match cs with
      | [] => none
      | e :: rest =>
        match unescape? e with
        | some d => (quotedText? quote rest).map (.cons d 2)
        | none => (quotedText? quote (e :: rest)).map (.cons '\\' 1)
    else (quotedText? quote cs).map (.cons c c.utf8Size)

theorem length_rest_of_quotedText? {quote : Char} {cs : List Char} {q : QuotedText}
    (h : quotedText? quote cs = some q) : q.rest.length < cs.length := by
  fun_induction quotedText? quote cs generalizing q with
  | case1 => cases h
  | case2 cs => cases h; exact Nat.lt_succ_self _
  | case3 => cases h
  | case4 e rest d _ _ ih =>
    obtain ⟨p, hp, rfl⟩ := Option.map_eq_some_iff.1 h
    have := ih hp
    simp only [QuotedText.cons, List.length_cons]
    omega
  | case5 e rest _ _ ih =>
    obtain ⟨p, hp, rfl⟩ := Option.map_eq_some_iff.1 h
    have := ih hp
    simp only [QuotedText.cons, List.length_cons] at this ⊢
    omega
  | case6 c cs _ _ ih =>
    obtain ⟨p, hp, rfl⟩ := Option.map_eq_some_iff.1 h
    have := ih hp
    simp only [QuotedText.cons, List.length_cons]
    omega

/-! ## Single tokens -/

/-- A token that has been read, its size in bytes, and the text behind it. -/
structure Lexeme where
  token : Token
  size : Nat
  rest : List Char

namespace Lexeme

/-- A number at the start of a text: digits, and a fraction if a point and a digit follow. -/
def number (cs : List Char) : Lexeme :=
  let whole := cs.takeWhile Char.isDigit
  let rest := cs.dropWhile Char.isDigit
  match rest with
  | '.' :: c :: tail =>
    if c.isDigit then
      let fraction := (c :: tail).takeWhile Char.isDigit
      ⟨.float (String.ofList (whole ++ '.' :: fraction)), whole.length + 1 + fraction.length,
        (c :: tail).dropWhile Char.isDigit⟩
    else ⟨.int (String.ofList whole), whole.length, rest⟩
  | _ => ⟨.int (String.ofList whole), whole.length, rest⟩

/-- A word at the start of a text. -/
def word (cs : List Char) : Lexeme :=
  let name := cs.takeWhile isWordPart
  ⟨Token.ofWord (String.ofList name), name.length, cs.dropWhile isWordPart⟩

/-- A token of two equal characters, of which the first has been read. -/
def paired (position : Nat) (c : Char) (token : Token) : List Char → Except Fault Lexeme
  | [] => .error (.unexpected (String.singleton c) position (.operator (String.ofList [c, c])))
  | d :: rest =>
    if d = c then .ok ⟨token, 2, rest⟩
    else .error (.unexpected (String.singleton c) position (.operator (String.ofList [c, c])))

/-- A token that an equals sign behind it changes. -/
def either (withEquals alone : Token) : List Char → Lexeme
  | [] => ⟨alone, 1, []⟩
  | c :: rest => if c = '=' then ⟨withEquals, 2, rest⟩ else ⟨alone, 1, c :: rest⟩

/-- The token of a single character that is one by itself. -/
def mark? (c : Char) : Option Token :=
  match c with
  | '(' => some .openParen
  | ')' => some .closeParen
  | '[' => some .openBracket
  | ']' => some .closeBracket
  | ',' => some .comma
  | '.' => some .dot
  | '+' => some .plus
  | '-' => some .minus
  | '*' => some .star
  | '/' => some .slash
  | '%' => some .percent
  | _ => none

/-- The token at the start of the text `c :: cs`, which begins at `position`. -/
def read (position : Nat) (c : Char) (cs : List Char) : Except Fault Lexeme :=
  match mark? c with
  | some token => .ok ⟨token, 1, cs⟩
  | none =>
    if c = '=' then paired position c .eq cs
    else if c = '&' then paired position c .and cs
    else if c = '|' then paired position c .or cs
    else if c = '!' then .ok (either .notEq .not cs)
    else if c = '<' then .ok (either .le .lt cs)
    else if c = '>' then .ok (either .ge .gt cs)
    else if c = '\'' ∨ c = '"' then
      match quotedText? c cs with
      | some q => .ok ⟨.text (String.ofList q.content), 1 + q.size, q.rest⟩
      | none => .error (.unterminated position)
    else if c.isDigit then .ok (number (c :: cs))
    else if isWordStart c then .ok (word (c :: cs))
    else .error (.unexpected (String.singleton c) position .token)

theorem length_dropWhile_lt {p : Char → Bool} {c : Char} (h : p c = true) (cs : List Char) :
    ((c :: cs).dropWhile p).length < (c :: cs).length := by
  rw [List.dropWhile_cons_of_pos h]
  exact Nat.lt_succ_of_le (List.dropWhile_sublist p).length_le

theorem length_number_rest {c : Char} (h : c.isDigit = true) (cs : List Char) :
    (number (c :: cs)).rest.length < (c :: cs).length := by
  have hrest := length_dropWhile_lt h cs
  simp only [number]
  split
  next d tail heq =>
    rw [heq] at hrest
    split
    · have := (List.dropWhile_sublist Char.isDigit (l := d :: tail)).length_le
      simp only [List.length_cons] at this hrest ⊢
      omega
    · rw [heq]; exact hrest
  next => exact hrest

theorem isWordPart_of_isWordStart {c : Char} (h : isWordStart c = true) : isWordPart c = true := by
  simp only [isWordStart, isWordPart, Char.isAlphanum, Bool.or_eq_true] at h ⊢
  exact h.imp_left .inl

/-- Reading a token consumes at least one character. -/
theorem length_rest_lt {position : Nat} {c : Char} {cs : List Char} {l : Lexeme}
    (h : read position c cs = .ok l) : l.rest.length < (c :: cs).length := by
  have hpaired : ∀ {d : Char} {token : Token} {l : Lexeme},
      paired position d token cs = .ok l → l.rest.length < (c :: cs).length := by
    intro d token l h
    cases cs with
    | nil => cases h
    | cons e rest =>
      rw [paired] at h
      split at h
      · cases h; simp only [List.length_cons]; omega
      · cases h
  have heither : ∀ {a b : Token}, (either a b cs).rest.length < (c :: cs).length := by
    intro a b
    cases cs with
    | nil => simp [either]
    | cons e rest =>
      rw [either]
      split <;> simp only [List.length_cons] <;> omega
  rw [read] at h
  split at h
  · cases h; exact Nat.lt_succ_self _
  · split at h
    · exact hpaired h
    split at h
    · exact hpaired h
    split at h
    · exact hpaired h
    split at h
    · cases h; exact heither
    split at h
    · cases h; exact heither
    split at h
    · cases h; exact heither
    split at h
    · split at h
      next q hq => cases h; exact Nat.lt_succ_of_lt (length_rest_of_quotedText? hq)
      next => cases h
    split at h
    next hd => cases h; exact length_number_rest hd cs
    split at h
    next hw => cases h; exact length_dropWhile_lt (isWordPart_of_isWordStart hw) cs
    next => cases h

end Lexeme

/-! ## Token sequences -/

/-- The tokens of a text that begins at `position`. -/
def tokensFrom (position : Nat) : List Char → Except Fault (List Placed)
  | [] => .ok []
  | c :: cs =>
    if isSpace c then tokensFrom (position + 1) cs
    else match h : Lexeme.read position c cs with
      | .error fault => .error fault
      | .ok l =>
        have := Lexeme.length_rest_lt h
        match tokensFrom (position + l.size) l.rest with
        | .error fault => .error fault
        | .ok rest => .ok (⟨l.token, position⟩ :: rest)
termination_by cs => cs.length
decreasing_by all_goals simp_all

/-- The tokens of a condition text, of which there must be at least one. -/
def tokens (cs : List Char) : Except Fault (List Placed) :=
  match tokensFrom 0 cs with
  | .ok [] => .error .emptyInput
  | result => result

end FormValidation.Condition
