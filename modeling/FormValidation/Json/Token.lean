import FormValidation.Json.Basic
import FormValidation.Json.Quoted
import FormValidation.Number.Decimal

/-!
# JSON tokens

The tokens of a JSON text: brackets, separators, quoted texts, and words, which are the literals
and the numbers. A text is read one character at a time by `Scan.step`, which keeps what has been
seen of the token that is being read.
-/

namespace FormValidation.Json

/-- A token; a word is kept as the value that it stands for. -/
inductive Token where
  | openArray
  | closeArray
  | openObject
  | closeObject
  | comma
  | colon
  | text (s : String)
  | word (value : Json)

namespace Token

/-- The fixed tokens of one character. -/
def mark? (c : Char) : Option Token :=
  match c with
  | '[' => some .openArray
  | ']' => some .closeArray
  | '\x7b' => some .openObject
  | '\x7d' => some .closeObject
  | ',' => some .comma
  | ':' => some .colon
  | _ => none

/-- Whether the digits before the point are a single zero or start with another digit. -/
def plainWhole (whole : List Char) : Bool :=
  match whole with
  | [] => false
  | ['0'] => true
  | c :: _ => c != '0'

/-- The number that a word without a sign spells: digits without leading zeros, then a point with
at least one digit and an exponent with at least one digit, both optional. A number without
point and exponent is an integer if it is in range; a double must not overflow. -/
def number? (negative : Bool) (cs : List Char) : Option JsonNumber :=
  let whole := cs.takeWhile Char.isDigit
  let rest := cs.dropWhile Char.isDigit
  let dangling := match rest with
    | '.' :: c :: _ => !c.isDigit
    | ['.'] => true
    | _ => false
  if !plainWhole whole || dangling then none
  else do
    let decimal ← Decimal.readUnsigned? cs
    let n : Int := if negative then -(decimal.units : Int) else decimal.units
    if h : rest = [] ∧ InWordRange n ∧ ¬ (negative = true ∧ n = 0) then
      some (.integer n h.2.1)
    else
      let x := { decimal with negative }.toFloat
      if x.isFinite then some (.real x) else none

/-- The value that a word spells. -/
def word? (cs : List Char) : Option Json :=
  if cs = "null".toList then some .null
  else if cs = "true".toList then some (.bool true)
  else if cs = "false".toList then some (.bool false)
  else match cs with
    | '-' :: cs => (number? true cs).map .number
    | cs => (number? false cs).map .number

end Token

/-! ## Scanning -/

/-- What has been seen of a token. Characters of a text or word are kept in reverse. -/
inductive Scan where
  /-- No token has been begun. -/
  | between
  | word (seen : List Char)
  | text (seen : List Char)
  /-- Behind a backslash. -/
  | escape (seen : List Char)
  /-- Inside the four digits of a code unit; `high` is the first half of a pair. -/
  | code (seen : List Char) (high : Option Nat) (digits : Nat) (value : Nat)
  /-- Behind the first half of a pair: its second half must follow. -/
  | pair (seen : List Char) (high : Nat)
  | pairEscape (seen : List Char) (high : Nat)

namespace Scan

/-- The white space of JSON. -/
def isSpace (c : Char) : Bool := c == ' ' || c == '\n' || c == '\t' || c == '\r'

/-- Begins a token, or passes over white space. -/
def start (tokens : List Token) (c : Char) : Scan × List Token :=
  if isSpace c then (.between, tokens)
  else if c = '"' then (.text [], tokens)
  else match Token.mark? c with
    | some mark => (.between, mark :: tokens)
    | none => (.word [c], tokens)

/-- The character that a one-letter escape stands for. -/
def escaped? (c : Char) : Option Char :=
  match c with
  | '"' => some '"'
  | '\\' => some '\\'
  | '/' => some '/'
  | 'b' => some (Char.ofNat 8)
  | 'f' => some (Char.ofNat 12)
  | 'n' => some '\n'
  | 'r' => some '\r'
  | 't' => some '\t'
  | _ => none

/-- What follows a complete code unit: the first half of a pair waits for the second, and a
second half must have a first. -/
def codeUnit (seen : List Char) (high : Option Nat) (unit : Nat) : Option Scan :=
  let isLow := 0xdc00 ≤ unit ∧ unit ≤ 0xdfff
  match high with
  | some first =>
    if isLow then
      some (.text (Char.ofNat (0x10000 + (first - 0xd800) * 0x400 + (unit - 0xdc00)) :: seen))
    else none
  | none =>
    if isLow then none
    else if 0xd800 ≤ unit ∧ unit ≤ 0xdbff then some (.pair seen unit)
    else some (.text (Char.ofNat unit :: seen))

/-- Reads one more character, with the tokens so far in reverse. -/
def step : Scan × List Token → Char → Option (Scan × List Token)
  | (.between, tokens), c => some (start tokens c)
  | (.word seen, tokens), c =>
    if isSpace c || c == '"' || (Token.mark? c).isSome then
      (Token.word? seen.reverse).map fun value => start (.word value :: tokens) c
    else some (.word (c :: seen), tokens)
  | (.text seen, tokens), c =>
    if c = '"' then some (.between, .text (String.ofList seen.reverse) :: tokens)
    else if c = '\\' then some (.escape seen, tokens)
    else if c.toNat < 32 then none
    else some (.text (c :: seen), tokens)
  | (.escape seen, tokens), c =>
    if c = 'u' then some (.code seen none 0 0, tokens)
    else (escaped? c).map fun d => (.text (d :: seen), tokens)
  | (.code seen high digits value, tokens), c => do
    let digit ← Quoted.hexValue? c
    let value := value * 16 + digit
    if digits = 3 then (codeUnit seen high value).map fun scan => (scan, tokens)
    else some (.code seen high (digits + 1) value, tokens)
  | (.pair seen high, tokens), c =>
    if c = '\\' then some (.pairEscape seen high, tokens) else none
  | (.pairEscape seen high, tokens), c =>
    if c = 'u' then some (.code seen (some high) 0 0, tokens) else none

/-- Ends the text: a word may be complete, anything else must be. -/
def finish : Scan × List Token → Option (List Token)
  | (.between, tokens) => some tokens.reverse
  | (.word seen, tokens) =>
    (Token.word? seen.reverse).map fun value => (Token.word value :: tokens).reverse
  | _ => none

end Scan

/-- The tokens of a text. -/
def tokens? (cs : List Char) : Option (List Token) :=
  (cs.foldlM Scan.step (.between, [])).bind Scan.finish

end FormValidation.Json
