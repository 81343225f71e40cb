import FormValidation.Json.Quoted

/-!
# TOML tokens

The tokens of a TOML document. What a run of other characters means, a key or a number or a date,
depends on where it stands, so it is kept as a word; quoted texts are kept as the text that they
stand for. A document is read one character at a time by `Scan.step`.
-/

namespace FormValidation.Toml

/-- A token. Blanks are kept, for they separate words; comments are not. -/
inductive Token where
  | space (c : Char)
  | newline
  | dot
  | equals
  | comma
  | openBracket
  | closeBracket
  | openBrace
  | closeBrace
  /-- A quoted text, written on one line or as a block. -/
  | text (s : String) (block : Bool)
  | word (cs : List Char)
  deriving DecidableEq

/-- The tokens of a single character. -/
def Token.mark? (c : Char) : Option Token :=
  match c with
  | ' ' => some (.space c)
  | '\t' => some (.space c)
  | '\r' => some (.space c)
  | '\n' => some .newline
  | '.' => some .dot
  | '=' => some .equals
  | ',' => some .comma
  | '[' => some .openBracket
  | ']' => some .closeBracket
  | '\x7b' => some .openBrace
  | '\x7d' => some .closeBrace
  | _ => none

/-- Whether every carriage return stands before a line feed. -/
def lineEndsValid : List Char → Bool
  | [] => true
  | [c] => c != '\r'
  | c :: d :: rest => (c != '\r' || d == '\n') && lineEndsValid (d :: rest)

/-- Characters that may stand in a text or a comment: no control characters but tabs. -/
def isText (c : Char) : Bool := c == '\t' || (0x20 ≤ c.toNat && c.toNat != 0x7f)

/-- What has been seen of a token; characters are kept in reverse. -/
inductive Scan where
  | between
  | word (seen : List Char)
  | comment
  /-- Behind one or two quotes that open a text. -/
  | opening (quote : Char) (count : Nat)
  /-- Inside a text on one line. -/
  | line (quote : Char) (seen : List Char)
  /-- Behind the quotes that open a block; a line end here is dropped. -/
  | blockStart (quote : Char)
  /-- Inside a block, behind so many quotes that may close it. -/
  | block (quote : Char) (seen : List Char) (quotes : Nat)
  /-- Behind a backslash. -/
  | escape (multiline : Bool) (seen : List Char)
  /-- Inside the digits of a code point, of which so many are left. -/
  | code (multiline : Bool) (seen : List Char) (left value : Nat)
  /-- Behind a backslash at the end of a line of a block: blanks are dropped. -/
  | skipping (seen : List Char) (lineEnded : Bool)

namespace Scan

/-- Begins a token. -/
def start (tokens : List Token) (c : Char) : Scan × List Token :=
  match Token.mark? c with
  | some mark => (.between, mark :: tokens)
  | none =>
    if c = '#' then (.comment, tokens)
    else if c = '"' ∨ c = '\'' then (.opening c 1, tokens)
    else (.word [c], tokens)

/-- Whether a character ends a word. -/
def endsWord (c : Char) : Bool := (Token.mark? c).isSome || c == '#' || c == '"' || c == '\''

/-- Inside a text that escapes are resolved in. -/
def resume (multiline : Bool) (seen : List Char) : Scan :=
  if multiline then .block '"' seen 0 else .line '"' seen

/-- A character of a text on one line. -/
def onLine (tokens : List Token) (quote : Char) (seen : List Char) (c : Char) :
    Option (Scan × List Token) :=
  if c = quote then some (.between, .text (String.ofList seen.reverse) false :: tokens)
  else if quote = '"' ∧ c = '\\' then some (.escape false seen, tokens)
  else if isText c then some (.line quote (c :: seen), tokens)
  else none

/-- A character of a block. Three to five quotes close it, and all but three belong to it. -/
def inBlock (tokens : List Token) (quote : Char) (seen : List Char) (quotes : Nat) (c : Char) :
    Option (Scan × List Token) :=
  let closed (extra : Nat) : Token :=
    .text (String.ofList (List.replicate extra quote ++ seen).reverse) true
  if c = quote then
    if quotes = 4 then some (.between, closed 2 :: tokens)
    else some (.block quote seen (quotes + 1), tokens)
  else if 3 ≤ quotes then some (start (closed (quotes - 3) :: tokens) c)
  else
    let seen := List.replicate quotes quote ++ seen
    if quote = '"' ∧ c = '\\' then some (.escape true seen, tokens)
    else if isText c ∨ c = '\n' ∨ c = '\r' then some (.block quote (c :: seen) 0, tokens)
    else none

/-- The character that a one-letter escape stands for. -/
def escaped? (c : Char) : Option Char :=
  match c with
  | 'b' => some (Char.ofNat 8)
  | 't' => some '\t'
  | 'n' => some '\n'
  | 'f' => some (Char.ofNat 12)
  | 'r' => some '\r'
  | 'e' => some (Char.ofNat 27)
  | '"' => some '"'
  | '\\' => some '\\'
  | _ => none

/-- How many digits follow the letter of a code point. -/
def codeDigits? (c : Char) : Option Nat :=
  match c with
  | 'x' => some 2
  | 'u' => some 4
  | 'U' => some 8
  | _ => none

/-- Reads one more character, with the tokens so far in reverse. -/
def step : Scan × List Token → Char → Option (Scan × List Token)
  | (.between, tokens), c => some (start tokens c)
  | (.word seen, tokens), c =>
    if endsWord c then some (start (.word seen.reverse :: tokens) c)
    else some (.word (c :: seen), tokens)
  | (.comment, tokens), c =>
    if c = '\n' then some (.between, .newline :: tokens)
    else if isText c ∨ c = '\r' then some (.comment, tokens)
    else none
  | (.opening quote count, tokens), c =>
    if count = 1 then
      if c = quote then some (.opening quote 2, tokens) else onLine tokens quote [] c
    else if c = quote then some (.blockStart quote, tokens)
    else some (start (.text "" false :: tokens) c)
  | (.line quote seen, tokens), c => onLine tokens quote seen c
  | (.blockStart quote, tokens), c =>
    if c = '\r' then some (.blockStart quote, tokens)
    else if c = '\n' then some (.block quote [] 0, tokens)
    else inBlock tokens quote [] 0 c
  | (.block quote seen quotes, tokens), c => inBlock tokens quote seen quotes c
  | (.escape multiline seen, tokens), c =>
    match escaped? c, codeDigits? c with
    | some d, _ => some (resume multiline (d :: seen), tokens)
    | none, some digits => some (.code multiline seen digits 0, tokens)
    | none, none =>
      if multiline ∧ (c = ' ' ∨ c = '\t' ∨ c = '\r') then some (.skipping seen false, tokens)
      else if multiline ∧ c = '\n' then some (.skipping seen true, tokens)
      else none
  | (.code multiline seen left value, tokens), c => do
    let digit ← Quoted.hexValue? c
    let value := value * 16 + digit
    if 1 < left then some (.code multiline seen (left - 1) value, tokens)
    else if value.isValidChar then some (resume multiline (Char.ofNat value :: seen), tokens)
    else none
  | (.skipping seen lineEnded, tokens), c =>
    if c = ' ' ∨ c = '\t' ∨ c = '\r' then some (.skipping seen lineEnded, tokens)
    else if c = '\n' then some (.skipping seen true, tokens)
    else if lineEnded then inBlock tokens '"' seen 0 c
    else none

/-- Ends the document: a text on one line must be closed. -/
def finish : Scan × List Token → Option (List Token)
  | (.between, tokens) => some tokens.reverse
  | (.comment, tokens) => some tokens.reverse
  | (.word seen, tokens) => some (Token.word seen.reverse :: tokens).reverse
  | (.opening _ count, tokens) =>
    if count = 2 then some (Token.text "" false :: tokens).reverse else none
  | (.block quote seen quotes, tokens) =>
    if 3 ≤ quotes then
      let content := (List.replicate (quotes - 3) quote ++ seen).reverse
      some (Token.text (String.ofList content) true :: tokens).reverse
    else none
  | _ => none

end Scan

/-- The tokens of a document; a byte order mark may stand in front. -/
def tokens? (cs : List Char) : Option (List Token) :=
  let cs := match cs with
    | c :: rest => if c.toNat = 0xfeff then rest else c :: rest
    | [] => []
  if lineEndsValid cs then (cs.foldlM Scan.step (.between, [])).bind Scan.finish else none

end FormValidation.Toml
