import FormValidation.Toml.Scalar
import FormValidation.Toml.Table
import FormValidation.Toml.Token

/-!
# TOML values

Values are read from tokens: quoted texts, scalars, arrays and inline tables, which may be nested
80 deep. Line ends and comments may stand between the parts of arrays and inline tables, and a
comma behind the last part.
-/

namespace FormValidation.Toml

/-- Drops blanks. -/
def skipSpace : List Token → List Token
  | .space _ :: rest => skipSpace rest
  | ts => ts

/-- Drops blanks and line ends. -/
def skipBlank : List Token → List Token
  | .space _ :: rest => skipBlank rest
  | .newline :: rest => skipBlank rest
  | ts => ts

/-! ## Keys -/

/-- Characters of keys that need no quotes. -/
def isKeyChar (c : Char) : Bool := c.isAlphanum || c == '_' || c == '-'

/-- A single key. -/
def simpleKey? : Token → Option String
  | .word cs => if cs.all isKeyChar then some (String.ofList cs) else none
  | .text s false => some s
  | _ => none

/-- The parts of a key between dots. -/
def keyParts? : List Token → Option (List String)
  | [] => none
  | [t] => (simpleKey? t).map ([·])
  | t :: .dot :: rest => do
    let key ← simpleKey? t
    let parts ← keyParts? rest
    some (key :: parts)
  | _ :: _ :: _ => none

/-- The parts of a key, around which blanks may stand. -/
def keyPath? (ts : List Token) : Option (List String) :=
  keyParts? (ts.filter fun t => match t with
    | .space _ => false
    | _ => true)

/-- The path and the last part of a key. -/
def splitKey? (parts : List String) : Option (List String × String) :=
  parts.getLast?.map fun key => (parts.dropLast, key)

/-! ## Scalars -/

/-- The text of the words and dots in front. -/
def scalarText : List Token → List Char × List Token
  | .word cs :: rest =>
    let (text, rest) := scalarText rest
    (cs ++ text, rest)
  | .dot :: rest =>
    let (text, rest) := scalarText rest
    ('.' :: text, rest)
  | ts => ([], ts)

/-- A scalar in front; behind a date, a blank and a digit go on with its time. -/
def readScalar? (ts : List Token) : Option (Json × List Token) :=
  let (text, rest) := scalarText ts
  let joined := match rest with
    | .space ' ' :: .word (c :: cs) :: more =>
      if afterDate? text = some [] ∧ c.isDigit then
        let (time, rest) := scalarText (.word (c :: cs) :: more)
        (text ++ ' ' :: time, rest)
      else (text, rest)
    | _ => (text, rest)
  (scalar? joined.1).map fun v => (v, joined.2)

/-! ## Containers -/

/-- Reads the rest of an array behind the items seen so far, in reverse; `fuel` bounds how many
items there are. -/
def readItems (item : List Token → Option (Json × List Token)) :
    (fuel : Nat) → (seen : List Json) → List Token → Option (Json × List Token)
  | 0, _, _ => none
  | fuel + 1, seen, ts =>
    match skipBlank ts with
    | .closeBracket :: rest => some (.array seen.reverse, rest)
    | ts => do
      let (v, rest) ← item ts
      match skipBlank rest with
      | .comma :: rest => readItems item fuel (v :: seen) rest
      | .closeBracket :: rest => some (.array (v :: seen).reverse, rest)
      | _ => none

/-- Reads the rest of an inline table behind the entries seen so far. -/
def readEntries (item : List Token → Option (Json × List Token)) :
    (fuel : Nat) → (entries : List (String × Node)) → List Token → Option (Json × List Token)
  | 0, _, _ => none
  | fuel + 1, entries, ts =>
    match skipBlank ts with
    | .closeBrace :: rest => some (.object (Node.entriesToJson entries), rest)
    | ts => do
      let (path, key) ← (keyPath? (ts.takeWhile (· ≠ .equals))).bind splitKey?
      let (v, rest) ← item (skipSpace ((ts.dropWhile (· ≠ .equals)).drop 1))
      let entries ← Node.put key v true path entries
      match skipBlank rest with
      | .comma :: rest => readEntries item fuel entries rest
      | .closeBrace :: rest => some (.object (Node.entriesToJson entries), rest)
      | _ => none

/-- Reads a value in which containers are nested at most `depth` deep. -/
def readValue : (depth : Nat) → List Token → Option (Json × List Token)
  | 0, ts =>
    match ts with
    | .text s _ :: rest => some (.string s, rest)
    | ts => readScalar? ts
  | depth + 1, ts =>
    match ts with
    | .text s _ :: rest => some (.string s, rest)
    | .openBracket :: rest => readItems (readValue depth) (rest.length + 1) [] rest
    | .openBrace :: rest => readEntries (readValue depth) (rest.length + 1) [] rest
    | ts => readScalar? ts

end FormValidation.Toml
