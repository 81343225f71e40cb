import FormValidation.Toml.Value

/-!
# Reading TOML

A TOML document is a sequence of lines: headers of tables, and keys with their values, which belong
to the table of the last header. `Toml.read?` gives the document as a JSON object.
-/

namespace FormValidation.Toml

/-- How deeply arrays and inline tables may be nested. -/
def maxDepth : Nat := 80

/-- What has been read so far: the top table, and the parts of the last header. -/
structure Reading where
  root : List (String × Node)
  header : List String

/-- What follows the end of a line. -/
def afterLine? (ts : List Token) : Option (List Token) :=
  match skipSpace ts with
  | [] => some []
  | .newline :: rest => some rest
  | _ => none

namespace Reading

/-- Reads one statement from a line that is not blank, and gives the tokens behind its line. -/
def statement? (r : Reading) (ts : List Token) : Option (Reading × List Token) :=
  match ts with
  | .openBracket :: .openBracket :: rest => do
    let parts ← keyPath? (rest.takeWhile (· ≠ .closeBracket))
    let (path, key) ← splitKey? parts
    match rest.dropWhile (· ≠ .closeBracket) with
    | .closeBracket :: .closeBracket :: rest => do
      let rest ← afterLine? rest
      let root ← Node.under (Node.openElement key) path r.root
      some (⟨root, parts⟩, rest)
    | _ => none
  | .openBracket :: rest => do
    let parts ← keyPath? (rest.takeWhile (· ≠ .closeBracket))
    let (path, key) ← splitKey? parts
    let rest ← afterLine? ((rest.dropWhile (· ≠ .closeBracket)).drop 1)
    let root ← Node.under (Node.openTable key) path r.root
    some (⟨root, parts⟩, rest)
  | ts => do
    let (path, key) ← (keyPath? (ts.takeWhile (· ≠ .equals))).bind splitKey?
    let (v, rest) ← readValue maxDepth (skipSpace ((ts.dropWhile (· ≠ .equals)).drop 1))
    let rest ← afterLine? rest
    let root ← Node.under (Node.put key v true path) r.header r.root
    some (⟨root, r.header⟩, rest)

/-- Reads all lines; `fuel` bounds how many there are. -/
def lines? : (fuel : Nat) → Reading → List Token → Option Reading
  | 0, _, _ => none
  | fuel + 1, r, ts =>
    match skipBlank ts with
    | [] => some r
    | ts => do
      let (r, rest) ← r.statement? ts
      lines? fuel r rest

end Reading

/-- Reads a document. -/
def read? (cs : List Char) : Option Json := do
  let ts ← tokens? cs
  let r ← Reading.lines? (ts.length + 1) ⟨[], []⟩ ts
  some (.object (Node.entriesToJson r.root))

end FormValidation.Toml
