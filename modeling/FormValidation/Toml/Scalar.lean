import FormValidation.Calendar.Written
import FormValidation.Json.Basic
import FormValidation.Number.Decimal

/-!
# TOML scalars

The numbers, literals, dates and times of TOML, as JSON values. Underscores may stand between
digits. Values that JSON does not have become the nearest thing: infinities and non-numbers become
`null`, and a date or a time becomes a map with its text under a key of its own.
-/

namespace FormValidation.Toml

/-- The key under which the text of a date or a time is kept. -/
def dateKey : String := "$__toml_private_datetime"

/-- The digits of a numeral in which single underscores may stand between digits. -/
def plainDigits? (isDigit : Char → Bool) : List Char → Option (List Char)
  | [] => none
  | [c] => if isDigit c then some [c] else none
  | c :: '_' :: rest => if isDigit c then (plainDigits? isDigit rest).map (c :: ·) else none
  | c :: d :: rest => if isDigit c then (plainDigits? isDigit (d :: rest)).map (c :: ·) else none

/-- The value of a digit of a base up to sixteen. -/
def digitOf? (base : Nat) (c : Char) : Option Nat :=
  let value := if c.isDigit then c.toNat - 48
    else if 'a' ≤ c ∧ c ≤ 'f' then c.toNat - 87
    else if 'A' ≤ c ∧ c ≤ 'F' then c.toNat - 55
    else 16
  if value < base then some value else none

/-- A natural number in a base. -/
def inBase? (base : Nat) (cs : List Char) : Option Nat := do
  let digits ← plainDigits? (fun c => (digitOf? base c).isSome) cs
  some (digits.foldl (fun n c => base * n + (digitOf? base c).getD 0) 0)

/-- The digits of a whole number without leading zeros. -/
def wholeDigits? (cs : List Char) : Option (List Char) := do
  let digits ← plainDigits? Char.isDigit cs
  match digits with
  | '0' :: _ :: _ => none
  | digits => some digits

/-- An integer that 64 bits hold. -/
def ofInteger? (n : Int) : Option Json :=
  if h : InWordRange n then some (.number (.integer n h)) else none

/-- Digits that a number may have, with underscores. -/
def isDigitOrMark (c : Char) : Bool := c.isDigit || c == '_'

/-- The exponent of a number, with its mark: a sign and digits, in which zeros may lead. -/
def exponent? : List Char → Option (List Char)
  | [] => some []
  | e :: rest =>
    if e = 'e' ∨ e = 'E' then
      match rest with
      | '+' :: digits => (plainDigits? Char.isDigit digits).map ('e' :: ·)
      | '-' :: digits => (plainDigits? Char.isDigit digits).map fun ds => 'e' :: '-' :: ds
      | digits => (plainDigits? Char.isDigit digits).map ('e' :: ·)
    else none

/-- A number without a sign: an integer, or a double if it has a fraction or an exponent. -/
def number? (negative : Bool) (cs : List Char) : Option Json := do
  let whole ← wholeDigits? (cs.takeWhile isDigitOrMark)
  let rest := cs.dropWhile isDigitOrMark
  if rest.isEmpty then
    let n : Int := Nat.ofDigitChars 10 whole 0
    ofInteger? (if negative then -n else n)
  else
    let (fraction, rest) ← match rest with
      | '.' :: rest => do
        let digits ← plainDigits? Char.isDigit (rest.takeWhile isDigitOrMark)
        some ('.' :: digits, rest.dropWhile isDigitOrMark)
      | rest => some ([], rest)
    let exponent ← exponent? rest
    let decimal ← Decimal.readUnsigned? (whole ++ fraction ++ exponent)
    let x := { decimal with negative }.toFloat
    if x.isFinite then some (.number (.real x)) else none

/-- A number, or one of the values that are none. -/
def signedNumber? (cs : List Char) : Option Json :=
  let special (cs : List Char) : Bool := cs = "inf".toList || cs = "nan".toList
  match cs with
  | '+' :: cs => if special cs then some .null else number? false cs
  | '-' :: cs => if special cs then some .null else number? true cs
  | '0' :: 'x' :: digits => (inBase? 16 digits).bind fun n => ofInteger? n
  | '0' :: 'o' :: digits => (inBase? 8 digits).bind fun n => ofInteger? n
  | '0' :: 'b' :: digits => (inBase? 2 digits).bind fun n => ofInteger? n
  | cs => if special cs then some .null else number? false cs

/-! ## Dates and times -/

/-- The rest of a text behind a date that exists. -/
def afterDate? (cs : List Char) : Option (List Char) := do
  let (year, cs) ← Moment.readDigits? 4 cs
  let cs ← Moment.expect? '-' cs
  let (month, cs) ← Moment.readDigits? 2 cs
  let cs ← Moment.expect? '-' cs
  let (day, cs) ← Moment.readDigits? 2 cs
  let _ ← Date.ofFields? year month day
  some cs

/-- The rest of a text behind a time of day, whose seconds may be left out. -/
def afterTime? (cs : List Char) : Option (List Char) := do
  let (hour, cs) ← Moment.readDigits? 2 cs
  let cs ← Moment.expect? ':' cs
  let (minute, cs) ← Moment.readDigits? 2 cs
  if 23 < hour ∨ 59 < minute then none
  else match cs with
    | ':' :: cs => do
      let (second, cs) ← Moment.readDigits? 2 cs
      let (_, cs) ← Moment.readFraction? cs
      if 60 < second then none else some cs
    | cs => some cs

/-- Whether a text is an offset, or empty. -/
def isOffset (cs : List Char) : Bool :=
  match cs with
  | [] => true
  | ['Z'] => true
  | ['z'] => true
  | sign :: cs =>
    let read : Option (Nat × Nat × List Char) := do
      let (hours, cs) ← Moment.readDigits? 2 cs
      let cs ← Moment.expect? ':' cs
      let (minutes, cs) ← Moment.readDigits? 2 cs
      some (hours, minutes, cs)
    match read with
    | some (hours, minutes, []) =>
      (sign == '+' || sign == '-') && hours ≤ 24 && minutes ≤ 59 && hours * 60 + minutes ≤ 1440
    | _ => false

/-- Whether a text is a date, a date with a time, or a time. -/
def isDateOrTime (cs : List Char) : Bool :=
  match afterDate? cs with
  | some [] => true
  | some (delimiter :: rest) =>
    (delimiter == 'T' || delimiter == 't' || delimiter == ' ') &&
      (match afterTime? rest with
        | some offset => isOffset offset
        | none => false)
  | none => afterTime? cs == some []

/-- The value of a text that is not quoted. -/
def scalar? (cs : List Char) : Option Json :=
  if cs = "true".toList then some (.bool true)
  else if cs = "false".toList then some (.bool false)
  else if isDateOrTime cs then some (.object [(dateKey, .string (String.ofList cs))])
  else signedNumber? cs

end FormValidation.Toml
