/-!
# Quoted text

Text between double quotes as JSON writes it: the quote, the backslash and the control characters
are escaped, everything else stands for itself. `Quoted.encode` writes the inside of the quotes.
-/

namespace FormValidation.Quoted

/-- The lower case hexadecimal digit of a number below 16. -/
def hexDigit (n : Nat) : Char := if n < 10 then Char.ofNat (48 + n) else Char.ofNat (87 + n)

/-- The value of a hexadecimal digit. -/
def hexValue? (c : Char) : Option Nat :=
  if c.isDigit then some (c.toNat - 48)
  else if 'a' ≤ c ∧ c ≤ 'f' then some (c.toNat - 87)
  else if 'A' ≤ c ∧ c ≤ 'F' then some (c.toNat - 55)
  else none

/-- The text that stands for a character between quotes. -/
def encodeChar (c : Char) : List Char :=
  if c = '"' then ['\\', '"']
  else if c = '\\' then ['\\', '\\']
  else if c = '\n' then ['\\', 'n']
  else if c = '\r' then ['\\', 'r']
  else if c = '\t' then ['\\', 't']
  else if c.toNat = 8 then ['\\', 'b']
  else if c.toNat = 12 then ['\\', 'f']
  else if c.toNat < 32 then
    ['\\', 'u', '0', '0', hexDigit (c.toNat / 16), hexDigit (c.toNat % 16)]
  else [c]

/-- The inside of the quotes. -/
def encode (cs : List Char) : List Char := cs.flatMap encodeChar

/-- The text with its quotes. -/
def quote (cs : List Char) : List Char := '"' :: encode cs ++ ['"']

end FormValidation.Quoted
