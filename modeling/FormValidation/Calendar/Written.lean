import FormValidation.Number.Numeral
import FormValidation.Text.Blank
import FormValidation.Calendar.Moment

/-!
# Dates and moments as text

A date is written as year, month and day with hyphens; `Date.read?` also takes parts with other
numbers of digits. A moment is written in the internet profile of the ISO notation, with the
offset behind the time; one whose year or offset has no place in that profile is written with
spaces and a full offset instead. Both readers first drop blanks at the ends.
-/

namespace FormValidation

/-- The parts of a text between the occurrences of a character; one more than there are
occurrences. -/
def splitAt (separator : Char) : List Char → List (List Char)
  | [] => [[]]
  | c :: cs =>
    if c = separator then [] :: splitAt separator cs
    else match splitAt separator cs with
      | part :: parts => (c :: part) :: parts
      | [] => [[c]]

theorem splitAt_eq_singleton {separator : Char} {cs : List Char} (h : separator ∉ cs) :
    splitAt separator cs = [cs] := by
  induction cs with
  | nil => rfl
  | cons c cs ih =>
    obtain ⟨hc, hcs⟩ := not_or.1 (mt List.mem_cons.2 h)
    rw [splitAt, if_neg (Ne.symm hc), ih hcs]

theorem splitAt_append {separator : Char} {cs : List Char} (h : separator ∉ cs)
    (rest : List Char) :
    splitAt separator (cs ++ separator :: rest) = cs :: splitAt separator rest := by
  induction cs with
  | nil => rw [List.nil_append, splitAt, if_pos rfl]
  | cons c cs ih =>
    obtain ⟨hc, hcs⟩ := not_or.1 (mt List.mem_cons.2 h)
    rw [List.cons_append, splitAt, if_neg (Ne.symm hc), ih hcs]

/-- A number without a minus sign; a plus sign may stand in front. -/
def readPart? (cs : List Char) : Option Nat :=
  match cs with
  | '+' :: digits => Numeral.nat? digits
  | digits => Numeral.nat? digits

namespace Date

/-- The first four digits of the year stand even if they are zero; a minus sign precedes them. -/
def yearText (year : Int) : List Char :=
  if year < 0 then '-' :: Numeral.padded 4 year.natAbs else Numeral.padded 4 year.natAbs

/-- Year, month and day with hyphens between them. -/
def text (d : Date) : List Char :=
  yearText d.year ++ '-' :: Numeral.padded 2 d.month ++ '-' :: Numeral.padded 2 d.day

/-- Reads three numbers between hyphens that name a day of the years up to 9999. -/
def read? (cs : List Char) : Option Date :=
  match splitAt '-' (Text.trim cs) with
  | [year, month, day] => do
    let year ← readPart? year
    let month ← readPart? month
    let day ← readPart? day
    if year ≤ 9999 then ofFields? year month day else none
  | _ => none

end Date

namespace Moment

/-! ## Writing -/

/-- The digits of a count of nanoseconds, without the zeros at the end. -/
def fractionText (nanosecond : Nat) : List Char :=
  ((Numeral.padded 9 nanosecond).reverse.dropWhile (· == '0')).reverse

/-- Whether the internet profile has a place for the year and the offset. -/
def inProfile (m : Moment) : Bool :=
  0 ≤ m.date.year && m.date.year ≤ 9999 && m.offset % 60 == 0 && m.offset.natAbs < 86400

/-- The offset as a sign and two digits each of hours and minutes. -/
def offsetText (offset : Int) : List Char :=
  (if offset < 0 then '-' else '+') :: Numeral.padded 2 (offset.natAbs / 3600) ++
    ':' :: Numeral.padded 2 (offset.natAbs / 60 % 60)

/-- The notation of the internet profile: no fraction if it is zero, and `Z` for offset zero. -/
def profileText (m : Moment) : List Char :=
  m.date.text ++ 'T' :: Numeral.padded 2 m.hour ++ ':' :: Numeral.padded 2 m.minute ++
    ':' :: Numeral.padded 2 m.secondOfMinute ++
    (if m.nanosecond = 0 then [] else '.' :: fractionText m.nanosecond) ++
    (if m.offset = 0 then ['Z'] else offsetText m.offset)

/-- The notation for all other moments: the hour is not padded, a fraction has at least one
digit, and the offset shows its seconds. -/
def plainText (m : Moment) : List Char :=
  m.date.text ++ ' ' :: Numeral.ofNat m.hour ++ ':' :: Numeral.padded 2 m.minute ++
    ':' :: Numeral.padded 2 m.secondOfMinute ++
    '.' :: (if m.nanosecond = 0 then ['0'] else fractionText m.nanosecond) ++
    ' ' :: offsetText m.offset ++ ':' :: Numeral.padded 2 (m.offset.natAbs % 60)

/-- The text of a moment. -/
def text (m : Moment) : List Char := if m.inProfile then m.profileText else m.plainText

/-! ## Reading -/

/-- Reads a number of exactly so many digits, and gives the rest. -/
def readDigits? (count : Nat) (cs : List Char) : Option (Nat × List Char) :=
  if (cs.take count).length = count then
    (Numeral.nat? (cs.take count)).map fun n => (n, cs.drop count)
  else none

/-- Drops the given character from the front. -/
def expect? (c : Char) : List Char → Option (List Char)
  | [] => none
  | d :: rest => if d = c then some rest else none

/-- Reads a fraction of a second, if a point stands in front, as nanoseconds; digits behind the
ninth do not count. -/
def readFraction? : List Char → Option (Nat × List Char)
  | '.' :: cs =>
    let digits := cs.takeWhile Char.isDigit
    if digits.isEmpty then none
    else
      let kept := digits.take 9
      some (Nat.ofDigitChars 10 kept 0 * Nat.pow 10 (9 - kept.length), cs.dropWhile Char.isDigit)
  | cs => some (0, cs)

/-- Reads an offset that ends the text: `Z`, or a sign with hours and minutes. -/
def readOffset? : List Char → Option Int
  | ['Z'] => some 0
  | ['z'] => some 0
  | sign :: cs => do
    let negative ← if sign = '-' then some true else if sign = '+' then some false else none
    let (hours, cs) ← readDigits? 2 cs
    let cs ← expect? ':' cs
    let (minutes, cs) ← readDigits? 2 cs
    if cs.isEmpty ∧ hours ≤ 23 ∧ minutes ≤ 59 then
      let seconds : Int := hours * 3600 + minutes * 60
      some (if negative then -seconds else seconds)
    else none
  | [] => none

/-- Whether a moment lies in the last second of a month in universal time, where a leap second
may follow. -/
def endsMonth (m : Moment) : Bool :=
  let universal := m.withOffset 0
  universal.secondOfDay == 86399 &&
    universal.date.day == daysInMonth universal.date.year universal.date.month

/-- Reads a moment: a date, one character of any kind that is a single byte, the time of day, a
fraction if there is one, and the offset. A leap second is taken for the last billionth before
it, and is refused where none can be. -/
def read? (cs : List Char) : Option Moment := do
  let (year, cs) ← readDigits? 4 (Text.trim cs)
  let cs ← expect? '-' cs
  let (month, cs) ← readDigits? 2 cs
  let cs ← expect? '-' cs
  let (day, cs) ← readDigits? 2 cs
  let cs ← match cs with
    | c :: cs => if c.toNat < 128 then some cs else none
    | [] => none
  let (hour, cs) ← readDigits? 2 cs
  let cs ← expect? ':' cs
  let (minute, cs) ← readDigits? 2 cs
  let cs ← expect? ':' cs
  let (second, cs) ← readDigits? 2 cs
  let (nanosecond, cs) ← readFraction? cs
  let offset ← readOffset? cs
  let date ← Date.ofFields? year month day
  if 23 < hour ∨ 59 < minute ∨ 60 < second then none
  else if second = 60 then
    let moment := ofLocal date hour minute 59 999999999 offset
    if moment.endsMonth then some moment else none
  else some (ofLocal date hour minute second nanosecond offset)

end Moment

end FormValidation
