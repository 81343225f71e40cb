/-!
# Calendar dates

Days of the Gregorian calendar, reckoned backwards and forwards without limit. A date is a year,
a month and a day that exist; `Date.dayNumber` counts days, with the first of January of year 1
as day 1, and `Date.ofDayNumber` is the date of a day. Dates are ordered as their fields are,
which is the order of their day numbers.
-/

namespace FormValidation

/-- Every fourth year, of the full centuries only every fourth. -/
def isLeapYear (year : Int) : Bool := year % 4 = 0 && (year % 100 ≠ 0 || year % 400 = 0)

/-- How many days a month has; months are counted from 1. -/
def daysInMonth (year : Int) (month : Nat) : Nat :=
  if month = 2 then if isLeapYear year then 29 else 28
  else if month = 4 ∨ month = 6 ∨ month = 9 ∨ month = 11 then 30
  else 31

/-- A day of the calendar. -/
structure Date where
  /-- The year; the year before 1 is 0. -/
  year : Int
  /-- The month, 1 to 12. -/
  month : Nat
  /-- The day of the month, from 1. -/
  day : Nat
  /-- The month has such a day. -/
  exists_day : 1 ≤ month ∧ month ≤ 12 ∧ 1 ≤ day ∧ day ≤ daysInMonth year month
  deriving DecidableEq

namespace Date

/-- The date of a year, a month and a day, if there is such a day. -/
def ofFields? (year : Int) (month day : Nat) : Option Date :=
  if h : 1 ≤ month ∧ month ≤ 12 ∧ 1 ≤ day ∧ day ≤ daysInMonth year month then
    some ⟨year, month, day, h⟩
  else none

/-- Dates compare by year, then month, then day. -/
def compare (a b : Date) : Ordering :=
  (Ord.compare a.year b.year).then ((Ord.compare a.month b.month).then (Ord.compare a.day b.day))

/-- The days of a year before a month, in a year that is not a leap year. -/
def daysBeforeMonth : Nat → Nat
  | 1 => 0 | 2 => 31 | 3 => 59 | 4 => 90 | 5 => 120 | 6 => 151
  | 7 => 181 | 8 => 212 | 9 => 243 | 10 => 273 | 11 => 304 | _ => 334

/-- The days before the first of January of a year. -/
def daysBeforeYear (year : Int) : Int :=
  365 * (year - 1) + (year - 1) / 4 - (year - 1) / 100 + (year - 1) / 400

/-- The number of a day; the first of January of year 1 is day 1. -/
def dayNumber (d : Date) : Int :=
  daysBeforeYear d.year + daysBeforeMonth d.month
    + (if isLeapYear d.year && 2 < d.month then 1 else 0) + d.day

/-! ## The date of a day

Counted from the first of March of year 0, a span of 400 years has 146097 days and the leap day is
the last day of its year. A century of the span has 36524 days, four years have 1461 and a year
has 365, but for the last one of each, which may have one more. The month follows from the day of
the year by the cycle of five months with 153 days. -/

/-- The place of a day in a span of 400 years: the year, from March to February, and the day of
that year, both from 0. -/
def yearAndDay (day : Nat) : Nat × Nat :=
  let century := min (day / 36524) 3
  let inCentury := day - 36524 * century
  let inFour := inCentury % 1461
  let year := min (inFour / 365) 3
  (100 * century + 4 * (inCentury / 1461) + year, inFour - 365 * year)

/-- The place of a day in a year from March to February: the month from 1 for January, whether it
lies in the next year, and the day of the month. -/
def monthAndDay (day : Nat) : Nat × Nat :=
  let month := (5 * day + 2) / 153
  (if month < 10 then month + 3 else month - 9, day - (153 * month + 2) / 5 + 1)

theorem isLeapYear_eq_true {year : Int} (h4 : year % 4 = 0)
    (h100 : year % 100 ≠ 0 ∨ year % 400 = 0) : isLeapYear year = true := by
  simp only [isLeapYear, h4]
  rcases h100 with h | h <;> simp [h]

/-- A year of the span has at most 366 days, and that many only before the first of March of a
leap year. -/
theorem yearAndDay_le {day : Nat} (h : day < 146097) (span : Int) :
    (yearAndDay day).2 ≤ 365 ∧ ((yearAndDay day).2 = 365 →
      isLeapYear (400 * span + (yearAndDay day).1 + 1) = true) := by
  simp only [yearAndDay]
  refine ⟨by omega, fun hlast => isLeapYear_eq_true (by omega) (by omega)⟩

theorem daysInMonth_monthAndDay {year : Int} {day : Nat} (h : day ≤ 365)
    (hleap : day = 365 → isLeapYear year = true) :
    1 ≤ (monthAndDay day).1 ∧ (monthAndDay day).1 ≤ 12 ∧ 1 ≤ (monthAndDay day).2 ∧
      (monthAndDay day).2 ≤ daysInMonth year (monthAndDay day).1 := by
  by_cases hlast : day = 365
  · subst hlast
    simp [monthAndDay, daysInMonth, hleap rfl]
  · have key : ∀ d : Fin 365, 1 ≤ (monthAndDay d).1 ∧ (monthAndDay d).1 ≤ 12 ∧
        1 ≤ (monthAndDay d).2 ∧ (monthAndDay d).2 ≤ daysInMonth 1 (monthAndDay d).1 := by
      decide +kernel
    have hd := key ⟨day, by omega⟩
    refine ⟨hd.1, hd.2.1, hd.2.2.1, Nat.le_trans hd.2.2.2 ?_⟩
    have hone : isLeapYear 1 = false := by decide
    simp only [daysInMonth, hone, Bool.false_eq_true, if_false]
    split
    · split <;> decide
    · exact Nat.le_refl _

/-- The date of a day number. -/
def ofDayNumber (n : Int) : Date :=
  let span := (n + 305) / 146097
  let day := ((n + 305) % 146097).toNat
  let inYear := (yearAndDay day).2
  let month := (monthAndDay inYear).1
  let year := 400 * span + (yearAndDay day).1 + (if month ≤ 2 then 1 else 0)
  ⟨year, month, (monthAndDay inYear).2, by
    have hday : day < 146097 := by omega
    have hle := yearAndDay_le hday span
    refine daysInMonth_monthAndDay hle.1 fun hlast => ?_
    have hyear : year = 400 * span + (yearAndDay day).1 + 1 := by
      have hmonth : month = 2 := by
        show (monthAndDay inYear).1 = 2
        rw [show inYear = 365 from hlast]
        decide
      show 400 * span + ((yearAndDay day).1 : Int) + (if month ≤ 2 then 1 else 0) = _
      rw [hmonth]
      rfl
    rw [hyear]
    exact hle.2 hlast⟩

end Date

end FormValidation
