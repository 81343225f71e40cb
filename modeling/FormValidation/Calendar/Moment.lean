import FormValidation.Calendar.Date

/-!
# Moments

A moment is an instant together with the offset of the local calendar in which it is shown. Only
the instant counts when moments are compared; the offset decides the date and the time of day
(`Moment.date`, `Moment.hour`, …) that the moment has.
-/

namespace FormValidation

/-- An instant seen in a local calendar. -/
structure Moment where
  /-- Nanoseconds since the midnight at which day 0 began in universal time. -/
  instant : Int
  /-- How many seconds the local calendar is ahead of universal time. -/
  offset : Int
  deriving DecidableEq

namespace Moment

/-- Nanoseconds in a second. -/
def second : Int := 1000000000

/-- Seconds since local midnight of day 0. -/
def localSeconds (m : Moment) : Int := m.instant / second + m.offset

/-- Seconds since the local midnight before the moment. -/
def secondOfDay (m : Moment) : Nat := (m.localSeconds % 86400).toNat

/-- The local date. -/
def date (m : Moment) : Date := Date.ofDayNumber (m.localSeconds / 86400)

/-- The hour of the local time of day. -/
def hour (m : Moment) : Nat := m.secondOfDay / 3600

/-- The minute of the hour. -/
def minute (m : Moment) : Nat := m.secondOfDay / 60 % 60

/-- The second of the minute. -/
def secondOfMinute (m : Moment) : Nat := m.secondOfDay % 60

/-- The nanoseconds of the second. -/
def nanosecond (m : Moment) : Nat := (m.instant % second).toNat

/-- The moment at which a local calendar shows a date and a time of day. -/
def ofLocal (d : Date) (hour minute second nanosecond : Nat) (offset : Int) : Moment :=
  ⟨(d.dayNumber * 86400 + hour * 3600 + minute * 60 + second - offset) * Moment.second
      + nanosecond, offset⟩

/-- The same instant in the local calendar of another offset. -/
def withOffset (m : Moment) (offset : Int) : Moment := ⟨m.instant, offset⟩

/-- Whether two moments are the same instant. -/
def same (a b : Moment) : Bool := a.instant == b.instant

/-- Moments compare by their instants. -/
def compare (a b : Moment) : Ordering := Ord.compare a.instant b.instant

/-- The seconds from `b` to `a`: the whole seconds and the rest in billionths, both cut toward
zero, are added as doubles. -/
def secondsSince (a b : Moment) : Float :=
  let difference := a.instant - b.instant
  Float.ofInt (difference.tdiv second) + Float.ofInt (difference.tmod second) / 1000000000.0

@[simp] theorem instant_withOffset (m : Moment) (offset : Int) :
    (m.withOffset offset).instant = m.instant := rfl

@[simp] theorem offset_withOffset (m : Moment) (offset : Int) :
    (m.withOffset offset).offset = offset := rfl

end Moment

/-- The clock that conditions may ask: one moment, which does not move on. -/
structure Clock where
  /-- The captured moment. -/
  now : Moment
  deriving DecidableEq

namespace Clock

/-- The calendar date of the clock's moment, at the clock's offset. -/
def today (c : Clock) : Date := c.now.date

/-- Days from today until a date, negative for a date that is past. -/
def daysUntil (c : Clock) (d : Date) : Int := d.dayNumber - c.today.dayNumber

/-- The clock at the same instant in the local calendar of another offset. -/
def withOffset (c : Clock) (offset : Int) : Clock := ⟨c.now.withOffset offset⟩

end Clock

end FormValidation
