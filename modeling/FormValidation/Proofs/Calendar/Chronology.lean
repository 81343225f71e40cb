import FormValidation.Proofs.Value.OrderAgreement

/-!
# The order of dates

Dates compare by year, then month, then day, and are counted by day numbers.  This file says that
the two agree: the date that comes first has the lesser number (`Date.compare_eq`).  A month ends
before any later one of its year begins (`Date.monthEnd_le`), and a year before any later year
(`Date.yearEnd_le`).
-/

namespace FormValidation.Date

/-! ## Years -/

/-- How many days a year has beyond 365. -/
def leapDays (year : Int) : Nat := if isLeapYear year then 1 else 0

lemma leapDays_cases (year : Int) :
    (leapDays year = 1 ∧ year % 4 = 0 ∧ (year % 100 ≠ 0 ∨ year % 400 = 0)) ∨
      (leapDays year = 0 ∧ (year % 4 ≠ 0 ∨ year % 100 = 0 ∧ year % 400 ≠ 0)) := by
  rw [leapDays, isLeapYear]
  split
  · rename_i h
    simp only [Bool.and_eq_true, Bool.or_eq_true, decide_eq_true_eq] at h
    exact .inl ⟨rfl, h⟩
  · rename_i h
    simp only [Bool.and_eq_true, Bool.or_eq_true, decide_eq_true_eq] at h
    exact .inr ⟨rfl, by omega⟩

lemma daysBeforeYear_succ (year : Int) :
    daysBeforeYear (year + 1) = daysBeforeYear year + 365 + leapDays year := by
  have h := leapDays_cases year
  simp only [daysBeforeYear]
  omega

/-- A year ends before any later one begins. -/
lemma yearEnd_le {year later : Int} (h : year < later) :
    daysBeforeYear year + 365 + leapDays year ≤ daysBeforeYear later := by
  rw [← daysBeforeYear_succ]
  simp only [daysBeforeYear]
  omega

/-! ## Months -/

/-- The days of a year before a month. -/
def daysBefore (year : Int) (month : Nat) : Nat :=
  daysBeforeMonth month + if 2 < month then leapDays year else 0

/-- Months are as long as in the year 0 or in the year 1, of which the first is a leap year. -/
lemma exists_fin_year (year : Int) : ∃ y : Fin 2, leapDays y = leapDays year ∧
    ∀ month, daysInMonth y month = daysInMonth year month := by
  cases h : isLeapYear year with
  | true => exact ⟨0, by simp [leapDays, h]; decide, fun month => by simp [daysInMonth, h]; rfl⟩
  | false => exact ⟨1, by simp [leapDays, h]; decide, fun month => by simp [daysInMonth, h]; rfl⟩

section

variable (year : Int) {month : Nat}

/-- A month ends before any later one of its year begins. -/
lemma monthEnd_le {later : Nat} (hmonth : 1 ≤ month) (h : month < later) (hlater : later ≤ 12) :
    daysBefore year month + daysInMonth year month ≤ daysBefore year later := by
  have key : ∀ y : Fin 2, ∀ n : Fin 13, ∀ m : Fin n.val, 1 ≤ m.val →
      daysBefore y m + daysInMonth y m ≤ daysBefore y n := by decide
  obtain ⟨y, hleap, hdays⟩ := exists_fin_year year
  have hend := key y ⟨later, by omega⟩ ⟨month, h⟩ hmonth
  rwa [hdays, daysBefore, daysBefore, hleap] at hend

/-- Every month ends with its year or before. -/
lemma monthEnd_le_year (hmonth : 1 ≤ month) (h : month ≤ 12) :
    daysBefore year month + daysInMonth year month ≤ 365 + leapDays year := by
  have key : ∀ y : Fin 2, ∀ m : Fin 13, 1 ≤ m.val →
      daysBefore y m + daysInMonth y m ≤ 365 + leapDays y := by decide
  obtain ⟨y, hleap, hdays⟩ := exists_fin_year year
  have hend := key y ⟨month, by omega⟩ hmonth
  rwa [hdays, daysBefore, hleap] at hend

end

/-! ## Days -/

lemma dayNumber_eq (d : Date) :
    d.dayNumber = daysBeforeYear d.year + (daysBefore d.year d.month + d.day : Nat) := by
  rw [dayNumber, daysBefore, leapDays]
  cases isLeapYear d.year <;> by_cases h : 2 < d.month <;> simp [h] <;> omega

/-- The date that comes first has the lesser number. -/
lemma dayNumber_lt {d e : Date} (h : d.compare e = .lt) : d.dayNumber < e.dayNumber := by
  obtain ⟨hmonth, hmonths, hday, hdays⟩ := d.exists_day
  obtain ⟨hmonth', hmonths', hday', hdays'⟩ := e.exists_day
  rw [dayNumber_eq, dayNumber_eq]
  simp only [compare, Ordering.then_eq_lt, Int.compare_eq_lt, Int.compare_eq_eq,
    Nat.compare_eq_lt, Nat.compare_eq_eq] at h
  rcases h with hyear | ⟨hyear, hlater | ⟨hsame, hlater⟩⟩
  · have hend := monthEnd_le_year d.year hmonth hmonths
    have hyears := yearEnd_le hyear
    omega
  · have hend := monthEnd_le d.year hmonth hlater hmonths'
    rw [← hyear]
    omega
  · rw [← hyear, ← hsame]
    omega

/-- **Dates are ordered as their day numbers are.** -/
theorem compare_eq (d e : Date) : d.compare e = Ord.compare d.dayNumber e.dayNumber := by
  cases h : d.compare e with
  | lt => exact (Int.compare_eq_lt.2 (dayNumber_lt h)).symm
  | eq => rw [compare_eq_eq_iff.1 h, Int.compare_eq_eq.2 rfl]
  | gt =>
      have hback : e.compare d = .lt := by rw [compare_swap d e, h]; rfl
      exact (Int.compare_eq_gt.2 (dayNumber_lt hback)).symm

end FormValidation.Date
