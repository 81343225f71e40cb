import FormValidation.Condition.Eval
import FormValidation.Proofs.Calendar.IsoDates
import FormValidation.Proofs.Condition.ComparisonChains

/-!
# Counting days and comparing dates

A condition can ask in two ways how far off a date is, of the clock by `days_until` and by taking
the difference of two dates, and in three ways whether it is to come, is today or is past.  A text
that spells a date is read on each of these ways by itself.  This file says that they all agree
(`Expr.day_counts_agree`).

Where a date is wanted, a text may also spell a moment.  Which of the two is tried first does not
matter, since no text spells both: a date is written without colons (`Date.isPartMark_of_read?`),
and a moment has them between hours, minutes and seconds (`Moment.colon_mem_of_read?`).
-/

namespace FormValidation

/-! ## No text spells a date and a moment -/

/-- The characters that a date may be spelled with. -/
def isPartMark (c : Char) : Bool := c.isDigit || c == '+' || c == '-'

/-- Every character of a text is in one of its parts or stands between two. -/
lemma mem_splitAt (separator : Char) {c : Char} {cs : List Char} (h : c ∈ cs) :
    c = separator ∨ ∃ part ∈ splitAt separator cs, c ∈ part := by
  induction cs with
  | nil => cases h
  | cons d ds ih =>
      rw [splitAt]
      by_cases hd : d = separator
      · rw [if_pos hd]
        rcases List.mem_cons.1 h with rfl | h
        · exact .inl hd
        · rcases ih h with hc | ⟨part, hpart, hc⟩
          · exact .inl hc
          · exact .inr ⟨part, List.mem_cons_of_mem _ hpart, hc⟩
      · rw [if_neg hd]
        cases hparts : splitAt separator ds with
        | nil =>
            rw [hparts] at ih
            rcases List.mem_cons.1 h with rfl | h
            · exact .inr ⟨[c], List.mem_singleton_self _, List.mem_singleton_self c⟩
            · rcases ih h with hc | ⟨part, hpart, -⟩
              · exact .inl hc
              · cases hpart
        | cons first parts =>
            rw [hparts] at ih
            rcases List.mem_cons.1 h with rfl | h
            · exact .inr ⟨c :: first, List.mem_cons_self, List.mem_cons_self⟩
            · rcases ih h with hc | ⟨part, hpart, hc⟩
              · exact .inl hc
              · rcases List.mem_cons.1 hpart with rfl | hpart
                · exact .inr ⟨d :: part, List.mem_cons_self, List.mem_cons_of_mem d hc⟩
                · exact .inr ⟨part, List.mem_cons_of_mem _ hpart, hc⟩

lemma isDigit_of_nat? {cs : List Char} {n : Nat} (h : Numeral.nat? cs = some n) :
    ∀ c ∈ cs, c.isDigit = true := by
  rw [Numeral.nat?] at h
  split at h
  · rename_i hdigits
    exact List.all_eq_true.1 (Bool.and_eq_true_iff.1 hdigits).2
  · cases h

lemma isPartMark_of_readPart? {cs : List Char} {n : Nat} (h : readPart? cs = some n) :
    ∀ c ∈ cs, isPartMark c = true := by
  have hdigits : ∀ {ds : List Char}, Numeral.nat? ds = some n → ∀ c ∈ ds, isPartMark c = true := by
    intro ds hread c hc
    rw [isPartMark, isDigit_of_nat? hread c hc]
    rfl
  rw [readPart?.eq_def] at h
  split at h
  · exact List.forall_mem_cons.2 ⟨rfl, hdigits h⟩
  · exact hdigits h

/-- **A text that spells a date** has no colon in it, nor anything else but digits and signs. -/
lemma Date.isPartMark_of_read? {cs : List Char} {d : Date} (h : Date.read? cs = some d) :
    ∀ c ∈ Text.trim cs, isPartMark c = true := by
  intro c hc
  rw [read?] at h
  split at h
  · rename_i year month day hparts
    obtain ⟨y, hyear, h⟩ := Option.bind_eq_some_iff.1 h
    obtain ⟨m, hmonth, h⟩ := Option.bind_eq_some_iff.1 h
    obtain ⟨n, hday, -⟩ := Option.bind_eq_some_iff.1 h
    rcases mem_splitAt '-' hc with rfl | ⟨part, hpart, hc⟩
    · rfl
    · rw [hparts] at hpart
      simp only [List.mem_cons, List.not_mem_nil, or_false] at hpart
      rcases hpart with rfl | rfl | rfl
      · exact isPartMark_of_readPart? hyear c hc
      · exact isPartMark_of_readPart? hmonth c hc
      · exact isPartMark_of_readPart? hday c hc
  · cases h

namespace Moment

lemma mem_of_readDigits? {count n : Nat} {cs rest : List Char}
    (h : readDigits? count cs = some (n, rest)) {c : Char} (hc : c ∈ rest) : c ∈ cs := by
  rw [readDigits?] at h
  split at h
  · obtain ⟨m, -, heq⟩ := Option.map_eq_some_iff.1 h
    cases heq
    exact List.mem_of_mem_drop hc
  · cases h

lemma eq_cons_of_expect? {c : Char} {cs rest : List Char} (h : expect? c cs = some rest) :
    cs = c :: rest := by
  cases cs with
  | nil => cases h
  | cons d ds =>
      rw [expect?] at h
      split at h
      · rename_i hd
        cases h
        rw [hd]
      · cases h

/-- **A text that spells a moment** has a colon in it, behind the hour. -/
lemma colon_mem_of_read? {cs : List Char} {m : Moment} (h : Moment.read? cs = some m) :
    ':' ∈ Text.trim cs := by
  rw [read?] at h
  obtain ⟨⟨year, afterYear⟩, hyear, h⟩ := Option.bind_eq_some_iff.1 h
  obtain ⟨beforeMonth, hhyphen, h⟩ := Option.bind_eq_some_iff.1 h
  obtain ⟨⟨month, afterMonth⟩, hmonth, h⟩ := Option.bind_eq_some_iff.1 h
  obtain ⟨beforeDay, hhyphen', h⟩ := Option.bind_eq_some_iff.1 h
  obtain ⟨⟨day, afterDay⟩, hday, h⟩ := Option.bind_eq_some_iff.1 h
  -- One character of any kind stands between the day and the hour.
  dsimp only at h
  split at h
  · rename_i separator beforeHour
    split at h
    · obtain ⟨_, ⟨⟩, h⟩ := Option.bind_eq_some_iff.1 h
      obtain ⟨⟨hour, afterHour⟩, hhour, h⟩ := Option.bind_eq_some_iff.1 h
      obtain ⟨beforeMinute, hcolon, -⟩ := Option.bind_eq_some_iff.1 h
      have hbehindHour : ':' ∈ afterHour := by
        have hbehind : afterHour = ':' :: beforeMinute := eq_cons_of_expect? hcolon
        rw [hbehind]
        exact List.mem_cons_self
      have hbehindDay : ':' ∈ separator :: beforeHour :=
        List.mem_cons_of_mem separator (mem_of_readDigits? hhour hbehindHour)
      have hbehindMonth : ':' ∈ afterMonth := by
        rw [eq_cons_of_expect? hhyphen']
        exact List.mem_cons_of_mem _ (mem_of_readDigits? hday hbehindDay)
      have hbehindYear : ':' ∈ afterYear := by
        rw [eq_cons_of_expect? hhyphen]
        exact List.mem_cons_of_mem _ (mem_of_readDigits? hmonth hbehindMonth)
      exact mem_of_readDigits? hyear hbehindYear
    · cases h
  · cases h

end Moment

/-- **No text spells both a date and a moment.** -/
lemma read?_eq_none_or (cs : List Char) : Date.read? cs = none ∨ Moment.read? cs = none := by
  cases hdate : Date.read? cs with
  | none => exact .inl rfl
  | some d =>
      cases hmoment : Moment.read? cs with
      | none => exact .inr rfl
      | some m =>
          have hcolon := Date.isPartMark_of_read? hdate ':' (Moment.colon_mem_of_read? hmoment)
          cases hcolon

/-! ## The days until a date -/

/-- The calendar has the years from -9999 to 9999. -/
def Date.InCalendar (d : Date) : Prop := -9999 ≤ d.year ∧ d.year ≤ 9999

lemma Date.natAbs_dayNumber_lt {d : Date} (h : d.InCalendar) :
    d.dayNumber.natAbs < 4000000 := by
  obtain ⟨hlow, hhigh⟩ := h
  obtain ⟨hmonth, hmonths, hday, hdays⟩ := d.exists_day
  have hend := monthEnd_le_year d.year hmonth hmonths
  have hleap : leapDays d.year ≤ 1 := by
    rw [leapDays]
    split <;> omega
  rw [dayNumber_eq, daysBeforeYear]
  omega

/-- A number of days between two dates fits into an integer. -/
lemma Date.toInt_sub_dayNumber {d e : Date} (hd : d.InCalendar) (he : e.InCalendar) :
    (Int64.ofInt (d.dayNumber - e.dayNumber)).toInt = d.dayNumber - e.dayNumber := by
  have hbound := natAbs_dayNumber_lt hd
  have hbound' := natAbs_dayNumber_lt he
  apply Int64.toInt_ofInt_of_le <;> omega

/-- Today is in the calendar. -/
def Clock.InCalendar (c : Clock) : Prop := c.today.InCalendar

section

variable {d e : Date} {s : String}

lemma Value.toDate_text (h : Date.read? s.toList = some d) : toDate (.text s) = .ok d := by
  rw [toDate, h]
  rfl

/-- A date compares with a text as with the date that the text spells. -/
lemma Value.compare_date_text (h : Date.read? s.toList = some e) :
    (date d).compare (.text s) = .ok (Ord.compare d.dayNumber e.dayNumber) := by
  have hdates : (date d).compareScalars (.text s) = some (Ord.compare d.dayNumber e.dayNumber) := by
    rw [compareScalars, h, ← Date.compare_eq]
    rfl
  rw [compare_of_ne_list (fun _ _ heq => by cases heq), hdates]

lemma Value.looseEq_date_text (h : Date.read? s.toList = some e) :
    (date d).looseEq (.text s) = decide (d.dayNumber = e.dayNumber) := by
  have hequal : d = e ↔ d.dayNumber = e.dayNumber := by
    rw [← Date.compare_eq_eq_iff, Date.compare_eq, Int.compare_eq_eq]
  have hspells : (date d).looseEq (.text s) = (some e == some d) := by
    rw [looseEq, spellsDate, h]
  rw [hspells, Bool.eq_iff_iff, beq_iff_eq, decide_eq_true_iff, ← hequal, Option.some_inj,
    eq_comm]

end

namespace Expr

/-- A question to the clock, which conditions know as `timezone`. -/
def askClock (question : String) (arguments : List Expr) : Expr :=
  .method (.name "timezone") question arguments

/-- The date of today. -/
def today : Expr := askClock "today" []

/-- The days until the date that a text spells, as the clock counts them. -/
def daysUntil (text : Expr) : Expr := askClock "days_until" [text]

/-- The days until the date that a text spells, as the difference of two dates. -/
def daysFromToday (text : Expr) : Expr := .arithmetic .sub (askClock "parse_date" [text]) today

section

variable {context : Context} {c : Clock} {text : Expr} {s : String} {d : Date}
  (hclock : context.find? "timezone" = some (.clock c))
include hclock

lemma eval_askClock {arguments : List Expr} {vs : List Value}
    (harguments : evalAll context arguments = .ok vs) (question : String) :
    (askClock question arguments).eval context = Value.clockMethod c question vs := by
  rw [askClock, eval, eval, hclock, harguments]
  rfl

lemma eval_today : today.eval context = .ok (.date c.today) := by
  have harguments : evalAll context [] = .ok [] := rfl
  rw [today, eval_askClock hclock harguments]
  rfl

variable (htext : text.eval context = .ok (.text s)) (hread : Date.read? s.toList = some d)
include htext

lemma eval_compare_today (op : Comparison) :
    (comparison today [(op, text)]).eval context =
      (op.holds (.date c.today) (.text s)).map .bool := by
  rw [eval_comparison_single (eval_today hclock), htext]
  show (op.holds _ _ >>= fun holds => Except.ok (Value.bool holds)) = _
  cases op.holds (.date c.today) (.text s) <;> rfl

include hread

lemma eval_daysUntil :
    (daysUntil text).eval context =
      .ok (.int (Int64.ofInt (d.dayNumber - c.today.dayNumber))) := by
  have harguments : evalAll context [text] = .ok [.text s] := by
    rw [evalAll, htext]
    rfl
  have hdate : oneArgument "days_until" [.text s] >>= Value.toDate = .ok d :=
    Value.toDate_text hread
  rw [daysUntil, eval_askClock hclock harguments]
  show (oneArgument "days_until" [.text s] >>= Value.toDate).map _ = _
  rw [hdate]
  rfl

lemma eval_daysFromToday :
    (daysFromToday text).eval context =
      .ok (.int (Int64.ofInt (d.dayNumber - c.today.dayNumber))) := by
  have harguments : evalAll context [text] = .ok [.text s] := by
    rw [evalAll, htext]
    rfl
  have hparse : (askClock "parse_date" [text]).eval context = .ok (.date d) := by
    rw [eval_askClock hclock harguments]
    exact Value.parse_date_text c hread
  rw [daysFromToday, eval, hparse, eval_today hclock]
  rfl

end

/-- **Counting days agrees with the order of dates.**  For a text that spells a date, `days_until`
and the difference of that date and today are the same number, which is the distance of their day
numbers.  It is positive, zero or negative as today is before, equal to or after the text.  And no
text spells a date and a moment, so it does not matter which of them is tried first. -/
theorem day_counts_agree (c : Clock) (hc : c.InCalendar) :
    (∀ (context : Context) (text : Expr) (s : String) (d : Date),
      context.find? "timezone" = some (.clock c) → text.eval context = .ok (.text s) →
      Date.read? s.toList = some d →
      ∃ days : Int64, days.toInt = d.dayNumber - c.today.dayNumber ∧
        (daysUntil text).eval context = .ok (.int days) ∧
        (daysFromToday text).eval context = .ok (.int days) ∧
        (comparison today [(.lt, text)]).eval context = .ok (.bool (decide (0 < days.toInt))) ∧
        (comparison today [(.eq, text)]).eval context = .ok (.bool (decide (days.toInt = 0))) ∧
        (comparison today [(.gt, text)]).eval context = .ok (.bool (decide (days.toInt < 0)))) ∧
    (∀ s : String, Date.read? s.toList = none ∨ Moment.read? s.toList = none) ∧
    ∀ s : String, Value.toDate (.text s) =
      match ((Moment.read? s.toList).map Moment.date).orElse fun _ => Date.read? s.toList with
      | some d => .ok d
      | none => .error (.argument (.notDate s)) := by
  refine ⟨fun context text s d hclock htext hread => ?_, fun s => read?_eq_none_or s.toList, ?_⟩
  · have hd : d.InCalendar := by
      obtain ⟨hlow, hhigh⟩ := Date.inRange_of_read? hread
      exact ⟨by omega, hhigh⟩
    have hdays := Date.toInt_sub_dayNumber hd hc
    refine ⟨_, hdays, eval_daysUntil hclock htext hread, eval_daysFromToday hclock htext hread,
      ?_, ?_, ?_⟩
    · rw [eval_compare_today hclock htext, hdays, Comparison.holds, Value.compare_date_text hread]
      refine congrArg (fun b => Except.ok (Value.bool b)) ?_
      rw [Bool.eq_iff_iff, beq_iff_eq, decide_eq_true_iff, Int.compare_eq_lt]
      omega
    · rw [eval_compare_today hclock htext, hdays, Comparison.holds, Value.looseEq_date_text hread]
      refine congrArg (fun b => Except.ok (Value.bool b)) ?_
      rw [decide_eq_decide]
      omega
    · rw [eval_compare_today hclock htext, hdays, Comparison.holds, Value.compare_date_text hread]
      refine congrArg (fun b => Except.ok (Value.bool b)) ?_
      rw [Bool.eq_iff_iff, beq_iff_eq, decide_eq_true_iff, Int.compare_eq_gt]
      omega
  · intro s
    rw [Value.toDate]
    rcases read?_eq_none_or s.toList with hnone | hnone
    · rw [hnone]
      cases Moment.read? s.toList <;> rfl
    · rw [hnone]
      cases Date.read? s.toList <;> rfl

/-- Half an hour before midnight on the 28th of February of a leap year, where it is already the
29th. -/
def leapNight : Clock := ⟨⟨(738944 * 86400 + 84600) * Moment.second, 3600⟩⟩

/-- There are three days from that night to the third of March, which is spelled without zeros. -/
theorem day_counts_agree_leapNight :
    leapNight.today = ⟨2024, 2, 29, by decide⟩ ∧
      Date.read? " 2024-3-3".toList = some ⟨2024, 3, 3, by decide⟩ ∧
      ∃ days : Int64, days.toInt = 3 ∧
        (daysUntil (.literal (.text " 2024-3-3"))).eval
          (KeyMap.ofList [("timezone", .clock leapNight)]) = .ok (.int days) ∧
        (daysFromToday (.literal (.text " 2024-3-3"))).eval
          (KeyMap.ofList [("timezone", .clock leapNight)]) = .ok (.int days) ∧
        (comparison today [(.lt, .literal (.text " 2024-3-3"))]).eval
          (KeyMap.ofList [("timezone", .clock leapNight)]) = .ok (.bool true) := by
  have htoday : leapNight.today = ⟨2024, 2, 29, by decide⟩ := by decide +kernel
  have hread : Date.read? " 2024-3-3".toList = some ⟨2024, 3, 3, by decide⟩ := by decide +kernel
  have hcalendar : leapNight.InCalendar := by
    rw [Clock.InCalendar, htoday]
    exact ⟨by decide, by decide⟩
  obtain ⟨days, hdays, huntil, hdifference, hless, -, -⟩ :=
    (day_counts_agree leapNight hcalendar).1 (KeyMap.ofList [("timezone", .clock leapNight)])
      (.literal (.text " 2024-3-3")) " 2024-3-3" _ rfl rfl hread
  have hthree : days.toInt = 3 := by
    rw [hdays, htoday]
    decide
  rw [hthree] at hless
  exact ⟨htoday, hread, days, hthree, huntil, hdifference, hless⟩

end Expr

end FormValidation
