import FormValidation.Condition.Eval
import FormValidation.Proofs.Calendar.Chronology
import Mathlib.Data.List.Basic
import Mathlib.Data.List.Induction
import Mathlib.Data.String.Basic

/-!
# Dates as texts

A date is written with four digits of the year and two of the month and of the day.  Reading is more
lenient: parts may have fewer digits, more zeros and a plus sign, and blanks may surround the text.
This file says that what is written is read back (`Date.read?_text`), for the years that can be
read, and that the texts of dates are ordered as the dates are (`Date.compare_text`), so a date may
be compared as itself or as its text, in any combination.

The order rests on the zeros in front: two numbers with equally many digits compare as their digits
do, one by one (`compare_digits`).
-/

namespace FormValidation

/-! ## Digits compare as numbers -/

/-- Texts compare by the first characters that differ. -/
lemma compare_ofList (xs ys : List Char) :
    compare (String.ofList xs) (String.ofList ys) = compare xs ys := by
  show compareOfLessAndEq _ _ = List.compareLex compare xs ys
  simp only [compareOfLessAndEq, String.lt_iff_toList_lt, String.toList_ofList, String.ofList_inj]
  induction xs generalizing ys with
  | nil => cases ys <;> simp [List.compareLex]
  | cons x xs ih =>
      cases ys with
      | nil => simp [List.compareLex]
      | cons y ys =>
          have hhead : compare x y = compareOfLessAndEq x y := rfl
          rw [List.compareLex_cons_cons, ← ih, hhead]
          simp only [compareOfLessAndEq, List.cons_lt_cons_iff, List.cons.injEq]
          rcases lt_trichotomy x y with h | rfl | h
          · simp [h]
          · simp
          · simp [h.not_gt, h.ne']

lemma compare_append {xs xs' : List Char} (h : xs.length = xs'.length) (ys ys' : List Char) :
    compare (xs ++ ys) (xs' ++ ys') = (compare xs xs').then (compare ys ys') := by
  show List.compareLex compare _ _ = (List.compareLex compare xs xs').then _
  induction xs generalizing xs' with
  | nil =>
      rw [List.eq_nil_of_length_eq_zero h.symm, List.compareLex_nil_nil]
      rfl
  | cons x xs ih =>
      cases xs' with
      | nil => cases h
      | cons x' xs' =>
          rw [List.cons_append, List.cons_append, List.compareLex_cons_cons,
            List.compareLex_cons_cons, Ordering.then_assoc, ih (Nat.succ.inj h)]

/-- A character in front of both texts does not count. -/
lemma compare_cons_self (c : Char) (xs ys : List Char) :
    compare (c :: xs) (c :: ys) = compare xs ys := by
  have hself : compare c c = .eq := Std.ReflCmp.compare_self
  show List.compareLex compare _ _ = List.compareLex compare _ _
  rw [List.compareLex_cons_cons, hself]
  rfl

/-- The number that a digit stands for. -/
def digitValue (c : Char) : Nat := c.toNat - '0'.toNat

lemma digitValue_lt {c : Char} (h : c.isDigit) : digitValue c < 10 := by
  obtain ⟨hlow, hhigh⟩ := Char.isDigit_iff_toNat.1 h
  have hzero : '0'.toNat = 48 := rfl
  have hnine : '9'.toNat = 57 := rfl
  rw [digitValue]
  omega

lemma compare_digitValue {c d : Char} (hc : c.isDigit) (hd : d.isDigit) :
    compare c d = compare (digitValue c) (digitValue d) := by
  have hlow := (Char.isDigit_iff_toNat.1 hc).1
  have hlow' := (Char.isDigit_iff_toNat.1 hd).1
  have hlt : c < d ↔ digitValue c < digitValue d := by
    show c.toNat < d.toNat ↔ c.toNat - '0'.toNat < d.toNat - '0'.toNat
    omega
  have heq : c = d ↔ digitValue c = digitValue d := by
    rw [← Char.toNat_inj, digitValue, digitValue]
    omega
  show compareOfLessAndEq c d = compareOfLessAndEq _ _
  simp only [compareOfLessAndEq, hlt, heq]

/-- Numbers compare by their tens and then by their units. -/
lemma compare_tens {v w : Nat} (hv : v < 10) (hw : w < 10) (m n : Nat) :
    compare (10 * m + v) (10 * n + w) = (compare m n).then (compare v w) := by
  simp only [Nat.compare_eq_ite_lt]
  rcases lt_trichotomy m n with h | rfl | h
  · have hlt : 10 * m + v < 10 * n + w := by omega
    simp [h, hlt]
  · simp
  · have hlt : 10 * n + w < 10 * m + v := by omega
    simp [h, hlt, h.not_gt, hlt.not_gt]

/-- **Equally many digits compare as the numbers that they spell.** -/
lemma compare_digits {xs ys : List Char} (hxs : ∀ c ∈ xs, c.isDigit) (hys : ∀ c ∈ ys, c.isDigit)
    (h : xs.length = ys.length) :
    compare xs ys = compare (Nat.ofDigitChars 10 xs 0) (Nat.ofDigitChars 10 ys 0) := by
  induction xs using List.reverseRecOn generalizing ys with
  | nil =>
      rw [List.eq_nil_of_length_eq_zero h.symm]
      rfl
  | append_singleton xs x ih =>
      obtain ⟨ys, y, rfl⟩ : ∃ ys' y, ys = ys' ++ [y] := by
        rcases List.eq_nil_or_concat' ys with rfl | hys
        · simp at h
        · exact hys
      obtain ⟨hxs, hx⟩ := List.forall_mem_append.1 hxs
      obtain ⟨hys, hy⟩ := List.forall_mem_append.1 hys
      have hx := hx x (List.mem_singleton_self x)
      have hy := hy y (List.mem_singleton_self y)
      have hlength : xs.length = ys.length := by simpa using h
      have hlast : compare [x] [y] = compare x y := by
        show List.compareLex compare [x] [y] = _
        rw [List.compareLex_cons_cons, List.compareLex_nil_nil, Ordering.then_eq]
      rw [compare_append hlength, ih hxs hys hlength, hlast, compare_digitValue hx hy,
        ← compare_tens (digitValue_lt hx) (digitValue_lt hy), Nat.ofDigitChars_append,
        Nat.ofDigitChars_append]
      rfl

lemma length_padded_of_lt {width n : Nat} (hwidth : 0 < width) (h : n < 10 ^ width) :
    (Numeral.padded width n).length = width :=
  Numeral.length_padded ((Nat.length_toDigits_le_iff (by decide) hwidth).2 h)

lemma compare_padded {width m n : Nat} (hwidth : 0 < width) (hm : m < 10 ^ width)
    (hn : n < 10 ^ width) :
    compare (Numeral.padded width m) (Numeral.padded width n) = compare m n := by
  have hlength : (Numeral.padded width m).length = (Numeral.padded width n).length := by
    rw [length_padded_of_lt hwidth hm, length_padded_of_lt hwidth hn]
  rw [compare_digits (fun _ => Numeral.isDigit_of_mem_padded)
    (fun _ => Numeral.isDigit_of_mem_padded) hlength, Numeral.ofDigitChars_padded,
    Numeral.ofDigitChars_padded]

/-! ## The texts of dates -/

lemma readPart?_padded (width n : Nat) : readPart? (Numeral.padded width n) = some n := by
  have hread := Numeral.nat?_padded width n
  cases hcs : Numeral.padded width n with
  | nil => exact absurd hcs (Numeral.padded_ne_nil width n)
  | cons c cs =>
      have hfirst : c ∈ Numeral.padded width n := by
        rw [hcs]
        exact List.mem_cons_self
      have hdigit : c.isDigit := Numeral.isDigit_of_mem_padded hfirst
      have hplus : c ≠ '+' := by
        rintro rfl
        cases hdigit
      rw [hcs] at hread
      rw [readPart?.eq_2]
      · exact hread
      · intro rest heq
        exact hplus (List.cons.inj heq).1

namespace Date

/-- The date is of a year that can be read. -/
def InRange (d : Date) : Prop := 0 ≤ d.year ∧ d.year ≤ 9999

variable {d e : Date}

lemma text_eq (h : d.InRange) :
    d.text = Numeral.padded 4 d.year.natAbs ++
      '-' :: (Numeral.padded 2 d.month ++ '-' :: Numeral.padded 2 d.day) := by
  rw [text, yearText, if_neg (not_lt.2 h.1), List.append_assoc]
  rfl

lemma ofFields?_self (d : Date) : ofFields? d.year d.month d.day = some d := dif_pos d.exists_day

/-- **What is written is read back.** -/
lemma read?_text (h : d.InRange) : read? d.text = some d := by
  have hdigits : ∀ width n, ∀ c ∈ Numeral.padded width n, Text.isBlank c = false :=
    fun _ _ _ hc => Text.isBlank_of_isDigit (Numeral.isDigit_of_mem_padded hc)
  have hhyphen : ∀ width n, '-' ∉ Numeral.padded width n := fun _ _ hmem =>
    absurd (Numeral.isDigit_of_mem_padded hmem) (by decide)
  have hblank : ∀ c ∈ d.text, Text.isBlank c = false := by
    rw [text_eq h]
    simp only [List.forall_mem_append, List.forall_mem_cons]
    exact ⟨hdigits _ _, rfl, hdigits _ _, rfl, hdigits _ _⟩
  have hyear : (d.year.natAbs : Int) = d.year := Int.natAbs_of_nonneg h.1
  have hlast : d.year.natAbs ≤ 9999 := by
    have hle := h.2
    omega
  rw [read?, Text.trim_eq_self hblank, text_eq h, splitAt_append (hhyphen _ _),
    splitAt_append (hhyphen _ _), splitAt_eq_singleton (hhyphen _ _)]
  simp only [readPart?_padded, Option.bind_eq_bind, Option.bind_some, if_pos hlast, hyear,
    ofFields?_self]

lemma inRange_of_read? {cs : List Char} (h : read? cs = some d) : d.InRange := by
  rw [read?] at h
  split at h
  · rename_i year month day _
    obtain ⟨y, -, h⟩ := Option.bind_eq_some_iff.1 h
    obtain ⟨m, -, h⟩ := Option.bind_eq_some_iff.1 h
    obtain ⟨n, -, h⟩ := Option.bind_eq_some_iff.1 h
    split at h
    · rename_i hlast
      rw [ofFields?] at h
      split at h
      · cases h
        exact ⟨Int.natCast_nonneg y, Int.ofNat_le.2 hlast⟩
      · cases h
    · cases h
  · cases h

lemma daysInMonth_lt (year : Int) (month : Nat) : daysInMonth year month < 10 ^ 2 := by
  unfold daysInMonth
  split
  · split <;> omega
  · split <;> omega

/-- **The texts of dates compare as the dates do.** -/
lemma compare_text (hd : d.InRange) (he : e.InRange) :
    Ord.compare (String.ofList d.text) (String.ofList e.text) = d.compare e := by
  have hyear : ∀ x : Date, x.InRange → x.year.natAbs < 10 ^ 4 := by
    intro x hx
    unfold InRange at hx
    omega
  have hmonth : ∀ x : Date, x.month < 10 ^ 2 := fun x => by have h := x.exists_day.2.1; omega
  have hday : ∀ x : Date, x.day < 10 ^ 2 := fun x =>
    x.exists_day.2.2.2.trans_lt (daysInMonth_lt x.year x.month)
  have hlength : ∀ {n m : Nat}, n < 10 ^ 2 → m < 10 ^ 2 →
      (Numeral.padded 2 n).length = (Numeral.padded 2 m).length := fun hn hm =>
    (length_padded_of_lt (by decide) hn).trans (length_padded_of_lt (by decide) hm).symm
  have hlengthYear : (Numeral.padded 4 d.year.natAbs).length =
      (Numeral.padded 4 e.year.natAbs).length :=
    (length_padded_of_lt (by decide) (hyear d hd)).trans
      (length_padded_of_lt (by decide) (hyear e he)).symm
  have habs : Ord.compare d.year.natAbs e.year.natAbs = Ord.compare d.year e.year := by
    have hleft := hd.1
    have hright := he.1
    have hlt : d.year.natAbs < e.year.natAbs ↔ d.year < e.year := by omega
    have hgt : e.year.natAbs < d.year.natAbs ↔ e.year < d.year := by omega
    simp only [Nat.compare_eq_ite_lt, Int.compare_eq_ite_lt, hlt, hgt]
  rw [compare_ofList, text_eq hd, text_eq he, compare_append hlengthYear, compare_cons_self,
    compare_append (hlength (hmonth d) (hmonth e)), compare_cons_self,
    compare_padded (by decide) (hyear d hd) (hyear e he),
    compare_padded (by decide) (hmonth d) (hmonth e), compare_padded (by decide) (hday d) (hday e),
    habs, compare]

end Date

/-! ## Dates in conditions -/

namespace Value

variable {d e : Date}

/-- Of two dates either one may be given as its text. -/
lemma compare_dates (hd : d.InRange) (he : e.InRange) {v w : Value}
    (hv : v ∈ [date d, text (String.ofList d.text)])
    (hw : w ∈ [date e, text (String.ofList e.text)]) : v.compare w = .ok (d.compare e) := by
  have hread : ∀ x : Date, x.InRange → Date.read? (String.ofList x.text).toList = some x := by
    intro x hx
    rw [String.toList_ofList, Date.read?_text hx]
  have hscalars : v.compareScalars w = some (d.compare e) := by
    simp only [List.mem_cons, List.not_mem_nil, or_false] at hv hw
    rcases hv with rfl | rfl
    · rcases hw with rfl | rfl
      · rfl
      · rw [compareScalars, hread e he]
        rfl
    · rcases hw with rfl | rfl
      · rw [compareScalars, hread d hd]
        rfl
      · rw [compareScalars, Date.compare_text hd he]
  have hne : ∀ xs ys, v = .list xs → w ≠ .list ys := by
    rintro xs ys rfl
    simp at hv
  rw [compare_of_ne_list hne, hscalars]

/-- The clock reads a date off a text that spells one. -/
lemma parse_date_text (c : Clock) {s : String} (h : Date.read? s.toList = some d) :
    (clock c).callMethod "parse_date" [.text s] = .ok (.date d) := by
  have hdate : toDate (.text s) = .ok d := by
    rw [toDate, h]
    rfl
  simp only [callMethod, clockMethod, oneArgument]
  exact congrArg (Except.map date) hdate

/-- **Dates and their texts are interchangeable.**  A date that can be read is spelled by `str` so
that it is read back.  Two such dates compare in one way, each as itself or as its text: as their
day numbers do.  And each way they are loosely equal if they are the same date. -/
theorem iso_dates_agree {d e : Date} (hd : ∃ cs, Date.read? cs = some d)
    (he : ∃ cs, Date.read? cs = some e) :
    ∃ s t : String, callFunction "str" [.date d] = .ok (.text s) ∧
      callFunction "str" [.date e] = .ok (.text t) ∧
      Date.read? s.toList = some d ∧
      (∀ c : Clock, (clock c).callMethod "parse_date" [.text s] = .ok (.date d)) ∧
      ∀ v ∈ [date d, text s], ∀ w ∈ [date e, text t],
        v.compare w = .ok (Ord.compare d.dayNumber e.dayNumber) ∧ v.looseEq w = decide (d = e) := by
  obtain ⟨cs, hcs⟩ := hd
  obtain ⟨cs', hcs'⟩ := he
  have hd := Date.inRange_of_read? hcs
  have he := Date.inRange_of_read? hcs'
  have hread : Date.read? (String.ofList d.text).toList = some d := by
    rw [String.toList_ofList, Date.read?_text hd]
  refine ⟨String.ofList d.text, String.ofList e.text, rfl, rfl, hread,
    fun c => parse_date_text c hread, ?_⟩
  intro v hv w hw
  have hcompare := compare_dates hd he hv hw
  have hequal := looseEq_iff_of_compare v w hcompare
  rw [Date.compare_eq_eq_iff] at hequal
  refine ⟨by rw [hcompare, Date.compare_eq], ?_⟩
  rw [Bool.eq_iff_iff, hequal, decide_eq_true_iff]

/-- A date in February and one in December, which come the other way round if they are written as
they are read here. -/
theorem iso_dates_agree_padded :
    let february : Date := ⟨2024, 2, 9, by decide⟩
    let december : Date := ⟨2024, 12, 10, by decide⟩
    Date.read? " +2024-2-9".toList = some february ∧
      Date.read? "2024-12-10".toList = some december ∧
      (date february).compare (.text "2024-12-10") = .ok .lt ∧
      (text "2024-02-09").compare (.text "2024-12-10") = .ok .lt ∧
      (text "2024-02-09").looseEq (.date december) = false := by
  intro february december
  have hfebruary : Date.read? " +2024-2-9".toList = some february := by decide +kernel
  have hdecember : Date.read? "2024-12-10".toList = some december := by decide +kernel
  have hearly : String.ofList february.text = "2024-02-09" := by decide +kernel
  have hlate : String.ofList december.text = "2024-12-10" := by decide +kernel
  have hearlier : Ord.compare february.dayNumber december.dayNumber = .lt := by decide
  obtain ⟨s, t, hs, ht, -, -, hsame⟩ := iso_dates_agree ⟨_, hfebruary⟩ ⟨_, hdecember⟩
  obtain rfl : "2024-02-09" = s := by
    rw [← hearly]
    exact Value.text.inj (Except.ok.inj hs)
  obtain rfl : "2024-12-10" = t := by
    rw [← hlate]
    exact Value.text.inj (Except.ok.inj ht)
  rw [hearlier] at hsame
  have hdate := List.mem_cons_self (a := date february) (l := [.text "2024-02-09"])
  have hdate' := List.mem_cons_self (a := date december) (l := [.text "2024-12-10"])
  have htext := List.mem_cons_of_mem (date february) (List.mem_singleton_self (text "2024-02-09"))
  have htext' := List.mem_cons_of_mem (date december) (List.mem_singleton_self (text "2024-12-10"))
  exact ⟨hfebruary, hdecember, (hsame _ hdate _ htext').1, (hsame _ htext _ htext').1,
    (hsame _ htext _ hdate').2⟩

end Value

end FormValidation
