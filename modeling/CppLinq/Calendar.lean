import Mathlib.Data.Int.Notation
import Mathlib.Logic.Function.Iterate
import Mathlib.Tactic.IntervalCases
import Mathlib.Tactic.Linarith

/-!
# Civil dates

The days of the proleptic Gregorian calendar, counted from the first of January 1970, and the
date of a day. Years are counted from March, so the leap day is the last day of a year, and
400 of them make an era of 146097 days. Any count of days that starts there and goes up by one
from each date of the calendar to the next is this one.
-/

namespace CppLinq

/-- A date of the calendar. -/
structure CivilDate where
  year : ℤ
  month : ℤ
  day : ℤ
  deriving DecidableEq

/-- The day of a year that begins in March, for a month counted from March. -/
def dayOfYear (month day : ℤ) : ℤ :=
  (153 * month + 2) / 5 + day - 1

/-- The day of an era, for a year of it. -/
def dayOfEra (year doy : ℤ) : ℤ :=
  year * 365 + year / 4 - year / 100 + doy

/-- The number of days from 1970-01-01. -/
def daysFromCivil (date : CivilDate) : ℤ :=
  let year := if date.month ≤ 2 then date.year - 1 else date.year
  let month := if date.month ≤ 2 then date.month + 9 else date.month - 3
  year / 400 * 146097 + dayOfEra (year % 400) (dayOfYear month date.day) - 719468

/-- The century of a day in an era. The last one is a day longer. -/
def centuryOf (doe : ℤ) : ℤ :=
  if doe / 36524 < 4 then doe / 36524 else 3

/-- The year of a day in four years. The last one is a day longer. -/
def yearOfQuad (doq : ℤ) : ℤ :=
  if doq / 365 < 4 then doq / 365 else 3

/-- The date of a day. -/
def civilFromDays (days : ℤ) : CivilDate :=
  let era := (days + 719468) / 146097
  let doe := (days + 719468) % 146097
  let century := centuryOf doe
  let doc := doe - century * 36524
  let quad := doc / 1461
  let doq := doc % 1461
  let doy := doq - yearOfQuad doq * 365
  let year := 100 * century + 4 * quad + yearOfQuad doq
  let month := (5 * doy + 2) / 153
  { year := era * 400 + year + if month < 10 then 0 else 1
    month := if month < 10 then month + 3 else month - 9
    day := doy - (153 * month + 2) / 5 + 1 }

theorem centuryOf_spec {doe : ℤ} (h0 : 0 ≤ doe) (h1 : doe < 146097) :
    0 ≤ centuryOf doe ∧ centuryOf doe ≤ 3 ∧ 0 ≤ doe - centuryOf doe * 36524 ∧
      doe - centuryOf doe * 36524 ≤ 36524 := by
  unfold centuryOf
  split <;> omega

theorem yearOfQuad_spec {doq : ℤ} (h0 : 0 ≤ doq) (h1 : doq < 1461) :
    0 ≤ yearOfQuad doq ∧ yearOfQuad doq ≤ 3 ∧ 0 ≤ doq - yearOfQuad doq * 365 ∧
      doq - yearOfQuad doq * 365 ≤ 365 := by
  unfold yearOfQuad
  split <;> omega

/-- A month counted from March, and a day of it. -/
theorem month_spec {doy : ℤ} (h0 : 0 ≤ doy) (h1 : doy ≤ 365) :
    0 ≤ (5 * doy + 2) / 153 ∧ (5 * doy + 2) / 153 ≤ 11 ∧
      1 ≤ doy - (153 * ((5 * doy + 2) / 153) + 2) / 5 + 1 ∧
      doy - (153 * ((5 * doy + 2) / 153) + 2) / 5 + 1 ≤ 31 := by
  omega

/-- A day of an era is the day of a year of it. -/
theorem dayOfEra_spec {century quad year doy : ℤ}
    (hquad0 : 0 ≤ quad) (hquad1 : quad ≤ 24) (hyear0 : 0 ≤ year) (hyear1 : year ≤ 3) :
    dayOfEra (100 * century + 4 * quad + year) doy =
      century * 36524 + quad * 1461 + year * 365 + doy := by
  unfold dayOfEra
  omega

/-- The days of a year that begins in March are those of its months. -/
theorem daysFromCivil_march {era year month day : ℤ} (hyear0 : 0 ≤ year) (hyear1 : year < 400)
    (hmonth0 : 0 ≤ month) (hmonth1 : month ≤ 11) :
    daysFromCivil
        { year := era * 400 + year + if month < 10 then 0 else 1
          month := if month < 10 then month + 3 else month - 9
          day := day } =
      era * 146097 + dayOfEra year (dayOfYear month day) - 719468 := by
  have hdiv : (era * 400 + year) / 400 = era := by omega
  have hmod : (era * 400 + year) % 400 = year := by omega
  unfold daysFromCivil
  by_cases hlt : month < 10
  · have hmonth : ¬ month + 3 ≤ 2 := by omega
    simp only [hlt, if_true, if_neg hmonth, add_zero, hdiv, hmod, add_sub_cancel_right]
  · have hmonth : month - 9 ≤ 2 := by omega
    simp only [hlt, if_false, if_pos hmonth, add_sub_cancel_right, hdiv, hmod,
      sub_add_cancel]

/-- A day is the day of its date. -/
theorem daysFromCivil_civilFromDays (days : ℤ) : daysFromCivil (civilFromDays days) = days := by
  have hdoe0 : 0 ≤ (days + 719468) % 146097 := by omega
  have hdoe1 : (days + 719468) % 146097 < 146097 := by omega
  obtain ⟨hcentury0, hcentury1, hdoc0, hdoc1⟩ := centuryOf_spec hdoe0 hdoe1
  unfold civilFromDays
  generalize hdoc : (days + 719468) % 146097 - centuryOf ((days + 719468) % 146097) * 36524 = doc
    at hdoc0 hdoc1 ⊢
  have hdoq0 : 0 ≤ doc % 1461 := by omega
  have hdoq1 : doc % 1461 < 1461 := by omega
  obtain ⟨hyear0, hyear1, hdoy0, hdoy1⟩ := yearOfQuad_spec hdoq0 hdoq1
  obtain ⟨hmonth0, hmonth1, -, -⟩ := month_spec hdoy0 hdoy1
  simp only [hdoc]
  rw [daysFromCivil_march (by omega) (by omega) hmonth0 hmonth1,
    dayOfEra_spec (by omega) (by omega) hyear0 hyear1, dayOfYear]
  omega

/-- The months and days of dates, and the years of an era. -/
theorem civilFromDays_bounds (days : ℤ) :
    1 ≤ (civilFromDays days).month ∧ (civilFromDays days).month ≤ 12 ∧
      1 ≤ (civilFromDays days).day ∧ (civilFromDays days).day ≤ 31 ∧
      (days + 719468) / 146097 * 400 ≤ (civilFromDays days).year ∧
      (civilFromDays days).year ≤ (days + 719468) / 146097 * 400 + 400 := by
  have hdoe0 : 0 ≤ (days + 719468) % 146097 := by omega
  have hdoe1 : (days + 719468) % 146097 < 146097 := by omega
  obtain ⟨hcentury0, hcentury1, hdoc0, hdoc1⟩ := centuryOf_spec hdoe0 hdoe1
  unfold civilFromDays
  generalize hdoc : (days + 719468) % 146097 - centuryOf ((days + 719468) % 146097) * 36524 = doc
    at hdoc0 hdoc1 ⊢
  obtain ⟨hyear0, hyear1, hdoy0, hdoy1⟩ := yearOfQuad_spec (by omega : 0 ≤ doc % 1461) (by omega)
  obtain ⟨hmonth0, hmonth1, hday0, hday1⟩ := month_spec hdoy0 hdoy1
  simp only [hdoc]
  refine ⟨?_, ?_, hday0, hday1, ?_, ?_⟩
  · split <;> omega
  · split <;> omega
  · split <;> omega
  · split <;> omega

/-! ## The calendar -/

/-- A leap year. -/
def IsLeap (year : ℤ) : Prop :=
  year % 4 = 0 ∧ (year % 100 ≠ 0 ∨ year % 400 = 0)

instance (year : ℤ) : Decidable (IsLeap year) :=
  inferInstanceAs (Decidable (_ ∧ _))

/-- The days of a month, of the leap years too. -/
def daysInMonth (year month : ℤ) : ℤ :=
  if month = 2 then if IsLeap year then 29 else 28
  else if month = 4 ∨ month = 6 ∨ month = 9 ∨ month = 11 then 30
  else 31

namespace CivilDate

/-- A date that the calendar has. -/
structure IsValid (date : CivilDate) : Prop where
  month_pos : 1 ≤ date.month
  month_le : date.month ≤ 12
  day_pos : 1 ≤ date.day
  day_le : date.day ≤ daysInMonth date.year date.month

/-- The next date. -/
def next (date : CivilDate) : CivilDate :=
  if date.day < daysInMonth date.year date.month then { date with day := date.day + 1 }
  else if date.month < 12 then ⟨date.year, date.month + 1, 1⟩
  else ⟨date.year + 1, 1, 1⟩

/-- 1 January 1970. -/
def epoch : CivilDate :=
  ⟨1970, 1, 1⟩

end CivilDate

/-- A count of the days from the epoch on, one for every date. -/
structure IsDayCount (count : CivilDate → ℤ) : Prop where
  epoch : count .epoch = 0
  next : ∀ date : CivilDate, date.IsValid → count date.next = count date + 1

/-- The days before a year that begins in March. -/
def marchYearStart (year : ℤ) : ℤ :=
  365 * year + year / 4 - year / 100 + year / 400

theorem marchYearStart_le {year year' : ℤ} (h : year ≤ year') :
    marchYearStart year ≤ marchYearStart year' := by
  unfold marchYearStart
  omega

namespace CivilDate

variable {date date' : CivilDate}

/-- The year of a date that begins in March. -/
def marchYear (date : CivilDate) : ℤ :=
  if date.month ≤ 2 then date.year - 1 else date.year

/-- The month of a date, counted from March. -/
def marchMonth (date : CivilDate) : ℤ :=
  if date.month ≤ 2 then date.month + 9 else date.month - 3

theorem daysFromCivil_eq (date : CivilDate) :
    daysFromCivil date =
      marchYearStart date.marchYear + dayOfYear date.marchMonth date.day - 719468 := by
  have heras (year : ℤ) (doy : ℤ) :
      year / 400 * 146097 + dayOfEra (year % 400) doy = marchYearStart year + doy := by
    unfold dayOfEra marchYearStart
    omega
  rw [daysFromCivil, heras]
  rfl

theorem twentyEight_le_daysInMonth (year month : ℤ) : 28 ≤ daysInMonth year month := by
  unfold daysInMonth
  split_ifs <;> decide

theorem daysInMonth_le (year month : ℤ) : daysInMonth year month ≤ 31 := by
  unfold daysInMonth
  split_ifs <;> decide

theorem IsValid.next (h : date.IsValid) : date.next.IsValid := by
  obtain ⟨hmonth, hmonth', hday, hday'⟩ := h
  have hfirst (year month : ℤ) : 1 ≤ daysInMonth year month :=
    (by decide : (1 : ℤ) ≤ 28).trans (twentyEight_le_daysInMonth year month)
  unfold CivilDate.next
  split_ifs with hend hyear
  · exact ⟨hmonth, hmonth', by simp only; omega, by simp only; omega⟩
  · exact ⟨by simp only; omega, by simp only; omega, le_rfl, hfirst _ _⟩
  · exact ⟨le_rfl, (by decide : (1 : ℤ) ≤ 12), le_rfl, hfirst _ _⟩

/-- The day after the last of a month is the first of the next. -/
theorem daysFromCivil_next (h : date.IsValid) :
    daysFromCivil date.next = daysFromCivil date + 1 := by
  obtain ⟨hmonth, hmonth', hday, hday'⟩ := h
  obtain ⟨year, month, day⟩ := date
  simp only at hmonth hmonth' hday hday'
  simp only [daysFromCivil_eq, CivilDate.next]
  split_ifs with hend hyear
  · simp only [marchYear, marchMonth, dayOfYear]
    omega
  · have hlast : day = daysInMonth year month := by omega
    simp only [marchYear, marchMonth, marchYearStart, dayOfYear, hlast, daysInMonth, IsLeap]
    interval_cases month <;> omega
  · have hlast : day = 31 := by
      have hmonth : month = 12 := by omega
      subst hmonth
      exact le_antisymm hday' (not_lt.mp hend)
    have hmonth : month = 12 := by omega
    simp only [marchYear, marchMonth, marchYearStart, dayOfYear, hlast, hmonth]
    omega

/-- A year that begins in March has the days from its start to that of the next. -/
theorem IsValid.dayOfYear_bounds (h : date.IsValid) :
    0 ≤ dayOfYear date.marchMonth date.day ∧
      dayOfYear date.marchMonth date.day <
        marchYearStart (date.marchYear + 1) - marchYearStart date.marchYear := by
  obtain ⟨hmonth, hmonth', hday, hday'⟩ := h
  obtain ⟨year, month, day⟩ := date
  simp only at hmonth hmonth' hday hday'
  simp only [marchYear, marchMonth, marchYearStart, dayOfYear]
  simp only [daysInMonth, IsLeap] at hday'
  interval_cases month <;> omega

/-- A day of a year that begins in March is in one month of it. -/
theorem IsValid.marchMonth_eq (h : date.IsValid) :
    date.marchMonth = (5 * dayOfYear date.marchMonth date.day + 2) / 153 := by
  obtain ⟨hmonth, hmonth', hday, hday'⟩ := h
  obtain ⟨year, month, day⟩ := date
  simp only at hmonth hmonth' hday hday'
  simp only [marchMonth, dayOfYear]
  simp only [daysInMonth] at hday'
  interval_cases month <;> omega

/-- Different dates are different days. -/
theorem daysFromCivil_injective (h : date.IsValid) (h' : date'.IsValid)
    (heq : daysFromCivil date = daysFromCivil date') : date = date' := by
  obtain ⟨hlow, hhigh⟩ := h.dayOfYear_bounds
  obtain ⟨hlow', hhigh'⟩ := h'.dayOfYear_bounds
  rw [daysFromCivil_eq, daysFromCivil_eq] at heq
  have hyear : date.marchYear = date'.marchYear := by
    rcases lt_trichotomy date.marchYear date'.marchYear with hlt | heq | hlt
    · have hle := marchYearStart_le (Int.add_one_le_of_lt hlt)
      omega
    · exact heq
    · have hle := marchYearStart_le (Int.add_one_le_of_lt hlt)
      omega
  rw [hyear] at heq
  have hdoy : dayOfYear date.marchMonth date.day = dayOfYear date'.marchMonth date'.day := by omega
  have hmonth : date.marchMonth = date'.marchMonth := by
    rw [h.marchMonth_eq, h'.marchMonth_eq, hdoy]
  rw [hmonth] at hdoy
  obtain ⟨year, month, day⟩ := date
  obtain ⟨year', month', day'⟩ := date'
  have hmonths := And.intro h.month_pos h.month_le
  have hmonths' := And.intro h'.month_pos h'.month_le
  simp only [marchYear, marchMonth, dayOfYear] at hyear hmonth hdoy hmonths hmonths'
  rw [CivilDate.mk.injEq]
  refine ⟨?_, ?_, ?_⟩ <;> split_ifs at hyear hmonth <;> omega

end CivilDate

/-- The code counts the days of the calendar. -/
theorem isDayCount_daysFromCivil : IsDayCount daysFromCivil :=
  ⟨rfl, fun _ => CivilDate.daysFromCivil_next⟩

theorem CivilDate.isValid_epoch : CivilDate.epoch.IsValid :=
  ⟨by decide, by decide, by decide, by decide⟩

/-- A count goes up by one for every next date. -/
theorem IsDayCount.iterate_next {count : CivilDate → ℤ} (hcount : IsDayCount count)
    {date : CivilDate} (h : date.IsValid) (n : ℕ) :
    (CivilDate.next^[n] date).IsValid ∧ count (CivilDate.next^[n] date) = count date + n := by
  induction n with
  | zero => exact ⟨h, (add_zero _).symm⟩
  | succ n ih =>
    rw [Function.iterate_succ_apply']
    refine ⟨ih.1.next, ?_⟩
    rw [hcount.next _ ih.1, ih.2, Nat.cast_succ, add_assoc]

/-- There is one count of the days. -/
theorem IsDayCount.eq_daysFromCivil {count : CivilDate → ℤ} (hcount : IsDayCount count)
    {date : CivilDate} (h : date.IsValid) : count date = daysFromCivil date := by
  obtain ⟨n, hn | hn⟩ := Int.eq_nat_or_neg (daysFromCivil date)
  · obtain ⟨hvalid, hdays⟩ :=
      isDayCount_daysFromCivil.iterate_next CivilDate.isValid_epoch n
    have hdate : CivilDate.next^[n] CivilDate.epoch = date := by
      refine CivilDate.daysFromCivil_injective hvalid h ?_
      rw [hdays, isDayCount_daysFromCivil.epoch, hn, zero_add]
    rw [hn, ← hdate, (hcount.iterate_next CivilDate.isValid_epoch n).2, hcount.epoch, zero_add]
  · obtain ⟨hvalid, hdays⟩ := isDayCount_daysFromCivil.iterate_next h n
    have hdate : CivilDate.next^[n] date = CivilDate.epoch := by
      refine CivilDate.daysFromCivil_injective hvalid CivilDate.isValid_epoch ?_
      rw [hdays, isDayCount_daysFromCivil.epoch, hn, neg_add_cancel]
    have hzero := (hcount.iterate_next h n).2
    rw [hdate, hcount.epoch] at hzero
    omega

end CppLinq
