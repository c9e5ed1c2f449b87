import CppLinq.TimePoints
import Mathlib.Order.Compare

/-!
# Instants

Timestamps of `mapping/data_types.h` are compared by the instants they denote, and become time
points of the system clock and again timestamps. The instant of a timestamp is the number of
nanoseconds from the epoch to it in UTC, for a count of the days of the calendar.
-/

namespace CppLinq

namespace SqlTimestamp

/-- The civil date of a timestamp. -/
def date (ts : SqlTimestamp) : CivilDate :=
  ⟨ts.year.toInt, ts.month.toNat, ts.day.toNat⟩

/-- A date of the calendar and a time of the day. -/
structure IsValid (ts : SqlTimestamp) : Prop where
  date : ts.date.IsValid
  hour : ts.hour.toNat < 24
  minute : ts.minute.toNat < 60
  second : ts.second.toNat < 60
  fraction : ts.fraction.toNat < 10 ^ 9

/-- The minutes in UTC. -/
def utcMinutes (count : CivilDate → ℤ) (ts : SqlTimestamp) : ℤ :=
  count ts.date * 1440 + ts.hour.toNat * 60 + ts.minute.toNat - ts.tzOffsetMinutes.toInt

/-- The instant that a timestamp denotes, in nanoseconds. -/
def instant (count : CivilDate → ℤ) (ts : SqlTimestamp) : ℤ :=
  (ts.utcMinutes count * 60 + ts.second.toNat) * 1000000000 + ts.fraction.toNat

/-- `to_utc_tuple`. -/
def toUtcTuple (ts : SqlTimestamp) : Int64 × UInt8 × UInt32 :=
  let days : Int64 := .ofInt (daysFromCivil ts.date)
  let totalMinutes := days * 1440 + .ofInt ts.hour.toNat * 60 + .ofInt ts.minute.toNat -
    .ofInt ts.tzOffsetMinutes.toInt
  (totalMinutes, ts.second, ts.fraction)

/-- `operator==`. -/
def eq (ts other : SqlTimestamp) : Bool :=
  ts.toUtcTuple == other.toUtcTuple

/-- `operator<=>`, which compares the parts of the tuples in turn. -/
def spaceship (ts other : SqlTimestamp) : Ordering :=
  (compareOfLessAndEq ts.toUtcTuple.1 other.toUtcTuple.1).then
    ((compareOfLessAndEq ts.toUtcTuple.2.1 other.toUtcTuple.2.1).then
      (compareOfLessAndEq ts.toUtcTuple.2.2 other.toUtcTuple.2.2))

/-! ## Comparison -/

/-- A comparison of parts in turn is that of what they make up. -/
theorem compare_mul_add {a b r r' n : ℤ} (h0 : 0 ≤ r) (h1 : r < n) (h0' : 0 ≤ r')
    (h1' : r' < n) : (compare a b).then (compare r r') = compare (a * n + r) (b * n + r') := by
  rcases lt_trichotomy a b with hlt | rfl | hgt
  · have hle : (a + 1) * n ≤ b * n := Int.mul_le_mul_of_nonneg_right hlt (by omega)
    rw [add_mul, one_mul] at hle
    rw [compare_lt_iff_lt.mpr hlt, compare_lt_iff_lt.mpr (by omega : a * n + r < b * n + r')]
    rfl
  · rw [compare_eq_iff_eq.mpr rfl, Ordering.eq_then]
    rcases lt_trichotomy r r' with hlt | rfl | hgt
    · rw [compare_lt_iff_lt.mpr hlt, compare_lt_iff_lt.mpr (by omega : a * n + r < a * n + r')]
    · rw [compare_eq_iff_eq.mpr rfl, compare_eq_iff_eq.mpr rfl]
    · rw [compare_gt_iff_gt.mpr hgt, compare_gt_iff_gt.mpr (by omega : a * n + r > a * n + r')]
  · have hle : (b + 1) * n ≤ a * n := Int.mul_le_mul_of_nonneg_right hgt (by omega)
    rw [add_mul, one_mul] at hle
    rw [compare_gt_iff_gt.mpr hgt, compare_gt_iff_gt.mpr (by omega : a * n + r > b * n + r')]
    rfl

theorem compareOfLessAndEq_eq {α : Type*} [LT α] [DecidableLT α] [DecidableEq α] {f : α → ℤ}
    (hlt : ∀ x y, x < y ↔ f x < f y) (heq : ∀ x y, x = y ↔ f x = f y) (x y : α) :
    compareOfLessAndEq x y = compare (f x) (f y) := by
  have hcompare : compare (f x) (f y) = compareOfLessAndEq (f x) (f y) := rfl
  simp only [hcompare, compareOfLessAndEq, hlt x y, heq x y]

/-- A date is within so many days that no minute of them leaves 64 bits. -/
def InDays (ts : SqlTimestamp) : Prop :=
  -2 ^ 31 ≤ daysFromCivil ts.date ∧ daysFromCivil ts.date < 2 ^ 31

theorem IsValid.inDays {ts : SqlTimestamp} (h : ts.IsValid) : ts.InDays := by
  obtain ⟨hmonth, hmonth', hday, hday'⟩ := h.date
  have hyear : ts.date.year < 2 ^ 15 := ts.year.toInt_lt
  have hyear' : -2 ^ 15 ≤ ts.date.year := ts.year.le_toInt
  have hday'' := hday'.trans (CivilDate.daysInMonth_le _ _)
  simp only [InDays, CivilDate.daysFromCivil_eq, CivilDate.marchYear, CivilDate.marchMonth,
    marchYearStart, dayOfYear]
  split_ifs <;> omega

theorem toInt_totalMinutes {ts : SqlTimestamp} (h : ts.InDays) :
    ts.toUtcTuple.1.toInt = ts.utcMinutes daysFromCivil := by
  obtain ⟨hdays, hdays'⟩ := h
  have hoffset := ts.tzOffsetMinutes.toInt_lt
  have hoffset' := ts.tzOffsetMinutes.le_toInt
  have hhour := ts.hour.toNat_lt
  have hminute := ts.minute.toNat_lt
  have hofInt : ts.toUtcTuple.1 = .ofInt (ts.utcMinutes daysFromCivil) := by
    rw [utcMinutes, Int64.ofInt_sub, Int64.ofInt_add, Int64.ofInt_add, Int64.ofInt_mul,
      Int64.ofInt_mul]
    rfl
  rw [hofInt, Int64.toInt_ofInt_of_le] <;> rw [utcMinutes] <;> omega

/-- The parts of an instant tell whether it is the same. -/
theorem eq_iff_of_inDays {a b : SqlTimestamp} (ha : a.InDays) (hb : b.InDays)
    (hsec : a.second.toNat < 60) (hsec' : b.second.toNat < 60)
    (hfrac : a.fraction.toNat < 10 ^ 9) (hfrac' : b.fraction.toNat < 10 ^ 9) :
    a.eq b = true ↔ a.instant daysFromCivil = b.instant daysFromCivil := by
  have hminutes : a.toUtcTuple.1 = b.toUtcTuple.1 ↔
      a.utcMinutes daysFromCivil = b.utcMinutes daysFromCivil := by
    rw [← Int64.toInt_inj, toInt_totalMinutes ha, toInt_totalMinutes hb]
  rw [eq, beq_iff_eq, Prod.ext_iff, hminutes, Prod.ext_iff, ← UInt8.toNat_inj, ← UInt32.toNat_inj,
    instant, instant]
  simp only [toUtcTuple]
  omega

/-- The minutes are those of the calendar. -/
theorem utcMinutes_eq {count : CivilDate → ℤ} (hcount : IsDayCount count) {ts : SqlTimestamp}
    (h : ts.IsValid) : ts.utcMinutes count = ts.utcMinutes daysFromCivil := by
  rw [utcMinutes, hcount.eq_daysFromCivil h.date, utcMinutes]

section

variable {count : CivilDate → ℤ} (hcount : IsDayCount count) {a b c : SqlTimestamp}

include hcount

theorem spaceship_eq (ha : a.IsValid) (hb : b.IsValid) :
    a.spaceship b = compare (a.instant count) (b.instant count) := by
  have hminutes := compareOfLessAndEq_eq (f := Int64.toInt)
    (fun _ _ => Int64.lt_iff_toInt_lt) (fun _ _ => Int64.toInt_inj.symm) a.toUtcTuple.1
    b.toUtcTuple.1
  have hseconds := compareOfLessAndEq_eq (f := fun x : UInt8 => (x.toNat : ℤ))
    (fun _ _ => UInt8.lt_iff_toNat_lt.trans Int.ofNat_lt.symm)
    (fun _ _ => UInt8.toNat_inj.symm.trans Int.ofNat_inj.symm) a.second b.second
  have hfraction := compareOfLessAndEq_eq (f := fun x : UInt32 => (x.toNat : ℤ))
    (fun _ _ => UInt32.lt_iff_toNat_lt.trans Int.ofNat_lt.symm)
    (fun _ _ => UInt32.toNat_inj.symm.trans Int.ofNat_inj.symm) a.fraction b.fraction
  rw [toInt_totalMinutes ha.inDays, toInt_totalMinutes hb.inDays, ← utcMinutes_eq hcount ha,
    ← utcMinutes_eq hcount hb] at hminutes
  have hsec := ha.second
  have hsec' := hb.second
  have hfrac := ha.fraction
  have hfrac' := hb.fraction
  have hutc := @compare_mul_add (a.utcMinutes count) (b.utcMinutes count) a.second.toNat
    b.second.toNat 60 (by omega) (by omega) (by omega) (by omega)
  have hinstant := @compare_mul_add (a.utcMinutes count * 60 + a.second.toNat)
    (b.utcMinutes count * 60 + b.second.toNat) a.fraction.toNat b.fraction.toNat 1000000000
    (by omega) (by omega) (by omega) (by omega)
  rw [spaceship, hminutes, show a.toUtcTuple.2 = (a.second, a.fraction) from rfl,
    show b.toUtcTuple.2 = (b.second, b.fraction) from rfl, hseconds, hfraction,
    ← Ordering.then_assoc, hutc, hinstant]
  rfl

theorem eq_iff (ha : a.IsValid) (hb : b.IsValid) :
    a.eq b = true ↔ a.instant count = b.instant count := by
  rw [eq_iff_of_inDays ha.inDays hb.inDays ha.second hb.second ha.fraction hb.fraction, instant,
    instant, instant, instant, utcMinutes_eq hcount ha, utcMinutes_eq hcount hb]

/-- Timestamps compare as the instants that they denote, whatever their offsets. -/
theorem compare_instants (ha : a.IsValid) (hb : b.IsValid) (hc : c.IsValid) :
    (a.eq b = true ↔ a.instant count = b.instant count) ∧
      a.spaceship b = compare (a.instant count) (b.instant count) ∧
      (a.eq b = true ↔ a.spaceship b = .eq) ∧
      (a.spaceship b ≠ .gt ∨ b.spaceship a ≠ .gt) ∧
      (a.spaceship b ≠ .gt → b.spaceship c ≠ .gt → a.spaceship c ≠ .gt) ∧
      (0 ≤ a.year → 0 ≤ b.year →
        ((fromString a.text).eq (fromString b.text) = true ↔
          a.instant count = b.instant count)) := by
  have heq := eq_iff hcount ha hb
  rw [spaceship_eq hcount ha hb, spaceship_eq hcount hb ha, spaceship_eq hcount hb hc,
    spaceship_eq hcount ha hc]
  refine ⟨heq, rfl, heq.trans compare_eq_iff_eq.symm, ?_, ?_, ?_⟩
  · rw [compare_le_iff_le, compare_le_iff_le]
    exact le_total _ _
  · rw [compare_le_iff_le, compare_le_iff_le, compare_le_iff_le]
    exact le_trans
  · intro hyear hyear'
    rw [fromString_text hyear ha.fraction, fromString_text hyear' hb.fraction, heq]

end

/-- Noon at an offset of an hour is eleven o'clock in UTC. -/
theorem compare_instants_noon :
    (fromString "1970-01-01 12:00:00+01:00".toList).eq
      (fromString "1970-01-01 11:00:00".toList) = true :=
  have hnoon : SqlTimestamp.IsValid { hour := 12, tzOffsetMinutes := 60 } :=
    ⟨⟨by decide, by decide, by decide, by decide⟩, by decide, by decide, by decide, by decide⟩
  have heleven : SqlTimestamp.IsValid { hour := 11 } :=
    ⟨⟨by decide, by decide, by decide, by decide⟩, by decide, by decide, by decide, by decide⟩
  ((compare_instants isDayCount_daysFromCivil hnoon heleven heleven).2.2.2.2.2 (by decide)
    (by decide)).mpr (by decide)

/-! ## Time points -/

/-- The values that `to_time_point` goes through, of which the last is the result. Seconds are
turned into nanoseconds before the fraction is added. -/
def timePointSteps (ts : SqlTimestamp) : List ℤ :=
  let days := daysFromCivil ts.date
  let hours := days * 24 + ts.hour.toNat
  let localMinutes := hours * 60 + ts.minute.toNat
  let minutes := localMinutes - ts.tzOffsetMinutes.toInt
  let seconds := minutes * 60 + ts.second.toNat
  [days, days * 24, hours, hours * 60, localMinutes, minutes, minutes * 60, seconds,
    seconds * 1000000000, seconds * 1000000000 + ts.fraction.toNat]

/-- The values that `from_time_point` goes through to the fraction. The floor of the seconds is
their quotient, or one less if that is more than the duration. -/
def secondSteps (dur : ℤ) : List ℤ :=
  let quotient := dur.tdiv 1000000000
  let sec := if quotient * 1000000000 > dur then quotient - 1 else quotient
  [quotient, quotient * 1000000000, sec, sec * 1000000000, dur - sec * 1000000000]

/-- What a signed integer of 64 bits holds. -/
def FitsInt64 (z : ℤ) : Prop :=
  -2 ^ 63 ≤ z ∧ z < 2 ^ 63

/-- A timestamp becomes a time point and again the same instant, and no value on the way leaves
its type. -/
def RoundTrips (ts : SqlTimestamp) : Prop :=
  (∀ z ∈ ts.timePointSteps, FitsInt64 z) ∧
    (∀ z ∈ secondSteps ts.toTimePoint.toInt, FitsInt64 z) ∧
    (fromTimePoint ts.toTimePoint).eq ts = true

/-- The instant of the timestamp of a time point. -/
theorem instant_fromTimePoint (tp : Int64) :
    (fromTimePoint tp).instant daysFromCivil = tp.toInt ∧ (fromTimePoint tp).InDays ∧
      (fromTimePoint tp).second.toNat < 60 ∧ (fromTimePoint tp).fraction.toNat < 10 ^ 9 := by
  have hfraction := fraction_fromTimePoint tp
  obtain ⟨hdate, hhour, hminute, hsecond⟩ := fields_fromTimePoint tp
  have hlt := tp.toInt_lt
  have hle := tp.le_toInt
  have hoffset : (fromTimePoint tp).tzOffsetMinutes.toInt = 0 := rfl
  refine ⟨?_, ⟨?_, ?_⟩, ?_, ?_⟩
  · rw [instant, utcMinutes, date, hdate, hhour, hminute, hsecond, hfraction, hoffset]
    omega
  · rw [date, hdate]
    omega
  · rw [date, hdate]
    omega
  · omega
  · omega

theorem toTimePoint_eq (ts : SqlTimestamp) :
    ts.toTimePoint = .ofInt (ts.instant daysFromCivil) := by
  rw [toTimePoint, instant, utcMinutes, date]
  congr 1
  omega

/-- The floor of the seconds is their floor, so the values fit when the whole seconds do. -/
theorem fits_secondSteps_iff {dur : ℤ} (h : FitsInt64 dur) :
    (∀ z ∈ secondSteps dur, FitsInt64 z) ↔ -2 ^ 63 ≤ dur / 1000000000 * 1000000000 := by
  obtain ⟨hlow, hhigh⟩ := h
  have hquotient : dur.tdiv 1000000000 =
      dur / 1000000000 + if 0 ≤ dur ∨ 1000000000 ∣ dur then 0 else 1 :=
    Int.tdiv_eq_ediv
  have hsec : (if dur.tdiv 1000000000 * 1000000000 > dur then dur.tdiv 1000000000 - 1
      else dur.tdiv 1000000000) = dur / 1000000000 := by
    split_ifs at hquotient ⊢ <;> omega
  simp only [secondSteps, hsec, List.mem_cons, List.not_mem_nil, or_false, forall_eq_or_imp,
    forall_eq, FitsInt64]
  constructor
  · rintro ⟨-, -, -, hwhole, -⟩
    exact hwhole.1
  · intro hwhole
    split_ifs at hquotient <;> omega

/-- The timestamps that make the round trip : those of which the whole seconds and the nanoseconds
are within 64 bits. -/
theorem roundTrips_iff {count : CivilDate → ℤ} (hcount : IsDayCount count) {ts : SqlTimestamp}
    (h : ts.IsValid) :
    ts.RoundTrips ↔
      -9223372036 * 1000000000 ≤ ts.instant count ∧ ts.instant count < 2 ^ 63 := by
  have hinstant : ts.instant count = ts.instant daysFromCivil := by
    rw [instant, utcMinutes_eq hcount h, instant]
  rw [hinstant]
  have hfrac := h.fraction
  have hoffset := ts.tzOffsetMinutes.toInt_lt
  have hoffset' := ts.tzOffsetMinutes.le_toInt
  obtain ⟨hdays, hdays'⟩ := h.inDays
  have hhour := h.hour
  have hminute := h.minute
  have hsecond := h.second
  have hexact : ts.instant daysFromCivil = ((((daysFromCivil ts.date * 24 + ts.hour.toNat) * 60 +
      ts.minute.toNat - ts.tzOffsetMinutes.toInt) * 60 + ts.second.toNat) * 1000000000 +
      ts.fraction.toNat) := by
    rw [instant, utcMinutes]
    omega
  have htimePoint (hlow : -2 ^ 63 ≤ ts.instant daysFromCivil)
      (hhigh : ts.instant daysFromCivil < 2 ^ 63) :
      ts.toTimePoint.toInt = ts.instant daysFromCivil := by
    rw [toTimePoint_eq]
    exact Int64.toInt_ofInt_of_le hlow (by omega)
  constructor
  · rintro ⟨hsteps, -, -⟩
    simp only [timePointSteps, List.mem_cons, List.not_mem_nil, or_false, forall_eq_or_imp,
      forall_eq, FitsInt64] at hsteps
    omega
  · rintro ⟨hlow, hhigh⟩
    have htp := htimePoint (by omega) hhigh
    refine ⟨?_, ?_, ?_⟩
    · simp only [timePointSteps, List.mem_cons, List.not_mem_nil, or_false, forall_eq_or_imp,
        forall_eq, FitsInt64]
      omega
    · rw [fits_secondSteps_iff (by rw [htp]; exact ⟨by omega, hhigh⟩), htp]
      omega
    · obtain ⟨heq, hinDays, hsec, hfraction⟩ := instant_fromTimePoint ts.toTimePoint
      rw [eq_iff_of_inDays hinDays h.inDays hsec h.second hfraction h.fraction, heq, htp]

/-- 28 February 1969, 22:15:59.123456789 at -05:30. -/
def beforeEpoch : SqlTimestamp where
  year := 1969
  month := 2
  day := 28
  hour := 22
  minute := 15
  second := 59
  fraction := 123456789
  tzOffsetMinutes := -330

theorem roundTrips_beforeEpoch : RoundTrips beforeEpoch :=
  (@roundTrips_iff _ isDayCount_daysFromCivil beforeEpoch
    ⟨⟨by decide, by decide, by decide, by decide⟩, by decide, by decide, by decide,
      by decide⟩).mpr (by decide)

/-- The last day of the year 9999, which databases use for no end, does not. -/
theorem not_roundTrips_endOfTime :
    IsValid { year := 9999, month := 12, day := 31 } ∧
      ¬ RoundTrips { year := 9999, month := 12, day := 31 } := by
  refine ⟨⟨⟨by decide, by decide, by decide, by decide⟩, by decide, by decide, by decide,
    by decide⟩, ?_⟩
  rintro ⟨hsteps, -⟩
  have hseconds := hsteps (253402214400 * 1000000000) (by decide)
  exact absurd hseconds.2 (by decide)

end SqlTimestamp

end CppLinq
