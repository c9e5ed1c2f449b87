import CppLinq.Calendar
import CppLinq.ValueParsing
import Mathlib.Data.List.Infix

/-!
# Intervals, durations and time points

`SqlInterval::from_string`, and how `mapping/data_types.h` turns a duration into an interval and
a time point into a timestamp, and back. Durations and time points count nanoseconds in 64 bits,
in which arithmetic wraps.
-/

namespace CppLinq

/-! ## Intervals -/

/-- `iss >> word` for a string. -/
def readWord (cs : List Char) : Option (List Char) :=
  let cs := cs.dropWhile isSpace
  if cs.isEmpty then none else some (cs.dropWhile fun c => !isSpace c)

/-- `h:m:s` with a fraction or not, into an interval. -/
def SqlInterval.readClock (iv : SqlInterval) (cs : List Char) : SqlInterval :=
  match readTriple cs with
  | some (h, mi, sec, cs) =>
    { iv with
      hours := .ofInt h
      minutes := .ofInt mi
      seconds := .ofInt sec
      fraction := (readFraction cs).1 }
  | none => iv

/-- `SqlInterval::from_string`. -/
def SqlInterval.fromString (str : List Char) : SqlInterval :=
  let s := str.dropWhile isSpace
  let isNegative : Bool := s.head? = some '-'
  let s := if isNegative ∨ s.head? = some '+' then s.tail else s
  let iv : SqlInterval := { isNegative }
  let hasDay : Bool := "day".toList <:+: s
  if '-' ∈ s ∧ ':' ∉ s ∧ !hasDay then
    match readPair s with
    | some (y, mo, _) =>
      { iv with type := .yearToMonth, years := .ofInt y, months := .ofInt mo }
    | none => { iv with type := .yearToMonth }
  else if hasDay then
    match readInt s with
    | some (d, cs) => (readWord cs).elim { iv with days := .ofInt d } fun cs =>
      ({ iv with days := .ofInt d } : SqlInterval).readClock cs
    | none => { iv with days := .ofInt (failedInt s) }
  else if ' ' ∈ s then
    match readInt s with
    | some (d, cs) =>
      -- nothing is set unless all of it can be read
      if (readTriple cs).isSome then ({ iv with days := .ofInt d } : SqlInterval).readClock cs
      else iv
    | none => iv
  else if ':' ∈ s then iv.readClock s
  else iv

theorem ofInt_toNat (n : UInt32) : UInt32.ofInt (n.toNat : ℤ) = n := by
  rw [UInt32.ofInt, Int.emod_eq_of_lt (by omega) (by exact_mod_cast n.toNat_lt), Int.toNat_natCast,
    UInt32.ofNat_toNat]

/-- An interval of days and seconds that `int` can hold. -/
structure SqlInterval.IsDaySecond (iv : SqlInterval) : Prop where
  type : iv.type = .dayToSecond
  years : iv.years = 0
  months : iv.months = 0
  days : iv.days.toNat < 2 ^ 31
  hours : iv.hours.toNat < 2 ^ 31
  minutes : iv.minutes.toNat < 2 ^ 31
  seconds : iv.seconds.toNat < 2 ^ 31
  fraction : iv.fraction.toNat < 10 ^ 9

/-- The text of days and seconds, without the sign. -/
def SqlInterval.daySecondText (iv : SqlInterval) : List Char :=
  padded 0 (decimal iv.days.toNat) ++ ' ' ::
    (clockText iv.hours.toNat iv.minutes.toNat iv.seconds.toNat ++ fractionText iv.fraction)

namespace SqlInterval

variable {iv : SqlInterval}

/-- An interval of days is written as days and a clock. -/
theorem IsDaySecond.text_eq (h : iv.IsDaySecond) :
    iv.text = (if iv.isNegative then ['-'] else []) ++ iv.daySecondText := by
  rw [text, h.type, daySecondText]
  simp [padded]

theorem digitOr_daySecondText (iv : SqlInterval) :
    ∀ c ∈ iv.daySecondText, DigitOr [' ', ':', '.'] c :=
  digitOr_append digitOr_padded (digitOr_cons (.inr (by decide))
    (digitOr_append (digitOr_clockText (by decide) _ _ _) (digitOr_fractionText (by decide) _)))

/-- The text has no dash and no letter. -/
theorem not_mem_daySecondText (iv : SqlInterval) :
    '-' ∉ iv.daySecondText ∧ 'd' ∉ iv.daySecondText := by
  constructor <;> intro h <;> rcases digitOr_daySecondText iv _ h with h | h <;>
    exact absurd h (by decide)

/-- The clock of an interval is read back. -/
theorem readClock_text (h : iv.IsDaySecond) (iv' : SqlInterval) :
    iv'.readClock (clockText iv.hours.toNat iv.minutes.toNat iv.seconds.toNat ++
        fractionText iv.fraction) =
      { iv' with
        hours := iv.hours
        minutes := iv.minutes
        seconds := iv.seconds
        fraction := iv.fraction } := by
  have hfraction := readFraction_fractionText h.fraction stopsDigits_nil (by simp)
  have hstop := stopsDigits_fractionText iv.fraction stopsDigits_nil
  rw [List.append_nil] at hfraction hstop
  rw [readClock, readTriple_clock h.hours h.minutes h.seconds hstop]
  simp only [ofInt_toNat, hfraction]

theorem isSome_readTriple_text (h : iv.IsDaySecond) :
    (readTriple (clockText iv.hours.toNat iv.minutes.toNat iv.seconds.toNat ++
      fractionText iv.fraction)).isSome = true := by
  have hstop := stopsDigits_fractionText iv.fraction stopsDigits_nil
  rw [List.append_nil] at hstop
  rw [readTriple_clock h.hours h.minutes h.seconds hstop]
  rfl

/-- The sign of a text, and what follows it. -/
theorem sign_text (isNegative : Bool) {cs : List Char}
    (h : ∃ c ds, cs = c :: ds ∧ c.isDigit = true) :
    ∃ s, ((if isNegative then ['-'] else []) ++ cs).dropWhile isSpace = s ∧
      decide (s.head? = some '-') = isNegative ∧
      (if isNegative = true ∨ s.head? = some '+' then s.tail else s) = cs := by
  obtain ⟨c, ds, rfl, hc⟩ := h
  obtain ⟨hspace, hminus, hplus⟩ := of_isDigit hc
  cases isNegative with
  | false =>
    exact ⟨c :: ds, List.dropWhile_cons_of_neg (by simp [hspace]), by simp [hminus],
      by simp [hplus]⟩
  | true => exact ⟨'-' :: c :: ds, rfl, rfl, rfl⟩

/-- An interval of days is read back. -/
theorem fromString_text (h : iv.IsDaySecond) : fromString iv.text = iv := by
  obtain ⟨hdash, hday⟩ := not_mem_daySecondText iv
  have hhead : ∃ c cs, iv.daySecondText = c :: cs ∧ c.isDigit = true := by
    obtain ⟨c, cs, hcs⟩ := List.exists_cons_of_ne_nil (padded_ne_nil 0 iv.days.toNat)
    refine ⟨c, cs ++ _, by rw [daySecondText, hcs, List.cons_append], ?_⟩
    exact isDigit_of_mem_padded (hcs ▸ List.mem_cons_self)
  obtain ⟨s, hs, hnegative, hrest⟩ := sign_text iv.isNegative hhead
  have hnoDay : ¬ "day".toList <:+: iv.daySecondText :=
    fun hsub => hday (hsub.subset (by decide))
  have hblank : ' ' ∈ iv.daySecondText :=
    List.mem_append_right _ List.mem_cons_self
  have hdays := readInt_padded h.days 0 (stopsDigits_cons (by decide : ' '.isDigit = false)
    (clockText iv.hours.toNat iv.minutes.toNat iv.seconds.toNat ++ fractionText iv.fraction))
  have hspace : ∀ cs, readTriple (' ' :: cs) = readTriple cs := fun _ => rfl
  have hclock : ∀ (iv' : SqlInterval) cs, iv'.readClock (' ' :: cs) = iv'.readClock cs :=
    fun _ _ => rfl
  rw [fromString, h.text_eq]
  simp only [hs, hnegative, hrest, hdash, false_and, if_false, hnoDay, decide_false, hblank,
    if_true, Bool.false_eq_true]
  rw [daySecondText, hdays]
  simp only [hspace, isSome_readTriple_text h, if_true, hclock, readClock_text h, ofInt_toNat]
  obtain ⟨htype, hyears, hmonths, -⟩ := h
  cases iv
  simp_all

end SqlInterval

/-! ## Durations -/

/-- `SqlInterval::from_duration` of nanoseconds. -/
def SqlInterval.fromDuration (ns : Int64) : SqlInterval :=
  let totalNs : UInt64 := if ns < 0 then 0 - ns.toUInt64 else ns.toUInt64
  let totalSec := totalNs / 1000000000
  let rem := (totalSec % 86400).toUInt32
  { isNegative := ns < 0
    days := (totalSec / 86400).toUInt32
    hours := rem / 3600
    minutes := rem % 3600 / 60
    seconds := rem % 3600 % 60
    fraction := (totalNs % 1000000000).toUInt32 }

/-- The nanoseconds of days, hours, minutes, seconds and a fraction. -/
def SqlInterval.daySecondNs (iv : SqlInterval) : UInt64 :=
  (iv.days.toUInt64 * 86400 + iv.hours.toUInt64 * 3600 + iv.minutes.toUInt64 * 60 +
    iv.seconds.toUInt64) * 1000000000 + iv.fraction.toUInt64

/-- `SqlInterval::to_duration` in nanoseconds. A month has 2629746 seconds. -/
def SqlInterval.toDuration (iv : SqlInterval) : Int64 :=
  let totalMonths : Int64 := .ofInt (iv.years.toNat * 12 + iv.months.toNat)
  let monthsNs := (if iv.isNegative then -totalMonths else totalMonths) * 2629746 * 1000000000
  let totalNs := (if iv.isNegative then 0 - iv.daySecondNs else iv.daySecondNs).toInt64
  match iv.type with
  | .yearToMonth | .year | .month => monthsNs
  | _ => if iv.years > 0 ∨ iv.months > 0 then monthsNs + totalNs else totalNs

namespace SqlInterval

/-- A duration is an interval of days. -/
theorem isDaySecond_fromDuration (ns : Int64) : (fromDuration ns).IsDaySecond := by
  unfold fromDuration
  generalize (if ns < 0 then 0 - ns.toUInt64 else ns.toUInt64) = totalNs
  have hlt := totalNs.toNat_lt
  constructor
  · rfl
  · rfl
  · rfl
  all_goals
    simp only [UInt64.toNat_toUInt32, UInt32.toNat_div, UInt32.toNat_mod, UInt64.toNat_div,
      UInt64.toNat_mod, UInt64.reduceToNat, UInt32.reduceToNat]
    omega

theorem toNat_daySecondNs (iv : SqlInterval) :
    iv.daySecondNs.toNat = ((iv.days.toNat * 86400 + iv.hours.toNat * 3600 +
      iv.minutes.toNat * 60 + iv.seconds.toNat) * 1000000000 + iv.fraction.toNat) % 2 ^ 64 := by
  simp only [daySecondNs, UInt64.toNat_add, UInt64.toNat_mul, UInt32.toNat_toUInt64,
    UInt64.reduceToNat, Nat.mod_add_mod, Nat.add_mod_mod, Nat.mod_mul_mod]

/-- The parts of a number of nanoseconds make it up. -/
theorem daySecondNs_fromDuration (ns : Int64) :
    (fromDuration ns).daySecondNs = if ns < 0 then 0 - ns.toUInt64 else ns.toUInt64 := by
  rw [← UInt64.toNat_inj, toNat_daySecondNs]
  unfold fromDuration
  generalize (if ns < 0 then 0 - ns.toUInt64 else ns.toUInt64) = totalNs
  have hlt := totalNs.toNat_lt
  have hdays : totalNs.toNat / 1000000000 / 86400 < 2 ^ 32 := by omega
  have hrem : totalNs.toNat / 1000000000 % 86400 < 2 ^ 32 := by omega
  have hfraction : totalNs.toNat % 1000000000 < 2 ^ 32 := by omega
  simp only [UInt64.toNat_toUInt32, UInt32.toNat_div, UInt32.toNat_mod, UInt64.toNat_div,
    UInt64.toNat_mod, UInt64.reduceToNat, UInt32.reduceToNat, Nat.mod_eq_of_lt hdays,
    Nat.mod_eq_of_lt hrem, Nat.mod_eq_of_lt hfraction]
  omega

/-- Every count of nanoseconds comes back. -/
theorem toDuration_fromDuration (ns : Int64) : (fromDuration ns).toDuration = ns := by
  have hns := daySecondNs_fromDuration ns
  have htotal : (if (fromDuration ns).isNegative then 0 - (fromDuration ns).daySecondNs
      else (fromDuration ns).daySecondNs).toInt64 = ns := by
    rw [hns]
    by_cases hneg : ns < 0
    · have hsign : (fromDuration ns).isNegative = true := decide_eq_true hneg
      rw [if_pos hsign, if_pos hneg, UInt64.zero_sub, UInt64.zero_sub,
        UInt64.neg_neg, Int64.toInt64_toUInt64]
    · have hsign : (fromDuration ns).isNegative = false := decide_eq_false hneg
      rw [hsign, if_neg hneg]
      exact Int64.toInt64_toUInt64 ns
  exact htotal

/-- The magnitude is taken without a sign, so that the least duration has one too. -/
theorem toNat_totalNs (ns : Int64) :
    (if ns < 0 then 0 - ns.toUInt64 else ns.toUInt64).toNat = ns.toInt.natAbs := by
  have hcond : ns.toInt = if 2 * ns.toUInt64.toNat < 2 ^ 64 then (ns.toUInt64.toNat : ℤ)
      else (ns.toUInt64.toNat : ℤ) - (2 ^ 64 : ℕ) := BitVec.toInt_eq_toNat_cond ns.toBitVec
  have hlt := ns.toUInt64.toNat_lt
  by_cases hneg : ns < 0
  · have hneg' : ns.toInt < 0 := Int64.lt_iff_toInt_lt.mp hneg
    have hsub : (0 - ns.toUInt64).toNat = (2 ^ 64 - ns.toUInt64.toNat + 0) % 2 ^ 64 :=
      UInt64.toNat_sub 0 ns.toUInt64
    rw [if_pos hneg, hsub]
    split_ifs at hcond <;> omega
  · have hnonneg : ¬ ns.toInt < 0 := fun h => hneg (Int64.lt_iff_toInt_lt.mpr h)
    rw [if_neg hneg]
    split_ifs at hcond <;> omega

/-- A duration becomes an interval and again the duration. No field of the interval is narrowed,
the fields are normalised, and the nanoseconds they make up are below `2 ^ 64`. -/
theorem fromDuration_roundTrip (ns : Int64) :
    (fromDuration ns).toDuration = ns ∧
      let iv := fromDuration ns
      let sec := ns.toInt.natAbs / 1000000000
      iv.days.toNat = sec / 86400 ∧ iv.hours.toNat = sec % 86400 / 3600 ∧
      iv.minutes.toNat = sec % 3600 / 60 ∧ iv.seconds.toNat = sec % 60 ∧
      iv.fraction.toNat = ns.toInt.natAbs % 1000000000 ∧
      iv.hours < 24 ∧ iv.minutes < 60 ∧ iv.seconds < 60 ∧ iv.fraction < 1000000000 ∧
      (iv.days.toNat * 86400 + iv.hours.toNat * 3600 + iv.minutes.toNat * 60 +
        iv.seconds.toNat) * 1000000000 + iv.fraction.toNat = ns.toInt.natAbs ∧
      ns.toInt.natAbs < 2 ^ 64 := by
  refine ⟨toDuration_fromDuration ns, ?_⟩
  intro iv sec
  have habs : ns.toInt.natAbs < 2 ^ 64 := by
    rw [← toNat_totalNs]
    exact UInt64.toNat_lt _
  have hfields : iv.days.toNat = sec / 86400 ∧ iv.hours.toNat = sec % 86400 / 3600 ∧
      iv.minutes.toNat = sec % 86400 % 3600 / 60 ∧ iv.seconds.toNat = sec % 86400 % 3600 % 60 ∧
      iv.fraction.toNat = ns.toInt.natAbs % 1000000000 := by
    simp only [iv, fromDuration, UInt64.toNat_toUInt32, UInt32.toNat_div, UInt32.toNat_mod,
      UInt64.toNat_div, UInt64.toNat_mod, UInt64.reduceToNat, UInt32.reduceToNat, toNat_totalNs]
    omega
  obtain ⟨hdays, hhours, hminutes, hseconds, hfraction⟩ := hfields
  simp only [UInt32.lt_iff_toNat_lt, UInt32.reduceToNat]
  refine ⟨hdays, hhours, ?_⟩
  omega

/-- A duration reads the text it is bound with. -/
theorem toDuration_text (ns : Int64) : (fromString (fromDuration ns).text).toDuration = ns := by
  rw [fromString_text (isDaySecond_fromDuration ns), toDuration_fromDuration]

end SqlInterval

/-! ## Time points -/

/-- `SqlTimestamp::from_time_point`. The date is what `gmtime` gives. -/
def SqlTimestamp.fromTimePoint (tp : Int64) : SqlTimestamp :=
  let sec := tp.toInt / 1000000000
  let fracNs := tp - .ofInt (sec * 1000000000)
  let date := civilFromDays (sec / 86400)
  { year := .ofInt date.year
    month := byteOf date.month
    day := byteOf date.day
    hour := byteOf (sec % 86400 / 3600)
    minute := byteOf (sec % 86400 % 3600 / 60)
    second := byteOf (sec % 86400 % 60)
    fraction := if fracNs < 0 then 0 else .ofInt fracNs.toInt }

/-- `SqlTimestamp::to_time_point`. -/
def SqlTimestamp.toTimePoint (ts : SqlTimestamp) : Int64 :=
  let days := daysFromCivil ⟨ts.year.toInt, ts.month.toNat, ts.day.toNat⟩
  let minutes := (days * 24 + ts.hour.toNat) * 60 + ts.minute.toNat - ts.tzOffsetMinutes.toInt
  .ofInt ((minutes * 60 + ts.second.toNat) * 1000000000 + ts.fraction.toNat)

theorem toNat_byteOf {z : ℤ} (h0 : 0 ≤ z) (h1 : z < 256) : ((byteOf z).toNat : ℤ) = z := by
  have hmod : (z % 256).toNat % 2 ^ 8 = z.toNat := by omega
  rw [byteOf, UInt8.toNat_ofNat', hmod, Int.toNat_of_nonneg h0]

theorem toInt_int16 {z : ℤ} (h0 : -2 ^ 15 ≤ z) (h1 : z < 2 ^ 15) : (Int16.ofInt z).toInt = z :=
  Int16.toInt_ofInt_of_le h0 h1

namespace SqlTimestamp

/-- What the seconds leave of a number of nanoseconds. -/
theorem toInt_fracNs (tp : Int64) :
    (tp - .ofInt (tp.toInt / 1000000000 * 1000000000)).toInt = tp.toInt % 1000000000 := by
  have hfrac : tp - .ofInt (tp.toInt / 1000000000 * 1000000000) =
      .ofInt (tp.toInt % 1000000000) := by
    conv_lhs => rw [← Int64.ofInt_toInt tp]
    rw [← Int64.ofInt_sub, Int64.ofInt_toInt]
    congr 1
    omega
  rw [hfrac, Int64.toInt_ofInt_of_le (by omega) (by omega)]

/-- The fraction is what is left of a second. -/
theorem fraction_fromTimePoint (tp : Int64) :
    ((fromTimePoint tp).fraction.toNat : ℤ) = tp.toInt % 1000000000 := by
  have hnonneg : ¬ tp - .ofInt (tp.toInt / 1000000000 * 1000000000) < 0 := by
    rw [Int64.lt_iff_toInt_lt, toInt_fracNs]
    exact not_lt.mpr (Int.emod_nonneg _ (by decide))
  have hmod : (tp.toInt % 1000000000 % 2 ^ 32).toNat % 2 ^ 32 = (tp.toInt % 1000000000).toNat := by
    omega
  rw [fromTimePoint]
  simp only [if_neg hnonneg, toInt_fracNs, UInt32.ofInt, UInt32.toNat_ofNat', hmod]
  omega

/-- The years that 64 bits of nanoseconds reach. -/
theorem year_fromTimePoint (tp : Int64) :
    1600 ≤ (civilFromDays (tp.toInt / 1000000000 / 86400)).year ∧
      (civilFromDays (tp.toInt / 1000000000 / 86400)).year ≤ 2400 := by
  have hlt := tp.toInt_lt
  have hle := tp.le_toInt
  obtain ⟨-, -, -, -, hlow, hhigh⟩ := civilFromDays_bounds (tp.toInt / 1000000000 / 86400)
  constructor <;> omega

/-- The fields of the timestamp of a time point. -/
theorem fields_fromTimePoint (tp : Int64) :
    daysFromCivil ⟨(fromTimePoint tp).year.toInt, (fromTimePoint tp).month.toNat,
        (fromTimePoint tp).day.toNat⟩ = tp.toInt / 1000000000 / 86400 ∧
      ((fromTimePoint tp).hour.toNat : ℤ) = tp.toInt / 1000000000 % 86400 / 3600 ∧
      ((fromTimePoint tp).minute.toNat : ℤ) = tp.toInt / 1000000000 % 86400 % 3600 / 60 ∧
      ((fromTimePoint tp).second.toNat : ℤ) = tp.toInt / 1000000000 % 86400 % 60 := by
  obtain ⟨hlow, hhigh⟩ := year_fromTimePoint tp
  obtain ⟨hmonth0, hmonth1, hday0, hday1, -⟩ := civilFromDays_bounds (tp.toInt / 1000000000 / 86400)
  have hdays := daysFromCivil_civilFromDays (tp.toInt / 1000000000 / 86400)
  refine ⟨?_, toNat_byteOf (by omega) (by omega), toNat_byteOf (by omega) (by omega),
    toNat_byteOf (by omega) (by omega)⟩
  rw [fromTimePoint, toInt_int16 (by omega) (by omega), toNat_byteOf (by omega) (by omega),
    toNat_byteOf (by omega) (by omega)]
  exact hdays

/-- Every time point comes back. -/
theorem toTimePoint_fromTimePoint (tp : Int64) : (fromTimePoint tp).toTimePoint = tp := by
  have hfraction := fraction_fromTimePoint tp
  obtain ⟨hdate, hhour, hminute, hsecond⟩ := fields_fromTimePoint tp
  have hoffset : (fromTimePoint tp).tzOffsetMinutes.toInt = 0 := rfl
  rw [toTimePoint, hdate, hhour, hminute, hsecond, hfraction, hoffset]
  conv_rhs => rw [← Int64.ofInt_toInt tp]
  congr 1
  omega

theorem nonneg_year_fromTimePoint (tp : Int64) : 0 ≤ (fromTimePoint tp).year := by
  obtain ⟨hlow, hhigh⟩ := year_fromTimePoint tp
  have hyear : (fromTimePoint tp).year.toInt = _ := toInt_int16 (by omega) (by omega)
  rw [Int16.le_iff_toInt_le, hyear]
  exact Int.le_trans (by decide) hlow

/-- A time point reads the text it is bound with. -/
theorem toTimePoint_text (tp : Int64) : (fromString (fromTimePoint tp).text).toTimePoint = tp := by
  have hfraction : (fromTimePoint tp).fraction.toNat < 10 ^ 9 := by
    have h := fraction_fromTimePoint tp
    omega
  rw [fromString_text (nonneg_year_fromTimePoint tp) hfraction, toTimePoint_fromTimePoint]

end SqlTimestamp

end CppLinq
