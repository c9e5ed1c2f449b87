import CppLinq.IntervalTexts
import CppLinq.TimestampTexts

/-!
# Intervals on PostgreSQL

Values cross to PostgreSQL and back as text. `SqlInterval::to_string` writes one sign before all
fields, where PostgreSQL takes a sign for the field it stands before. PostgreSQL writes an interval
as parts with a sign each, which `SqlInterval::from_string` tells by what it finds first.
-/

namespace CppLinq

/-- An interval of PostgreSQL. The time is in microseconds. -/
structure PgInterval where
  months : ℤ
  days : ℤ
  micros : ℤ
  months_fits : FitsInt32 months
  days_fits : FitsInt32 days
  micros_fits : -2 ^ 63 ≤ micros ∧ micros < 2 ^ 63

namespace SqlInterval

variable (iv : SqlInterval)

/-- The months of an interval. -/
def signedMonths : ℤ :=
  signed iv.isNegative (12 * iv.years.toNat + iv.months.toNat)

/-- The days of the parts, under the sign in front. -/
def signedDays : ℤ :=
  signed iv.isNegative iv.days.toNat

/-- The time of an interval without its days, in nanoseconds. -/
def signedTime : ℤ :=
  signed iv.isNegative ((iv.hours.toNat * 3600 + iv.minutes.toNat * 60 + iv.seconds.toNat) *
    1000000000 + iv.fraction.toNat)

/-- The same months, days and time. -/
def SameParts (v : PgInterval) : Prop :=
  v.months = iv.signedMonths ∧ v.days = iv.signedDays ∧ v.micros * 1000 = iv.signedTime

/-- The same months, and days and time that are as long. -/
def SameLength (v : PgInterval) : Prop :=
  iv.signedMonths = v.months ∧
    iv.signedDays * 86400 * 1000000000 + iv.signedTime =
      v.days * 86400 * 1000000000 + v.micros * 1000

end SqlInterval

/-! ## What PostgreSQL reads -/

/-- How PostgreSQL reads the texts of intervals. A sign belongs to the first field, which is the
year and the month together or the days. Whole microseconds are kept, and ten digits of a fraction
are less than a second too. -/
structure PgReads (reads : List Char → Option PgInterval) : Prop where
  yearMonth : ∀ (isNegative : Bool) (y m : ℕ) (v : PgInterval),
    reads ((if isNegative then ['-'] else []) ++
      (padded 0 (decimal y) ++ '-' :: padded 0 (decimal m))) = some v →
    v.months = signed isNegative (12 * y + m) ∧ v.days = 0 ∧ v.micros = 0
  daySecond : ∀ (isNegative : Bool) (d h m s : ℕ) (f : UInt32) (v : PgInterval),
    reads ((if isNegative then ['-'] else []) ++
      (padded 0 (decimal d) ++ ' ' :: (clockText h m s ++ fractionText f))) = some v →
    v.months = 0 ∧ v.days = signed isNegative d ∧
      ((h : ℤ) * 3600 + m * 60 + s) * 1000000 ≤ v.micros ∧
      (f.toNat < 10 ^ 9 → f.toNat % 1000 = 0 →
        v.micros = (h * 3600 + m * 60 + s) * 1000000 + f.toNat / 1000) ∧
      (10 ^ 9 ≤ f.toNat → v.micros ≤ (h * 3600 + m * 60 + s) * 1000000 + f.toNat / 10000 + 1)
  accepts_yearMonth : ∀ (isNegative : Bool) (y m : ℕ), y ≤ 178000000 → m < 12 →
    (reads ((if isNegative then ['-'] else []) ++
      (padded 0 (decimal y) ++ '-' :: padded 0 (decimal m)))).isSome
  accepts_daySecond : ∀ (isNegative : Bool) (d h m s : ℕ) (f : UInt32), f.toNat < 10 ^ 9 →
    d < 2 ^ 31 → h < 24 → m < 60 → s < 60 →
    (reads ((if isNegative then ['-'] else []) ++
      (padded 0 (decimal d) ++ ' ' :: (clockText h m s ++ fractionText f)))).isSome

/-! ## What PostgreSQL writes -/

/-- The digits of a fraction of a second, of which there are six at most. -/
inductive PgFraction : ℕ → List Char → Prop
  | absent : PgFraction 0 []
  | written {digits : List Char} (hdigits : AllDigits digits) (hlength : digits.length ≤ 6) :
    PgFraction (digitsValue digits * 10 ^ (6 - digits.length)) ('.' :: digits)

/-- A part with a unit, in the singular or the plural. -/
inductive PgIntPart (unit : List Char) : ℤ → List (List Char) → Prop
  | absent : PgIntPart unit 0 []
  | written {z : ℤ} {sign plural : List Char} (hz : z ≠ 0) (hsign : SignText (decide (z < 0)) sign)
    (hplural : plural = [] ∨ plural = ['s']) :
    PgIntPart unit z [sign ++ (padded 0 (decimal z.natAbs) ++ ' ' :: (unit ++ plural))]

/-- The part of the time. -/
inductive PgTimePart : ℤ → List (List Char) → Prop
  | absent : PgTimePart 0 []
  | written {micros : ℤ} {sign fraction : List Char} (hsign : SignText (decide (micros < 0)) sign)
    (hfraction : PgFraction (micros.natAbs % 1000000) fraction) :
    PgTimePart micros [sign ++ (clockText (micros.natAbs / 3600000000)
      (micros.natAbs / 60000000 % 60) (micros.natAbs / 1000000 % 60) ++ fraction)]

/-- The texts of an interval in the default style : years, months, days and a time. Years and
months have one sign, as they make up one number. -/
def PgWrites (v : PgInterval) (text : List Char) : Prop :=
  ∃ years mons days time : List (List Char),
    PgIntPart "year".toList (v.months.tdiv 12) years ∧
      PgIntPart "mon".toList (v.months.tmod 12) mons ∧ PgIntPart "day".toList v.days days ∧
      PgTimePart v.micros time ∧
      text = List.intercalate [' '] (years ++ (mons ++ (days ++ time)))

/-! ## Reading parts -/

namespace SqlInterval

/-- A time leaves the other fields. -/
theorem readClock_frame (iv : SqlInterval) (cs : List Char) :
    (iv.readClock cs).signedMonths = iv.signedMonths ∧
      (iv.readClock cs).signedDays = iv.signedDays := by
  rw [readClock]
  split <;> exact ⟨rfl, rfl⟩

/-- Nothing but digits is read as a number. -/
theorem readInt_eq_none_of_letter {c : Char} (hspace : isSpace c = false)
    (hsign : c ≠ '-' ∧ c ≠ '+') (hdigit : c.isDigit = false) (cs : List Char) :
    readInt (c :: cs) = none := by
  obtain ⟨hskip, hminus, hplus⟩ := head_of_plain ⟨hspace, hsign⟩ cs
  rw [readInt, hskip]
  simp only [hminus, hplus, or_self, if_false,
    List.takeWhile_cons_of_neg (by rw [hdigit]; exact Bool.false_ne_true : ¬ c.isDigit = true),
    List.isEmpty_nil, true_or, if_true]

/-- A number before a word is no year and month. -/
theorem fromUnsigned_word (isNegative : Bool) (n : ℕ) {c d : Char} (hc : isSpace c = false)
    (hd : isSpace d = false) (hsign : d ≠ '-' ∧ d ≠ '+') (hdigit : d.isDigit = false)
    (rest : List Char) :
    (fromUnsigned isNegative (padded 0 (decimal n) ++ ' ' :: c :: d :: rest)).signedMonths = 0 := by
  have hzero : signed isNegative 0 = 0 := by
    cases isNegative <;> rfl
  have hpair : readPair (padded 0 (decimal n) ++ ' ' :: c :: d :: rest) = none := by
    rw [readPair, readInt_padded_eq 0 n (stopsDigits_cons (by decide) _)]
    split_ifs
    · have hchar : readChar (' ' :: c :: d :: rest) = some (c, d :: rest) := by
        rw [readChar, List.dropWhile_cons_of_pos (by decide),
          List.dropWhile_cons_of_neg (by rw [hc]; exact Bool.false_ne_true)]
      simp only [Option.bind_eq_bind, Option.bind_some, hchar,
        readInt_eq_none_of_letter hd hsign hdigit]
      rfl
    · rfl
  rw [fromUnsigned]
  simp only [hpair]
  generalize padded 0 (decimal n) ++ ' ' :: c :: d :: rest = cs
  split_ifs
  · exact hzero
  · cases readInt cs with
    | none => exact hzero
    | some read =>
      simp only
      cases readWord read.2 with
      | none => exact hzero
      | some cs => exact (readClock_frame _ _).1.trans hzero
  · cases readInt cs with
    | none => exact hzero
    | some read =>
      simp only
      split_ifs
      · exact (readClock_frame _ _).1.trans hzero
      · exact hzero
  · exact (readClock_frame _ _).1.trans hzero
  · exact hzero

/-- A time alone. -/
theorem fromUnsigned_clock (isNegative : Bool) (hour minute second : ℕ) {fraction : List Char}
    (hmarks : ∀ c ∈ fraction, DigitOr [':', '.'] c) :
    fromUnsigned isNegative (clockText hour minute second ++ fraction) =
      readClock { isNegative } (clockText hour minute second ++ fraction) := by
  have hdigits : ∀ c ∈ clockText hour minute second ++ fraction, DigitOr [':', '.'] c :=
    digitOr_append (digitOr_clockText (by decide) _ _ _) hmarks
  have hnot {c : Char} (hc : c.isDigit = false) (hc' : c ∉ [':', '.']) :
      c ∉ clockText hour minute second ++ fraction := by
    intro h
    rcases hdigits c h with hdigit | hmark
    · rw [hc] at hdigit
      cases hdigit
    · exact hc' hmark
  have hday : ¬ "day".toList <:+: clockText hour minute second ++ fraction :=
    fun h => hnot (by decide) (by decide) (h.subset (by decide : 'd' ∈ "day".toList))
  have hcolon : ':' ∈ clockText hour minute second ++ fraction := by
    rw [clockText]
    simp only [List.mem_append, List.mem_singleton, or_true, true_or]
  rw [fromUnsigned]
  simp only [hnot (by decide : '-'.isDigit = false) (by decide), hday,
    hnot (by decide : ' '.isDigit = false) (by decide), hcolon, false_and, if_false, decide_false,
    Bool.false_eq_true, if_true]

/-- A number that cannot be read is the greatest. -/
theorem failedInt_padded (w n : ℕ) {rest : List Char} (hrest : StopsDigits rest) :
    failedInt (padded w (decimal n) ++ rest) = 2 ^ 31 - 1 := by
  obtain ⟨htake, -⟩ := takeWhile_digits (fun _ => isDigit_of_mem_padded (w := w) (n := n)) hrest
  have hne : (padded w (decimal n)).isEmpty = false :=
    List.isEmpty_eq_false_iff.mpr (padded_ne_nil w n)
  obtain ⟨c, cs, hcs, hc⟩ := exists_digit_padded w n rest
  obtain ⟨hskip, hminus, hplus⟩ := head_of_plain (of_isDigit hc) cs
  rw [← hcs] at hskip hminus hplus
  rw [failedInt]
  simp only [hskip, hminus, hplus, or_self, if_false, htake, hne, Bool.false_eq_true]

/-- Days, and a time after them. -/
theorem fromUnsigned_days (isNegative : Bool) (n : ℕ) {plural : List Char}
    (hplural : plural = [] ∨ plural = ['s']) {tail : List Char}
    (htail : tail = [] ∨ ∃ cs, tail = ' ' :: cs) :
    fromUnsigned isNegative (padded 0 (decimal n) ++ ' ' :: ("day".toList ++ plural ++ tail)) =
      if n < 2 ^ 31 then readClock { isNegative, days := .ofInt n } tail
      else { isNegative, days := .ofInt (2 ^ 31 - 1) } := by
  have hday : "day".toList <:+:
      padded 0 (decimal n) ++ ' ' :: ("day".toList ++ plural ++ tail) :=
    ⟨padded 0 (decimal n) ++ [' '], plural ++ tail, by simp⟩
  have hword : readWord (' ' :: ("day".toList ++ plural ++ tail)) = some tail := by
    have hstop : tail.dropWhile (fun c => !isSpace c) = tail := by
      rcases htail with rfl | ⟨cs, rfl⟩
      · rfl
      · exact List.dropWhile_cons_of_neg (by decide)
    rcases hplural with rfl | rfl
    · exact congrArg some hstop
    · exact congrArg some hstop
  rw [fromUnsigned]
  simp only [hday, decide_true, Bool.not_true, Bool.false_eq_true, and_false, if_false, if_true]
  rw [readInt_padded_eq 0 n (stopsDigits_cons (by decide) _)]
  by_cases hn : n < 2 ^ 31
  · simp only [if_pos hn, hword, Option.elim_some]
  · have hblank : ' '.isDigit = false := by decide
    simp only [if_neg hn, failedInt_padded 0 n (stopsDigits_cons hblank _)]

/-- The digits of a fraction are nanoseconds. -/
theorem readFraction_pgFraction {n : ℕ} {fraction : List Char} (h : PgFraction n fraction) :
    readFraction fraction = (.ofNat (n * 1000), []) ∧ StopsDigits fraction ∧
      ∀ c ∈ fraction, DigitOr [':', '.'] c := by
  cases h with
  | absent => exact ⟨rfl, stopsDigits_nil, List.forall_mem_nil _⟩
  | @written digits hdigits hlength =>
    have hread := readFraction_digits hdigits stopsDigits_nil
    rw [List.append_nil, List.take_of_length_le (by omega)] at hread
    refine ⟨?_, stopsDigits_cons (by decide) _, ?_⟩
    · rw [hread, Nat.mul_assoc, show 1000 = 10 ^ 3 from rfl, ← Nat.pow_add]
      congr 4
      omega
    · exact digitOr_cons (.inr (by decide)) fun c hc => .inl (hdigits c hc)

theorem toNat_ofInt (z : ℤ) : ((UInt32.ofInt z).toNat : ℤ) = z % 2 ^ 32 := by
  have hmod : (z % 2 ^ 32).toNat % 2 ^ 32 = (z % 2 ^ 32).toNat := by omega
  rw [UInt32.ofInt, UInt32.toNat_ofNat', hmod]
  omega

/-- The time that a signed clock is read as. Hours before zero are taken for those that `uint32_t`
counts up to. -/
theorem signedTime_readClock (iv : SqlInterval) {isNegative : Bool} {sign fraction : List Char}
    (hsign : SignText isNegative sign) {hour minute second n : ℕ} (hminute : minute < 60)
    (hsecond : second < 60) (hn : n < 1000000) (hfraction : PgFraction n fraction) :
    (iv.readClock (sign ++ (clockText hour minute second ++ fraction))).signedTime =
      if FitsInt32 (signed isNegative hour) then
        signed iv.isNegative ((((signed isNegative hour) % 2 ^ 32).toNat * 3600 + minute * 60 +
          second) * 1000000000 + n * 1000)
      else iv.signedTime := by
  obtain ⟨hread, hstop, -⟩ := readFraction_pgFraction hfraction
  rw [readClock_signed hsign hour minute second hstop iv, hread]
  have hboth : minute < 2 ^ 31 ∧ second < 2 ^ 31 := by omega
  simp only [hboth, and_true, and_self]
  split_ifs
  · have hhour := toNat_ofInt (signed isNegative hour)
    have hhour' : (UInt32.ofInt (signed isNegative hour)).toNat =
        (signed isNegative hour % 2 ^ 32).toNat := by omega
    have hminute' : (UInt32.ofInt (minute : ℤ)).toNat = minute := by
      have := toNat_ofInt (minute : ℤ)
      omega
    have hsecond' : (UInt32.ofInt (second : ℤ)).toNat = second := by
      have := toNat_ofInt (second : ℤ)
      omega
    have hnanos : (UInt32.ofNat (n * 1000)).toNat = n * 1000 :=
      UInt32.toNat_ofNat_of_lt' (Nat.lt_trans (by omega : n * 1000 < 1000000000) (by decide))
    rw [signedTime]
    simp only [hhour', hminute', hsecond', hnanos]
  · rfl

end SqlInterval

/-! ## Texts of parts -/

theorem intercalate_blank_cons (x : List Char) (xs : List (List Char)) :
    ∃ tail, List.intercalate [' '] (x :: xs) = x ++ tail ∧
      (tail = [] ∨ ∃ cs, tail = ' ' :: cs) := by
  cases xs with
  | nil => exact ⟨[], by simp [List.intercalate], .inl rfl⟩
  | cons y ys =>
    exact ⟨' ' :: List.intercalate [' '] (y :: ys), by simp [List.intercalate, List.intersperse],
      .inr ⟨_, rfl⟩⟩

/-- A part is left out where it is zero, and written with its unit otherwise. -/
theorem PgIntPart.cases {unit : List Char} {z : ℤ} {parts : List (List Char)}
    (h : PgIntPart unit z parts) :
    z = 0 ∧ parts = [] ∨ z ≠ 0 ∧ ∃ sign plural, SignText (decide (z < 0)) sign ∧
      (plural = [] ∨ plural = ['s']) ∧
      parts = [sign ++ (padded 0 (decimal z.natAbs) ++ ' ' :: (unit ++ plural))] := by
  cases h with
  | absent => exact .inl ⟨rfl, rfl⟩
  | written hz hsign hplural => exact .inr ⟨hz, _, _, hsign, hplural, rfl⟩

/-- So is the time, which is written as a clock. -/
theorem PgTimePart.cases {micros : ℤ} {parts : List (List Char)} (h : PgTimePart micros parts) :
    micros = 0 ∧ parts = [] ∨ ∃ sign fraction, SignText (decide (micros < 0)) sign ∧
      PgFraction (micros.natAbs % 1000000) fraction ∧
      parts = [sign ++ (clockText (micros.natAbs / 3600000000) (micros.natAbs / 60000000 % 60)
        (micros.natAbs / 1000000 % 60) ++ fraction)] := by
  cases h with
  | absent => exact .inl ⟨rfl, rfl⟩
  | written hsign hfraction => exact .inr ⟨_, _, hsign, hfraction, rfl⟩

/-- Years and months are read as neither. -/
theorem signedMonths_fromString {isNegative : Bool} {sign : List Char}
    (hsign : SignText isNegative sign) (n : ℕ) {unit : List Char}
    (hunit : unit = "year".toList ∨ unit = "mon".toList) (rest : List Char) :
    (SqlInterval.fromString
      (sign ++ (padded 0 (decimal n) ++ ' ' :: (unit ++ rest)))).signedMonths = 0 := by
  rw [SqlInterval.fromString_signed hsign (exists_digit_padded _ _ _)]
  rcases hunit with rfl | rfl
  · exact SqlInterval.fromUnsigned_word _ _ (by decide) (by decide) (by decide) (by decide) _
  · exact SqlInterval.fromUnsigned_word _ _ (by decide) (by decide) (by decide) (by decide) _

/-- What PostgreSQL writes without harm. -/
def PgInterval.WrittenWell (v : PgInterval) : Prop :=
  let hours := v.micros.natAbs / 3600000000
  v.months = 0 ∧ (v.days = 0 → hours < 2 ^ 31) ∧ (0 < v.days → 0 ≤ v.micros ∧ hours < 2 ^ 31) ∧
    (v.days < 0 → if v.days = -2 ^ 31 then v.micros = 86400000000
      else v.micros ≤ 0 ∧ (hours = 0 ∨ hours = 2 ^ 31))

namespace PgInterval

variable {v : PgInterval} (hmonths : v.months = 0)

include hmonths

/-- The intervals that are written well, by their days. -/
theorem writtenWell_of_zero (hdays : v.days = 0) :
    v.WrittenWell ↔ v.micros.natAbs / 3600000000 < 2 ^ 31 := by
  rw [WrittenWell]
  refine ⟨fun h => h.2.1 hdays, fun h => ⟨hmonths, fun _ => h, fun hpos => ?_, fun hneg => ?_⟩⟩
  · omega
  · omega

theorem writtenWell_of_pos (hdays : 0 < v.days) :
    v.WrittenWell ↔ 0 ≤ v.micros ∧ v.micros.natAbs / 3600000000 < 2 ^ 31 := by
  rw [WrittenWell]
  refine ⟨fun h => h.2.2.1 hdays, fun h => ⟨hmonths, fun _ => h.2, fun _ => h, fun hneg => ?_⟩⟩
  omega

theorem writtenWell_of_neg (hdays : v.days < 0) (hleast : v.days ≠ -2 ^ 31) :
    v.WrittenWell ↔ v.micros ≤ 0 ∧ (v.micros.natAbs / 3600000000 = 0 ∨
      v.micros.natAbs / 3600000000 = 2 ^ 31) := by
  rw [WrittenWell, if_neg hleast]
  refine ⟨fun h => h.2.2.2 hdays, fun h => ⟨hmonths, fun hzero => ?_, fun hpos => ?_, fun _ => h⟩⟩
  · omega
  · omega

theorem writtenWell_of_least (hdays : v.days = -2 ^ 31) :
    v.WrittenWell ↔ v.micros = 86400000000 := by
  rw [WrittenWell, if_pos hdays]
  refine ⟨fun h => h.2.2.2 (by omega), fun h => ⟨hmonths, fun hzero => ?_, fun hpos => ?_,
    fun _ => h⟩⟩
  · omega
  · omega

end PgInterval

/-- What a time adds to the days before it, for the sign of the days and its own. -/
theorem sameLength_clock {v : PgInterval} (iv : SqlInterval) {isNegative : Bool}
    {sign fraction : List Char} (hsign : SignText isNegative sign)
    (hfraction : PgFraction (v.micros.natAbs % 1000000) fraction) :
    (iv.readClock (sign ++ (clockText (v.micros.natAbs / 3600000000)
      (v.micros.natAbs / 60000000 % 60) (v.micros.natAbs / 1000000 % 60) ++
        fraction))).SameLength v ↔
      iv.signedMonths = v.months ∧
        iv.signedDays * 86400 * 1000000000 +
          (if FitsInt32 (signed isNegative (v.micros.natAbs / 3600000000 : ℕ)) then
            signed iv.isNegative
              ((signed isNegative (v.micros.natAbs / 3600000000 : ℕ) % 2 ^ 32).toNat *
                3600000000000 + v.micros.natAbs % 3600000000 * 1000)
          else iv.signedTime) =
        v.days * 86400 * 1000000000 + v.micros * 1000 := by
  obtain ⟨hmonths, hdays⟩ := SqlInterval.readClock_frame iv (sign ++ (clockText
    (v.micros.natAbs / 3600000000) (v.micros.natAbs / 60000000 % 60)
    (v.micros.natAbs / 1000000 % 60) ++ fraction))
  have htime := @SqlInterval.signedTime_readClock iv isNegative sign fraction hsign
    (v.micros.natAbs / 3600000000) (v.micros.natAbs / 60000000 % 60)
    (v.micros.natAbs / 1000000 % 60) (v.micros.natAbs % 1000000) (by omega) (by omega) (by omega)
    hfraction
  have hsum (hours : ℕ) : (hours * 3600 + v.micros.natAbs / 60000000 % 60 * 60 +
      v.micros.natAbs / 1000000 % 60) * 1000000000 + v.micros.natAbs % 1000000 * 1000 =
      hours * 3600000000000 + v.micros.natAbs % 3600000000 * 1000 := by omega
  rw [SqlInterval.SameLength, hmonths, hdays, htime, hsum]

/-- Days without a time. -/
theorem signedParts_days (isNegative : Bool) (days : UInt32) :
    SqlInterval.signedMonths { isNegative, days } = 0 ∧
      SqlInterval.signedDays { isNegative, days } = signed isNegative days.toNat ∧
      SqlInterval.signedTime { isNegative, days } = 0 := by
  have hzero : signed isNegative 0 = 0 := by
    cases isNegative <;> rfl
  refine ⟨hzero, rfl, ?_⟩
  rw [SqlInterval.signedTime]
  simp only [UInt32.toNat_zero, Nat.zero_mul, Nat.add_zero, hzero]

theorem signed_true (n : ℕ) : signed true n = -n := by
  rw [signed, if_pos rfl]

theorem signed_false (n : ℕ) : signed false n = n := by
  rw [signed, if_neg Bool.false_ne_true]

/-- The time after days is read with their sign. Before zero it has to be before zero itself, with
hours that are the same number before and after zero; otherwise `int` has to hold its hours. -/
theorem sameTime_iff (b : Bool) (days micros : ℤ) :
    days * 86400 * 1000000000 +
        (if FitsInt32 (signed (decide (micros < 0)) (micros.natAbs / 3600000000)) then
          signed b ((signed (decide (micros < 0)) (micros.natAbs / 3600000000) % 2 ^ 32).toNat *
            3600000000000 + micros.natAbs % 3600000000 * 1000)
        else 0) = days * 86400 * 1000000000 + micros * 1000 ↔
      if b then micros ≤ 0 ∧
        (micros.natAbs / 3600000000 = 0 ∨ micros.natAbs / 3600000000 = 2 ^ 31)
      else 0 ≤ micros ∧ micros.natAbs / 3600000000 < 2 ^ 31 := by
  by_cases hneg : micros < 0
  · have habs : micros = -(micros.natAbs : ℤ) := by omega
    rw [decide_eq_true hneg, signed_true]
    simp only [FitsInt32]
    generalize micros.natAbs = n at habs
    cases b
    · rw [signed_false, if_neg Bool.false_ne_true]
      split_ifs with hfits <;> omega
    · rw [signed_true, if_pos rfl]
      split_ifs with hfits <;> omega
  · have habs : micros = (micros.natAbs : ℤ) := by omega
    rw [decide_eq_false hneg, signed_false]
    simp only [FitsInt32]
    generalize micros.natAbs = n at habs
    cases b
    · rw [signed_false, if_neg Bool.false_ne_true]
      split_ifs with hfits <;> omega
    · rw [signed_true, if_pos rfl]
      split_ifs with hfits <;> omega

/-- An interval without months. -/
theorem sameLength_daysTime {v : PgInterval} (hmonths : v.months = 0)
    {days time : List (List Char)} (hdays : PgIntPart "day".toList v.days days)
    (htime : PgTimePart v.micros time) :
    (SqlInterval.fromString (List.intercalate [' '] (days ++ time))).SameLength v ↔
      v.WrittenWell := by
  obtain ⟨hlow, hhigh⟩ := v.days_fits
  rcases hdays.cases with ⟨hday, rfl⟩ | ⟨hday, sign, plural, hsign, hplural, rfl⟩
  · rcases htime.cases with ⟨hzero, rfl⟩ | ⟨sign, fraction, hsign, hfraction, rfl⟩
    · -- nothing at all
      have hempty : SqlInterval.fromString (List.intercalate [' '] ([] ++ [])) = {} := rfl
      rw [hempty, SqlInterval.SameLength, PgInterval.writtenWell_of_zero hmonths hday, hmonths,
        hday, hzero]
      decide
    · -- a time
      obtain ⟨-, -, hmarks⟩ := SqlInterval.readFraction_pgFraction hfraction
      have hclock := sameLength_clock { isNegative := decide (v.micros < 0) } .none hfraction
      have htext (x : List Char) : List.intercalate [' '] ([] ++ [x]) = x := by
        simp [List.intercalate]
      have hhead : ∃ c ds, clockText (v.micros.natAbs / 3600000000)
          (v.micros.natAbs / 60000000 % 60) (v.micros.natAbs / 1000000 % 60) ++ fraction =
            c :: ds ∧ c.isDigit = true := by
        rw [clockText]
        simp only [List.append_assoc]
        exact exists_digit_padded _ _ _
      obtain ⟨hsignedMonths, hsignedDays, hsignedTime⟩ :=
        signedParts_days (decide (v.micros < 0)) 0
      rw [htext, SqlInterval.fromString_signed hsign hhead,
        SqlInterval.fromUnsigned_clock _ _ _ _ hmarks]
      rw [List.nil_append] at hclock
      rw [hclock, hsignedMonths, hsignedDays, hsignedTime,
        PgInterval.writtenWell_of_zero hmonths hday, hmonths, hday]
      simp only [signed_false, FitsInt32, UInt32.toNat_zero, true_and]
      by_cases hneg : v.micros < 0
      · have habs : v.micros = -(v.micros.natAbs : ℤ) := by omega
        simp only [hneg, decide_true, signed_true]
        generalize v.micros.natAbs = micros at habs
        split_ifs with hfits <;> omega
      · have habs : v.micros = (v.micros.natAbs : ℤ) := by omega
        simp only [hneg, decide_false, signed_false]
        generalize v.micros.natAbs = micros at habs
        split_ifs with hfits <;> omega
  · have hhead := exists_digit_padded 0 v.days.natAbs
    have hdaysNat : (UInt32.ofInt (v.days.natAbs : ℤ)).toNat = v.days.natAbs := by
      have := SqlInterval.toNat_ofInt (v.days.natAbs : ℤ)
      omega
    have hdaysSigned : signed (decide (v.days < 0)) v.days.natAbs = v.days := by
      by_cases hneg : v.days < 0
      · rw [decide_eq_true hneg, signed_true]
        omega
      · rw [decide_eq_false hneg, signed_false]
        omega
    have hleastNat : (UInt32.ofInt (2 ^ 31 - 1)).toNat = 2147483647 := by decide
    rcases htime.cases with ⟨hzero, rfl⟩ | ⟨sign', fraction, hsign', hfraction, rfl⟩
    · -- days
      have hnil : ∀ iv : SqlInterval, iv.readClock [] = iv := fun _ => rfl
      have htext : List.intercalate [' '] ([sign ++ (padded 0 (decimal v.days.natAbs) ++
          ' ' :: ("day".toList ++ plural))] ++ []) =
            sign ++ (padded 0 (decimal v.days.natAbs) ++
              ' ' :: ("day".toList ++ plural ++ [])) := by
        simp [List.intercalate]
      rw [htext, SqlInterval.fromString_signed hsign (hhead _),
        SqlInterval.fromUnsigned_days _ _ hplural (.inl rfl), hnil]
      by_cases hfits : v.days.natAbs < 2 ^ 31
      · obtain ⟨hsignedMonths, hsignedDays, hsignedTime⟩ :=
          signedParts_days (decide (v.days < 0)) (.ofInt v.days.natAbs)
        rw [if_pos hfits, SqlInterval.SameLength, hsignedMonths, hsignedDays, hsignedTime, hmonths,
          hdaysNat, hzero, hdaysSigned]
        refine iff_of_true ⟨rfl, by omega⟩ ?_
        rcases lt_or_gt_of_ne hday with hneg | hpos
        · rw [PgInterval.writtenWell_of_neg hmonths hneg (by omega), hzero]
          decide
        · rw [PgInterval.writtenWell_of_pos hmonths hpos, hzero]
          decide
      · -- the least number of days is no `int` without its sign
        obtain ⟨hsignedMonths, hsignedDays, hsignedTime⟩ :=
          signedParts_days (decide (v.days < 0)) (.ofInt (2 ^ 31 - 1))
        have hleast : v.days = -2 ^ 31 := by omega
        rw [if_neg hfits, SqlInterval.SameLength, hsignedMonths, hsignedDays, hsignedTime, hmonths,
          hleastNat, PgInterval.writtenWell_of_least hmonths hleast, hzero, hleast,
          decide_eq_true (by decide), signed_true]
        decide
    · -- days and a time
      have htext : List.intercalate [' '] ([sign ++ (padded 0 (decimal v.days.natAbs) ++
          ' ' :: ("day".toList ++ plural))] ++ [sign' ++ (clockText (v.micros.natAbs / 3600000000)
            (v.micros.natAbs / 60000000 % 60) (v.micros.natAbs / 1000000 % 60) ++ fraction)]) =
            sign ++ (padded 0 (decimal v.days.natAbs) ++ ' ' :: ("day".toList ++ plural ++ ' ' ::
              (sign' ++ (clockText (v.micros.natAbs / 3600000000)
                (v.micros.natAbs / 60000000 % 60) (v.micros.natAbs / 1000000 % 60) ++
                  fraction)))) := by
        simp [List.intercalate, List.intersperse]
      have hskip : ∀ (iv : SqlInterval) cs, iv.readClock (' ' :: cs) = iv.readClock cs :=
        fun _ _ => rfl
      rw [htext, SqlInterval.fromString_signed hsign (hhead _),
        SqlInterval.fromUnsigned_days _ _ hplural (.inr ⟨_, rfl⟩), hskip]
      by_cases hfits : v.days.natAbs < 2 ^ 31
      · obtain ⟨hsignedMonths, hsignedDays, hsignedTime⟩ :=
          signedParts_days (decide (v.days < 0)) (.ofInt v.days.natAbs)
        rw [if_pos hfits, sameLength_clock _ hsign' hfraction, hsignedMonths, hsignedDays,
          hsignedTime, hmonths, hdaysNat, hdaysSigned, and_iff_right rfl]
        rcases lt_or_gt_of_ne hday with hneg | hpos
        · rw [PgInterval.writtenWell_of_neg hmonths hneg (by omega), decide_eq_true hneg]
          exact sameTime_iff true _ _
        · rw [PgInterval.writtenWell_of_pos hmonths hpos, decide_eq_false (by omega : ¬ v.days < 0)]
          exact sameTime_iff false _ _
      · obtain ⟨hsignedMonths, hsignedDays, hsignedTime⟩ :=
          signedParts_days (decide (v.days < 0)) (.ofInt (2 ^ 31 - 1))
        have hleast : v.days = -2 ^ 31 := by omega
        rw [if_neg hfits, SqlInterval.SameLength, hsignedMonths, hsignedDays, hsignedTime, hmonths,
          hleastNat, PgInterval.writtenWell_of_least hmonths hleast, hleast,
          decide_eq_true (by decide), signed_true, and_iff_right rfl]
        omega

/-- What `from_string` makes of what PostgreSQL writes. -/
theorem sameLength_fromString_iff {v : PgInterval} {text : List Char} (h : PgWrites v text) :
    (SqlInterval.fromString text).SameLength v ↔ v.WrittenWell := by
  obtain ⟨years, mons, days, time, hyears, hmons, hdays, htime, rfl⟩ := h
  have hmonths := Int.mul_tdiv_add_tmod v.months 12
  rcases hyears.cases with ⟨hyear, rfl⟩ | ⟨hyear, sign, plural, hsign, -, rfl⟩
  · rcases hmons.cases with ⟨hmon, rfl⟩ | ⟨hmon, sign, plural, hsign, -, rfl⟩
    · rw [List.nil_append, List.nil_append]
      exact sameLength_daysTime (by omega) hdays htime
    · obtain ⟨tail, htail, -⟩ := intercalate_blank_cons
        (sign ++ (padded 0 (decimal (v.months.tmod 12).natAbs) ++ ' ' ::
          ("mon".toList ++ plural))) (days ++ time)
      have hzero := signedMonths_fromString hsign (v.months.tmod 12).natAbs (.inr rfl)
        (plural ++ tail)
      refine iff_of_false (fun hsame => hmon ?_) fun hwell => hmon ?_
      · have htext := hsame.1
        rw [List.nil_append, List.singleton_append, htail] at htext
        simp only [List.append_assoc, List.cons_append] at htext hzero
        rw [hzero] at htext
        rw [← htext, Int.zero_tmod]
      · rw [hwell.1, Int.zero_tmod]
  · obtain ⟨tail, htail, -⟩ := intercalate_blank_cons
      (sign ++ (padded 0 (decimal (v.months.tdiv 12).natAbs) ++ ' ' ::
        ("year".toList ++ plural))) (mons ++ (days ++ time))
    have hzero := signedMonths_fromString hsign (v.months.tdiv 12).natAbs (.inl rfl)
      (plural ++ tail)
    refine iff_of_false (fun hsame => hyear ?_) fun hwell => hyear ?_
    · have htext := hsame.1
      rw [List.singleton_append, htail] at htext
      simp only [List.append_assoc, List.cons_append] at htext hzero
      rw [hzero] at htext
      rw [← htext, Int.zero_tdiv]
    · rw [hwell.1, Int.zero_tdiv]

/-- Intervals keep their months, days and time on PostgreSQL when it accepts their text, their
fraction is in whole microseconds, and no time stands behind a minus sign. What PostgreSQL writes
keeps its months and its length when it is written well. -/
theorem pgIntervals_iff {reads : List Char → Option PgInterval} (hreads : PgReads reads)
    (y m d h mi s frac : UInt32) (negative : Bool) :
    let ym := SqlInterval.fromYearMonth y m negative
    let ds := SqlInterval.fromDaySecond d h mi s frac negative
    ((∃ v, reads ym.text = some v ∧ ym.SameParts v) ↔ (reads ym.text).isSome) ∧
    ((∃ v, reads ds.text = some v ∧ ds.SameParts v) ↔ (reads ds.text).isSome ∧
      frac.toNat < 10 ^ 9 ∧ frac.toNat % 1000 = 0 ∧
      (negative = true → h = 0 ∧ mi = 0 ∧ s = 0 ∧ frac = 0)) ∧
    (y.toNat ≤ 178000000 → m.toNat < 12 → (reads ym.text).isSome) ∧
    (d.toNat < 2 ^ 31 → h.toNat < 24 → mi.toNat < 60 → s.toNat < 60 → frac.toNat < 10 ^ 9 →
      (reads ds.text).isSome) ∧
    ∀ v text, PgWrites v text → ((SqlInterval.fromString text).SameLength v ↔ v.WrittenWell) := by
  intro ym ds
  have hymText := SqlInterval.text_fromYearMonth y m negative
  have hdsText : ds.text = _ := SqlInterval.text_fromDaySecond d h mi s frac negative
  rw [SqlInterval.daySecondText] at hdsText
  refine ⟨?_, ?_, ?_, ?_, fun v text => sameLength_fromString_iff⟩
  · constructor
    · rintro ⟨v, hv, -⟩
      rw [hv]
      rfl
    · intro hsome
      obtain ⟨v, hv⟩ := Option.isSome_iff_exists.mp hsome
      obtain ⟨hmonths, hdays, hmicros⟩ :=
        hreads.yearMonth negative y.toNat m.toNat v (hymText ▸ hv)
      have hzero : signed negative 0 = 0 := by
        cases negative <;> rfl
      refine ⟨v, hv, hmonths, hdays.trans hzero.symm, ?_⟩
      rw [hmicros, SqlInterval.signedTime]
      simp only [ym, SqlInterval.fromYearMonth, UInt32.toNat_zero, Nat.zero_mul, Nat.add_zero,
        hzero]
      decide
  · have htime : ds.signedTime = signed negative ((h.toNat * 3600 + mi.toNat * 60 + s.toNat) *
      1000000000 + frac.toNat) := rfl
    have hread (v : PgInterval) (hv : reads ds.text = some v) :=
      hreads.daySecond negative d.toNat h.toNat mi.toNat s.toNat frac v (hdsText ▸ hv)
    have hnone : (h = 0 ∧ mi = 0 ∧ s = 0 ∧ frac = 0) ↔
        h.toNat = 0 ∧ mi.toNat = 0 ∧ s.toNat = 0 ∧ frac.toNat = 0 := by
      simp only [← UInt32.toNat_inj, UInt32.toNat_zero]
    rw [hnone]
    constructor
    · rintro ⟨v, hv, -, -, hmicros⟩
      obtain ⟨-, -, hlow, hwhole, hhigh⟩ := hread v hv
      have hsome : (reads ds.text).isSome := by
        rw [hv]
        rfl
      rw [htime] at hmicros
      cases negative with
      | false =>
        rw [signed_false] at hmicros
        have hfrac : frac.toNat < 10 ^ 9 := by
          by_contra hfrac
          have hle := hhigh (Nat.not_lt.mp hfrac)
          omega
        exact ⟨hsome, hfrac, by omega, fun hneg => absurd hneg Bool.false_ne_true⟩
      | true =>
        rw [signed_true] at hmicros
        exact ⟨hsome, by omega, by omega, fun _ => by omega⟩
    · rintro ⟨hsome, hfrac, hmod, hminus⟩
      obtain ⟨v, hv⟩ := Option.isSome_iff_exists.mp hsome
      obtain ⟨hmonths, hdays, -, hmicros, -⟩ := hread v hv
      have hzero : signed negative 0 = 0 := by
        cases negative <;> rfl
      refine ⟨v, hv, hmonths.trans hzero.symm, hdays, ?_⟩
      rw [htime, hmicros hfrac hmod]
      cases negative with
      | false =>
        rw [signed_false]
        omega
      | true =>
        obtain ⟨hh, hmi, hs, hzeroFrac⟩ := hminus rfl
        rw [signed_true, hh, hmi, hs, hzeroFrac]
        decide
  · exact fun hy hm => hymText ▸ hreads.accepts_yearMonth negative y.toNat m.toNat hy hm
  · exact fun hd hh hmi hs hfrac => hdsText ▸
      hreads.accepts_daySecond negative d.toNat h.toNat mi.toNat s.toNat frac hfrac hd hh hmi hs

/-! ## A reader -/

/-- An interval within bounds. -/
def PgInterval.ofParts (months days micros : ℤ) : Option PgInterval :=
  if h : FitsInt32 months ∧ FitsInt32 days ∧ -2 ^ 63 ≤ micros ∧ micros < 2 ^ 63 then
    some ⟨months, days, micros, h.1, h.2.1, h.2.2⟩
  else none

/-- A reader of the two texts of `to_string`, in which a sign belongs to the first field. -/
def pgRead (cs : List Char) : Option PgInterval :=
  let isNegative : Bool := cs.head? = some '-'
  let s := if isNegative then cs.tail else cs
  let n := digitsValue (s.takeWhile Char.isDigit)
  match s.dropWhile Char.isDigit with
  | '-' :: rest =>
    PgInterval.ofParts (signed isNegative (12 * n + digitsValue (rest.takeWhile Char.isDigit))) 0 0
  | ' ' :: rest =>
    match readTriple rest with
    | some (h, mi, sec, rest) =>
      PgInterval.ofParts 0 (signed isNegative n)
        ((h * 3600 + mi * 60 + sec) * 1000000 + (readFraction rest).1.toNat / 1000)
    | none => none
  | _ => none

/-- An interval within its bounds has the parts that it was made of. -/
theorem PgInterval.ofParts_eq_some {months days micros : ℤ} {v : PgInterval}
    (h : ofParts months days micros = some v) :
    v.months = months ∧ v.days = days ∧ v.micros = micros := by
  rw [ofParts] at h
  split_ifs at h
  cases h
  exact ⟨rfl, rfl, rfl⟩

theorem PgInterval.isSome_ofParts {months days micros : ℤ}
    (h : FitsInt32 months ∧ FitsInt32 days ∧ -2 ^ 63 ≤ micros ∧ micros < 2 ^ 63) :
    (ofParts months days micros).isSome := by
  rw [ofParts, dif_pos h]
  rfl

/-- The sign and the first number. -/
theorem pgRead_signed (isNegative : Bool) (n : ℕ) {rest : List Char} (hrest : StopsDigits rest) :
    ∃ s, (if isNegative then ['-'] else []) ++ (padded 0 (decimal n) ++ rest) = s ∧
      decide (s.head? = some '-') = isNegative ∧
      (if isNegative = true then s.tail else s).takeWhile Char.isDigit = padded 0 (decimal n) ∧
      (if isNegative = true then s.tail else s).dropWhile Char.isDigit = rest := by
  obtain ⟨htake, hdrop⟩ := takeWhile_digits (fun _ => isDigit_of_mem_padded (w := 0) (n := n)) hrest
  obtain ⟨c, cs, hcs, hc⟩ := exists_digit_padded 0 n rest
  obtain ⟨-, hminus, -⟩ := of_isDigit hc
  refine ⟨_, rfl, ?_⟩
  cases isNegative with
  | false =>
    refine ⟨?_, htake, hdrop⟩
    rw [if_neg Bool.false_ne_true, List.nil_append, hcs, List.head?_cons]
    exact decide_eq_false fun h => hminus (Option.some.inj h)
  | true => exact ⟨rfl, htake, hdrop⟩

/-- The two forms of a text are read as PostgreSQL documents it. -/
theorem pgRead_yearMonth (isNegative : Bool) (y m : ℕ) :
    pgRead ((if isNegative then ['-'] else []) ++
      (padded 0 (decimal y) ++ '-' :: padded 0 (decimal m))) =
        PgInterval.ofParts (signed isNegative (12 * y + m)) 0 0 := by
  obtain ⟨s, hs, hnegative, htake, hdrop⟩ := pgRead_signed isNegative y
    (stopsDigits_cons dash_separates.2 (padded 0 (decimal m)))
  have hm := (takeWhile_digits (fun _ => isDigit_of_mem_padded (w := 0) (n := m))
    stopsDigits_nil).1
  rw [List.append_nil] at hm
  rw [hs, pgRead]
  simp only [hnegative, htake, hdrop, digitsValue_padded, hm]

/-- Ten digits are cut to nine. -/
theorem readFraction_tenDigits {f : UInt32} (hf : 10 ^ 9 ≤ f.toNat) :
    readFraction (fractionText f) = (.ofNat (f.toNat / 10), []) := by
  have hdigits : AllDigits (padded 9 (decimal f.toNat)) := fun _ => isDigit_of_mem_padded
  have hvalue := digitsValue_padded 9 f.toNat
  have hlength : (padded 9 (decimal f.toNat)).length = 10 := by
    have hle := Nat.toDigits_length 10 f.toNat 10 (by decide)
      (Nat.lt_trans f.toNat_lt (by decide))
    have hlt := digitsValue_lt_pow hdigits
    have hge : ¬ (padded 9 (decimal f.toNat)).length ≤ 9 := by
      intro hshort
      have hpow : 10 ^ (padded 9 (decimal f.toNat)).length ≤ 10 ^ 9 :=
        Nat.pow_le_pow_right (by decide) hshort
      omega
    rw [padded, List.length_append, List.length_replicate, decimal] at *
    omega
  have hlast : digitsValue ((padded 9 (decimal f.toNat)).drop 9) < 10 ^ 1 := by
    have hlt := digitsValue_lt_pow fun c hc =>
      hdigits c (List.mem_of_mem_drop (i := 9) hc)
    rwa [List.length_drop, hlength] at hlt
  rw [← List.take_append_drop 9 (padded 9 (decimal f.toNat)), digitsValue_append, List.length_drop,
    hlength] at hvalue
  have htext : fractionText f = '.' :: padded 9 (decimal f.toNat) := by
    rw [fractionText, if_pos (UInt32.lt_iff_toNat_lt.mpr (Nat.lt_of_lt_of_le (by decide) hf))]
  have hread := readFraction_digits hdigits stopsDigits_nil
  rw [List.append_nil, hlength] at hread
  rw [htext, hread]
  congr 2
  omega

/-- The nanoseconds that are read from a fraction. -/
theorem readFraction_fractionText_cases (f : UInt32) :
    ∃ nanos : UInt32, readFraction (fractionText f) = (nanos, []) ∧
      (f.toNat < 10 ^ 9 → nanos = f) ∧ (10 ^ 9 ≤ f.toNat → nanos.toNat = f.toNat / 10) := by
  by_cases hf : f.toNat < 10 ^ 9
  · have hread := readFraction_fractionText hf stopsDigits_nil (by decide)
    rw [List.append_nil] at hread
    exact ⟨f, hread, fun _ => rfl, fun hge => absurd hf (Nat.not_lt.mpr hge)⟩
  · refine ⟨_, readFraction_tenDigits (Nat.not_lt.mp hf), fun hlt => absurd hlt hf, fun _ => ?_⟩
    exact UInt32.toNat_ofNat_of_lt' (Nat.lt_of_le_of_lt (Nat.div_le_self _ _) f.toNat_lt)

theorem pgRead_daySecond (isNegative : Bool) (d h m s : ℕ) (f : UInt32) :
    pgRead ((if isNegative then ['-'] else []) ++
      (padded 0 (decimal d) ++ ' ' :: (clockText h m s ++ fractionText f))) =
      if h < 2 ^ 31 ∧ m < 2 ^ 31 ∧ s < 2 ^ 31 then
        PgInterval.ofParts 0 (signed isNegative d)
          (((h : ℤ) * 3600 + m * 60 + s) * 1000000 + (readFraction (fractionText f)).1.toNat / 1000)
      else none := by
  obtain ⟨cs, hcs, hnegative, htake, hdrop⟩ := pgRead_signed isNegative d
    (stopsDigits_cons (by decide : ' '.isDigit = false) (clockText h m s ++ fractionText f))
  have hstop := stopsDigits_fractionText f stopsDigits_nil
  rw [List.append_nil] at hstop
  have htriple := readTriple_signed .none h m s hstop
  rw [List.nil_append, if_congr (and_congr_left' fitsInt32_natCast) rfl rfl] at htriple
  rw [hcs, pgRead]
  simp only [hnegative, htake, hdrop, digitsValue_padded, htriple]
  by_cases hfits : h < 2 ^ 31 ∧ m < 2 ^ 31 ∧ s < 2 ^ 31
  · simp only [if_pos hfits, signed_false]
  · simp only [if_neg hfits]

/-- The concrete reading is such a reading. -/
theorem pgReads_pgRead : PgReads pgRead where
  yearMonth isNegative y m v hv := by
    rw [pgRead_yearMonth] at hv
    exact PgInterval.ofParts_eq_some hv
  daySecond isNegative d h m s f v hv := by
    obtain ⟨nanos, hnanos, hnine, hten⟩ := readFraction_fractionText_cases f
    rw [pgRead_daySecond, hnanos] at hv
    split_ifs at hv
    obtain ⟨hmonths, hdays, hmicros⟩ := PgInterval.ofParts_eq_some hv
    refine ⟨hmonths, hdays, by omega, fun hf _ => ?_, fun hf => ?_⟩
    · rw [hmicros, hnine hf]
    · rw [hmicros, hten hf]
      omega
  accepts_yearMonth isNegative y m hy hm := by
    rw [pgRead_yearMonth]
    refine PgInterval.isSome_ofParts ⟨?_, by decide, by decide, by decide⟩
    rw [FitsInt32]
    cases isNegative
    · rw [signed_false]
      omega
    · rw [signed_true]
      omega
  accepts_daySecond isNegative d h m s f hf hd hh hm hs := by
    obtain ⟨nanos, hnanos, hnine, -⟩ := readFraction_fractionText_cases f
    rw [pgRead_daySecond, hnanos, if_pos ⟨by omega, by omega, by omega⟩, hnine hf]
    refine PgInterval.isSome_ofParts ⟨by decide, ?_, ?_⟩
    rotate_left
    · simp only
      omega
    rw [FitsInt32]
    cases isNegative
    · rw [signed_false]
      omega
    · rw [signed_true]
      omega

/-- Fourteen months before zero, and a day with a time. -/
theorem pgIntervals_iff_short :
    (∃ v, pgRead (SqlInterval.fromYearMonth 1 2 true).text = some v ∧
      (SqlInterval.fromYearMonth 1 2 true).SameParts v) ∧
    ∃ v, pgRead (SqlInterval.fromDaySecond 1 2 3 4 0 false).text = some v ∧
      (SqlInterval.fromDaySecond 1 2 3 4 0 false).SameParts v :=
  have h := pgIntervals_iff pgReads_pgRead 1 2 1 2 3 4 0
  ⟨(h true).1.mpr ((h true).2.2.1 (by decide) (by decide)),
    (h false).2.1.mpr ⟨(h false).2.2.2.1 (by decide) (by decide) (by decide) (by decide)
      (by decide), by decide, by decide, fun hneg => absurd hneg Bool.false_ne_true⟩⟩

/-- A day and two hours before zero are read as a day before zero and two hours after, and a month
is read as nothing. -/
theorem not_sameParts_negative :
    (¬ ∃ v, pgRead (SqlInterval.fromDaySecond 1 2 0 0 0 true).text = some v ∧
      (SqlInterval.fromDaySecond 1 2 0 0 0 true).SameParts v) ∧
    ∃ v, PgWrites v "1 mon".toList ∧ ¬ (SqlInterval.fromString "1 mon".toList).SameLength v := by
  constructor
  · rintro ⟨v, hv, -, -, htime⟩
    have hread := pgReads_pgRead.daySecond true 1 2 0 0 0 v hv
    rw [hread.2.2.2.1 (by decide) (by decide)] at htime
    exact absurd htime (by decide)
  · refine ⟨⟨1, 0, 0, by decide, by decide, by decide⟩, ?_, fun h => absurd h.1 (by decide)⟩
    have hmon : PgIntPart "mon".toList 1 ["1 mon".toList] :=
      @PgIntPart.written _ 1 [] [] (by decide) .none (.inl rfl)
    exact ⟨[], ["1 mon".toList], [], [], .absent, hmon, .absent, .absent, rfl⟩

end CppLinq
