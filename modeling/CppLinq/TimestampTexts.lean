import CppLinq.DigitStrings
import Mathlib.Algebra.Order.Group.Int

/-!
# Timestamps in ISO 8601

`SqlTimestamp::from_string` reads a date and a time with any fraction, and an offset from UTC
after it. An offset is written with a colon, without, or as hours alone. The last two are read as
one number, which is split when it has three digits or more.
-/

namespace CppLinq

/-- The parts of a date-time text, two digits each, four for the year. -/
structure DateTimeText where
  year : ℕ
  month : ℕ
  day : ℕ
  hour : ℕ
  minute : ℕ
  second : ℕ
  fraction : Option (List Char)
  year_lt : year < 10000
  month_lt : month < 100
  day_lt : day < 100
  hour_lt : hour < 100
  minute_lt : minute < 100
  second_lt : second < 100
  fraction_digits : ∀ digits ∈ fraction, AllDigits digits

namespace DateTimeText

variable (t : DateTimeText)

/-- The digits after the point, if there is one. -/
def fractionChars : List Char :=
  t.fraction.elim [] ('.' :: ·)

/-- `YYYY-MM-DD`, a separator and `hh:mm:ss[.f]`. -/
def chars (sep : Char) : List Char :=
  padded 4 (decimal t.year) ++ '-' :: (padded 2 (decimal t.month) ++ '-' ::
    (padded 2 (decimal t.day) ++ sep :: (clockText t.hour t.minute t.second ++ t.fractionChars)))

/-- The first nine digits of the fraction, in nanoseconds. -/
def nanoseconds : ℕ :=
  t.fraction.elim 0 fun digits => digitsValue (digits.take 9) * 10 ^ (9 - digits.length)

/-- The timestamp of a text without an offset. -/
def value : SqlTimestamp where
  year := .ofNat t.year
  month := .ofNat t.month
  day := .ofNat t.day
  hour := .ofNat t.hour
  minute := .ofNat t.minute
  second := .ofNat t.second
  fraction := .ofNat t.nanoseconds

end DateTimeText

/-- The three forms of an offset. -/
inductive OffsetForm
  | colon
  | compact
  | hourOnly
  deriving DecidableEq

/-- An offset from UTC, less than a day. -/
structure OffsetText where
  form : OffsetForm
  isNegative : Bool
  hours : ℕ
  minutes : ℕ
  hours_lt : hours < 24
  minutes_lt : minutes < 60
  minutes_eq : form = .hourOnly → minutes = 0

namespace OffsetText

/-- `+hh:mm`, `+hhmm` or `+hh`. -/
def chars (o : OffsetText) : List Char :=
  (if o.isNegative then '-' else '+') :: (padded 2 (decimal o.hours) ++
    match o.form with
    | .colon => ':' :: padded 2 (decimal o.minutes)
    | .compact => padded 2 (decimal o.minutes)
    | .hourOnly => [])

/-- The minutes of an offset. -/
def value (o : OffsetText) : ℤ :=
  (if o.isNegative then -1 else 1) * (60 * o.hours + o.minutes)

end OffsetText

/-! ## The date and the time -/

theorem map_replace_eq {cs : List Char} (h : 'T' ∉ cs) :
    cs.map (fun c => if c = 'T' then ' ' else c) = cs := by
  refine (List.map_congr_left fun c hc => ?_).trans (List.map_id _)
  rw [if_neg]
  · rfl
  · rintro rfl
    exact h hc

theorem not_isSpace_and_isDigit {c : Char} (h : isSpace c = true) : c.isDigit = false := by
  by_contra hdigit
  rw [Bool.not_eq_false] at hdigit
  rw [(of_isDigit hdigit).1] at h
  cases h

theorem byteOf_natCast {n : ℕ} (h : n < 256) : byteOf (n : ℤ) = .ofNat n := by
  rw [byteOf, Int.emod_eq_of_lt (by omega) (by omega), Int.toNat_natCast]

/-- A fraction of any number of digits is cut or filled to nine. -/
theorem readFraction_digits {digits rest : List Char} (h : AllDigits digits)
    (hrest : StopsDigits rest) :
    readFraction ('.' :: (digits ++ rest)) =
      (.ofNat (digitsValue (digits.take 9) * 10 ^ (9 - digits.length)), rest) := by
  obtain ⟨htake, hdrop⟩ := takeWhile_digits h hrest
  rw [readFraction]
  simp only [htake, hdrop]
  cases digits with
  | nil => rfl
  | cons c cs =>
    rw [List.isEmpty_cons, if_neg Bool.false_ne_true, digitsValue,
      Nat.ofDigitChars_append, Nat.ofDigitChars_replicate_zero, Nat.mul_comm]
    rfl

namespace DateTimeText

variable (t : DateTimeText) {sep : Char} {tail : List Char}

theorem readFraction_fractionChars (hstop : StopsDigits tail) (hdot : tail.head? ≠ some '.') :
    readFraction (t.fractionChars ++ tail) = (.ofNat t.nanoseconds, tail) := by
  rw [fractionChars, nanoseconds]
  cases hfraction : t.fraction with
  | none =>
    cases tail with
    | nil => rfl
    | cons c cs =>
      rw [Option.elim_none, List.nil_append, readFraction]
      · rfl
      · rintro cs' hcons
        injection hcons with hc
        exact hdot (congrArg some hc)
  | some digits => exact readFraction_digits (t.fraction_digits digits hfraction) hstop

theorem stopsDigits_fractionChars (hstop : StopsDigits tail) :
    StopsDigits (t.fractionChars ++ tail) := by
  rw [fractionChars]
  cases t.fraction with
  | none => exact hstop
  | some digits => exact stopsDigits_cons (by decide) _

/-- The date, the time and the fraction are read, and what follows is the offset. -/
theorem fromString_chars (hsep : sep = 'T' ∨ sep = ' ') (hstop : StopsDigits tail)
    (hdot : tail.head? ≠ some '.') (hletter : 'T' ∉ tail) :
    SqlTimestamp.fromString (t.chars sep ++ tail) =
      { t.value with tzOffsetMinutes := readOffset tail } := by
  have hdigits : ∀ w n, 'T' ∉ padded w (decimal n) := fun w n h =>
    absurd (isDigit_of_mem_padded h) (by decide)
  have hclockText : 'T' ∉ clockText t.hour t.minute t.second := by
    simp only [clockText, List.mem_append, List.mem_singleton, hdigits, not_or]
    decide
  have hfraction : 'T' ∉ t.fractionChars := by
    rw [fractionChars]
    cases hf : t.fraction with
    | none => exact List.not_mem_nil
    | some digits =>
      rintro (_ | ⟨_, h⟩)
      exact absurd (t.fraction_digits digits hf 'T' h) (by decide)
  have hmap : (t.chars sep ++ tail).map (fun c => if c = 'T' then ' ' else c) =
      t.chars ' ' ++ tail := by
    have hblank : (if sep = 'T' then ' ' else sep) = ' ' := by
      rcases hsep with rfl | rfl <;> rfl
    simp only [chars, List.map_append, List.map_cons, map_replace_eq (hdigits _ _),
      map_replace_eq hclockText, map_replace_eq hfraction, map_replace_eq hletter, hblank]
    rfl
  have hdate := readTriple_padded (by have := t.year_lt; omega : t.year < 2 ^ 31)
    (by have := t.month_lt; omega : t.month < 2 ^ 31) (by have := t.day_lt; omega : t.day < 2 ^ 31)
    4 2 2 dash_separates dash_separates (stopsDigits_cons (by decide : ' '.isDigit = false)
      (clockText t.hour t.minute t.second ++ (t.fractionChars ++ tail)))
  have hclock := readTriple_clock (by have := t.hour_lt; omega : t.hour < 2 ^ 31)
    (by have := t.minute_lt; omega : t.minute < 2 ^ 31)
    (by have := t.second_lt; omega : t.second < 2 ^ 31) (t.stopsDigits_fractionChars hstop)
  have hspace : ∀ cs, readTriple (' ' :: cs) = readTriple cs := fun _ => rfl
  rw [SqlTimestamp.fromString, hmap, chars]
  simp only [List.append_assoc, List.cons_append]
  rw [hdate]
  simp only [hspace, hclock, t.readFraction_fractionChars hstop hdot,
    byteOf_natCast (Nat.lt_trans t.month_lt (by decide)),
    byteOf_natCast (Nat.lt_trans t.day_lt (by decide)),
    byteOf_natCast (Nat.lt_trans t.hour_lt (by decide)),
    byteOf_natCast (Nat.lt_trans t.minute_lt (by decide)),
    byteOf_natCast (Nat.lt_trans t.second_lt (by decide))]
  rfl

end DateTimeText

/-! ## The offset -/

theorem readOffset_blanks {blanks : List Char} (h : ∀ c ∈ blanks, isSpace c = true)
    (cs : List Char) : readOffset (blanks ++ cs) = readOffset cs := by
  rw [readOffset, readOffset, List.dropWhile_append_of_pos h]

/-- Two digits are written for what has two. -/
theorem length_padded_two {n : ℕ} (h : n < 100) : (padded 2 (decimal n)).length = 2 := by
  have hle := Nat.toDigits_length 10 n 2 (by omega) h
  rw [padded, List.length_append, List.length_replicate, decimal]
  omega

namespace OffsetText

variable (o : OffsetText)

/-- What `from_string` takes for the hours and the minutes of an offset. -/
theorem readOffset_sign {cs : List Char} {h : ℤ} {rest : List Char} {hm : ℤ × ℤ}
    (hread : readInt cs = some (h, rest))
    (hsplit : offsetParts h rest = hm) :
    readOffset ((if o.isNegative then '-' else '+') :: cs) =
      .ofInt ((if o.isNegative then -1 else 1) * (hm.1 * 60 + hm.2)) := by
  cases o.isNegative with
  | false =>
    rw [readOffset, List.dropWhile_cons_of_neg (by decide)]
    simp only [hread, hsplit, Bool.false_eq_true, if_false, one_mul]
    rfl
  | true =>
    rw [readOffset, List.dropWhile_cons_of_neg (by decide)]
    simp only [hread, hsplit, if_true, neg_one_mul, Int16.ofInt_neg]
    rfl

/-- Two numbers of two digits without a mark between them are one. -/
theorem readInt_compact {a b : ℕ} (ha : a < 100) (hb : b < 100) :
    readInt (padded 2 (decimal a) ++ padded 2 (decimal b)) =
      some (((a * 100 + b : ℕ) : ℤ), []) := by
  have hdigits : ∀ c ∈ padded 2 (decimal a) ++ padded 2 (decimal b), c.isDigit = true :=
    fun c hc => (List.mem_append.mp hc).elim isDigit_of_mem_padded isDigit_of_mem_padded
  have hvalue : digitsValue (padded 2 (decimal a) ++ padded 2 (decimal b)) = a * 100 + b := by
    rw [digitsValue_append, digitsValue_padded, digitsValue_padded, length_padded_two hb]
    rfl
  have hread := readInt_digits (fun h => padded_ne_nil 2 a (List.append_eq_nil_iff.mp h).1) hdigits
    (by rw [hvalue]; omega) stopsDigits_nil
  rwa [List.append_nil, hvalue] at hread

/-- An offset is read as written, but minutes without hours and without a colon are read as
hours. -/
theorem readOffset_chars :
    readOffset o.chars =
      .ofInt ((if o.isNegative then -1 else 1) *
        if o.form = .compact ∧ o.hours = 0 then 60 * (o.minutes : ℤ)
        else 60 * o.hours + o.minutes) := by
  have hhours := o.hours_lt
  have hminutes := o.minutes_lt
  rw [chars]
  cases hform : o.form with
  | colon =>
    have hhour := readInt_padded (by omega : o.hours < 2 ^ 31) 2
      (stopsDigits_cons colon_separates.2 (padded 2 (decimal o.minutes)))
    have hminute := readInt_padded (by omega : o.minutes < 2 ^ 31) 2 stopsDigits_nil
    rw [List.append_nil] at hminute
    have hread := @readOffset_sign o _ _ _ ((o.hours : ℤ), (o.minutes : ℤ)) hhour (by
      simp only [offsetParts, List.head?_cons, if_true,
        readChar_of_not_isSpace colon_separates.1, hminute, Option.elim_some])
    rw [hread, if_neg fun h : OffsetForm.colon = .compact ∧ o.hours = 0 =>
      OffsetForm.noConfusion h.1, Int.mul_comm (o.hours : ℤ)]
  | compact =>
    have hcompact := readInt_compact (by omega : o.hours < 100) (by omega : o.minutes < 100)
    have hmark : ¬ ([] : List Char).head? = some ':' := by decide
    by_cases hzero : o.hours = 0
    · -- two digits are left of four, and they are hours
      have hlt : ¬ ((o.hours * 100 + o.minutes : ℕ) : ℤ) ≥ 100 := by omega
      have hread := @readOffset_sign o _ _ _ ((o.minutes : ℤ), 0) hcompact (by
        rw [offsetParts, if_neg hmark, if_neg hlt, hzero, Nat.zero_mul, Nat.zero_add])
      rw [hread, if_pos (⟨rfl, hzero⟩ : OffsetForm.compact = .compact ∧ o.hours = 0), add_zero,
        Int.mul_comm (o.minutes : ℤ)]
    · have hge : ((o.hours * 100 + o.minutes : ℕ) : ℤ) ≥ 100 := by omega
      have hdiv : ((o.hours * 100 + o.minutes : ℕ) : ℤ).tdiv 100 = o.hours := by
        rw [Int.tdiv_eq_ediv_of_nonneg (by omega)]
        omega
      have hmod : ((o.hours * 100 + o.minutes : ℕ) : ℤ).tmod 100 = o.minutes := by
        rw [Int.tmod_eq_emod_of_nonneg (by omega)]
        omega
      have hread := @readOffset_sign o _ _ _ ((o.hours : ℤ), (o.minutes : ℤ)) hcompact (by
        rw [offsetParts, if_neg hmark, if_pos hge, hdiv, hmod])
      rw [hread, if_neg fun h : OffsetForm.compact = .compact ∧ o.hours = 0 => hzero h.2,
        Int.mul_comm (o.hours : ℤ)]
  | hourOnly =>
    have hhour := readInt_padded (by omega : o.hours < 2 ^ 31) 2 stopsDigits_nil
    have hlt : ¬ (o.hours : ℤ) ≥ 100 := by omega
    have hmark : ¬ ([] : List Char).head? = some ':' := by decide
    have hread := @readOffset_sign o _ _ _ ((o.hours : ℤ), 0) hhour (by
      rw [offsetParts, if_neg hmark, if_neg hlt])
    rw [hread, if_neg fun h : OffsetForm.hourOnly = .compact ∧ o.hours = 0 =>
      OffsetForm.noConfusion h.1, o.minutes_eq hform, Int.mul_comm (o.hours : ℤ)]
    rfl

theorem stopsDigits_chars : StopsDigits o.chars ∧ o.chars.head? ≠ some '.' ∧ 'T' ∉ o.chars := by
  have hdigits : ∀ w n, 'T' ∉ padded w (decimal n) := fun w n h =>
    absurd (isDigit_of_mem_padded h) (by decide)
  have hsign : ∃ sign, (if o.isNegative then '-' else '+') = sign ∧
      sign.isDigit = false ∧ sign ≠ '.' ∧ 'T' ≠ sign := by
    cases o.isNegative
    · exact ⟨'+', rfl, by decide, by decide, by decide⟩
    · exact ⟨'-', rfl, by decide, by decide, by decide⟩
  obtain ⟨sign, heq, hdigit, hdot, hletter⟩ := hsign
  rw [chars, heq]
  refine ⟨stopsDigits_cons hdigit _, fun h => hdot (Option.some.inj h), ?_⟩
  cases o.form <;>
    simp only [List.mem_cons, List.mem_append, hdigits, hletter, List.not_mem_nil, or_false,
      not_false_iff, false_or]
  decide

end OffsetText

/-- A text is read with an offset as without it, and the offset is read. -/
def ReadsOffset (t : DateTimeText) (sep : Char) (blanks : List Char) (o : OffsetText) : Prop :=
  SqlTimestamp.fromString (t.chars sep) = t.value ∧
    SqlTimestamp.fromString (t.chars sep ++ (blanks ++ o.chars)) =
      { t.value with tzOffsetMinutes := .ofInt o.value }

/-- Offsets are read in every form, except minutes without hours and without a colon. -/
theorem readsOffset_iff (t : DateTimeText) {sep : Char} (hsep : sep = 'T' ∨ sep = ' ')
    {blanks : List Char} (hblanks : ∀ c ∈ blanks, isSpace c = true) (o : OffsetText) :
    ReadsOffset t sep blanks o ↔ ¬ (o.form = .compact ∧ o.hours = 0 ∧ o.minutes ≠ 0) := by
  obtain ⟨hstop, hdot, hletter⟩ := o.stopsDigits_chars
  have hwithout : SqlTimestamp.fromString (t.chars sep) = t.value := by
    have h := t.fromString_chars hsep stopsDigits_nil (by decide) List.not_mem_nil
    rwa [List.append_nil] at h
  have htail : StopsDigits (blanks ++ o.chars) ∧ (blanks ++ o.chars).head? ≠ some '.' ∧
      'T' ∉ blanks ++ o.chars := by
    refine ⟨?_, ?_, ?_⟩
    · cases blanks with
      | nil => exact hstop
      | cons c cs =>
        exact stopsDigits_cons (not_isSpace_and_isDigit (hblanks c List.mem_cons_self)) _
    · cases blanks with
      | nil => exact hdot
      | cons c cs =>
        intro h
        have hc := hblanks c List.mem_cons_self
        rw [Option.some.inj h] at hc
        exact absurd hc (by decide)
    · intro h
      rcases List.mem_append.mp h with h | h
      · exact absurd (hblanks 'T' h) (by decide)
      · exact hletter h
  rw [ReadsOffset, t.fromString_chars hsep htail.1 htail.2.1 htail.2.2, readOffset_blanks hblanks,
    o.readOffset_chars, and_iff_right hwithout]
  have hhours := o.hours_lt
  have hminutes := o.minutes_lt
  have hinj {z z' : ℤ} (hz : |z| < 4000) (hz' : |z'| < 4000) :
      Int16.ofInt z = Int16.ofInt z' ↔ z = z' := by
    rw [abs_lt] at hz hz'
    rw [← Int16.toInt_inj, Int16.toInt_ofInt_of_le (by omega) (by omega),
      Int16.toInt_ofInt_of_le (by omega) (by omega)]
  have hsign (n : ℤ) : |(if o.isNegative then -1 else 1) * n| = |n| := by
    cases o.isNegative
    · rw [if_neg Bool.false_ne_true, one_mul]
    · rw [if_pos rfl, neg_one_mul, abs_neg]
  have hne : (if o.isNegative then -1 else 1 : ℤ) ≠ 0 := by
    cases o.isNegative <;> decide
  rw [SqlTimestamp.mk.injEq, OffsetText.value]
  simp only [true_and]
  rw [hinj, mul_right_inj' hne]
  · split_ifs with h
    · simp only [h.1, h.2, true_and]
      omega
    · exact iff_of_true rfl fun h' => h ⟨h'.1, h'.2.1⟩
  · rw [hsign, abs_lt]
    split_ifs <;> omega
  · rw [hsign, abs_lt]
    omega

/-- Half past five hours, and half an hour. -/
def indianOffset : OffsetText :=
  ⟨.compact, false, 5, 30, by decide, by decide, by decide⟩

/-- Half an hour, without a colon. -/
def halfHourOffset : OffsetText :=
  ⟨.compact, false, 0, 30, by decide, by decide, by decide⟩

/-- The first second of 2024. -/
def newYearText : DateTimeText :=
  ⟨2024, 1, 1, 0, 0, 0, none, by decide, by decide, by decide, by decide, by decide, by decide,
    fun _ h => (Option.not_mem_none _ h).elim⟩

theorem readsOffset_iff_indian : ReadsOffset newYearText 'T' [] indianOffset :=
  (readsOffset_iff newYearText (.inl rfl) (fun _ h => absurd h List.not_mem_nil)
    indianOffset).mpr (by decide)

/-- `2024-01-01 00:00:00+0030` is thirty hours from UTC. -/
theorem not_readsOffset_halfHour : ¬ ReadsOffset newYearText ' ' [] halfHourOffset := by
  rintro ⟨-, h⟩
  exact absurd (congrArg SqlTimestamp.tzOffsetMinutes h) (by decide +kernel)

end CppLinq
