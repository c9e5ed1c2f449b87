import CppLinq.TimePoints

/-!
# Intervals as text

An interval is bound and read as the text of `SqlInterval::to_string`, which `from_string` tells
to be years and months or days and a time. The fields are unsigned, but read as `int`.
-/

namespace CppLinq

/-! ## Numbers out of range -/

/-- How the sign of a number may be written. -/
inductive SignText : Bool → List Char → Prop
  | minus : SignText true ['-']
  | plus : SignText false ['+']
  | none : SignText false []

/-- What `int` holds. -/
def FitsInt32 (z : ℤ) : Prop :=
  -2 ^ 31 ≤ z ∧ z < 2 ^ 31

instance (z : ℤ) : Decidable (FitsInt32 z) :=
  inferInstanceAs (Decidable (_ ∧ _))

/-- A number with its sign. -/
def signed (isNegative : Bool) (n : ℕ) : ℤ :=
  if isNegative then -n else n

theorem exists_digit_padded (w n : ℕ) (rest : List Char) :
    ∃ c ds, padded w (decimal n) ++ rest = c :: ds ∧ c.isDigit = true := by
  obtain ⟨c, cs, hcs⟩ := List.exists_cons_of_ne_nil (padded_ne_nil w n)
  exact ⟨c, cs ++ rest, by rw [hcs, List.cons_append],
    isDigit_of_mem_padded (w := w) (n := n) (hcs ▸ List.mem_cons_self)⟩

/-- A number with a sign is read when `int` holds it. -/
theorem readInt_signed {isNegative : Bool} {sign : List Char} (h : SignText isNegative sign)
    (w n : ℕ) {rest : List Char} (hrest : StopsDigits rest) :
    readInt (sign ++ (padded w (decimal n) ++ rest)) =
      if FitsInt32 (signed isNegative n) then some (signed isNegative n, rest) else none := by
  obtain ⟨htake, hdrop⟩ := takeWhile_digits (fun _ => isDigit_of_mem_padded (w := w) (n := n)) hrest
  have hne : (padded w (decimal n)).isEmpty = false :=
    List.isEmpty_eq_false_iff.mpr (padded_ne_nil w n)
  obtain ⟨c, cs, hcs, hc⟩ := exists_digit_padded w n rest
  obtain ⟨hskip, hminus, hplus⟩ := head_of_plain (of_isDigit hc) cs
  rw [← hcs] at hskip hminus hplus
  have hswap (z : ℤ) (x : ℤ × List Char) : (if False ∨ ¬ FitsInt32 z then none else some x) =
      if FitsInt32 z then some x else none := by
    by_cases hz : FitsInt32 z <;> simp [hz]
  cases h with
  | minus =>
    rw [readInt, List.cons_append, List.nil_append, List.dropWhile_cons_of_neg (by decide)]
    simp only [List.head?_cons, true_or, if_true, List.tail_cons, htake, hdrop, hne,
      digitsValue_padded, Bool.false_eq_true]
    exact hswap _ _
  | plus =>
    rw [readInt, List.cons_append, List.nil_append, List.dropWhile_cons_of_neg (by decide)]
    simp only [List.head?_cons, or_true, if_true, List.tail_cons, htake, hdrop, hne,
      digitsValue_padded, Bool.false_eq_true, if_neg (by decide : ¬ some '+' = some '-')]
    exact hswap _ _
  | none =>
    rw [readInt, List.nil_append, hskip]
    simp only [hminus, hplus, or_self, if_false, htake, hdrop, hne, digitsValue_padded,
      Bool.false_eq_true]
    exact hswap _ _

theorem fitsInt32_natCast {n : ℕ} : FitsInt32 (signed false n) ↔ n < 2 ^ 31 := by
  rw [FitsInt32, signed, if_neg Bool.false_ne_true]
  omega

theorem readInt_padded_eq (w n : ℕ) {rest : List Char} (hrest : StopsDigits rest) :
    readInt (padded w (decimal n) ++ rest) = if n < 2 ^ 31 then some ((n : ℤ), rest) else none := by
  have hread := readInt_signed .none w n hrest
  rw [List.nil_append, if_congr fitsInt32_natCast rfl rfl] at hread
  exact hread

/-- A clock is read when its numbers are. -/
theorem readTriple_signed {isNegative : Bool} {sign : List Char} (h : SignText isNegative sign)
    (hour minute second : ℕ) {rest : List Char} (hrest : StopsDigits rest) :
    readTriple (sign ++ (clockText hour minute second ++ rest)) =
      if FitsInt32 (signed isNegative hour) ∧ minute < 2 ^ 31 ∧ second < 2 ^ 31 then
        some (signed isNegative hour, (minute : ℤ), (second : ℤ), rest)
      else none := by
  have hhour := readInt_signed h 2 hour (stopsDigits_cons colon_separates.2
    (padded 2 (decimal minute) ++ ':' :: (padded 2 (decimal second) ++ rest)))
  have hminute := readInt_padded_eq 2 minute (stopsDigits_cons colon_separates.2
    (padded 2 (decimal second) ++ rest))
  have hsecond := readInt_padded_eq 2 second hrest
  rw [clockText]
  simp only [List.append_assoc, List.cons_append, List.nil_append]
  rw [readTriple, hhour]
  by_cases h1 : FitsInt32 (signed isNegative hour)
  · by_cases h2 : minute < 2 ^ 31
    · by_cases h3 : second < 2 ^ 31
      · simp only [h1, h2, h3, and_self, if_true, Option.bind_eq_bind, Option.bind_some, readPair,
          readChar_of_not_isSpace colon_separates.1, hminute, hsecond]
        rfl
      · simp only [h1, h2, h3, and_false, if_true, if_false, Option.bind_eq_bind, Option.bind_some,
          readPair, readChar_of_not_isSpace colon_separates.1, hminute, hsecond]
        rfl
    · simp only [h1, h2, false_and, and_false, if_true, if_false, Option.bind_eq_bind,
        Option.bind_some, readPair, readChar_of_not_isSpace colon_separates.1, hminute]
      rfl
  · simp only [h1, false_and, if_false]
    rfl

/-! ## Texts after the sign -/

namespace SqlInterval

/-- What `from_string` reads after the sign. -/
def fromUnsigned (isNegative : Bool) (s : List Char) : SqlInterval :=
  let iv : SqlInterval := { isNegative }
  let hasDay : Bool := "day".toList <:+: s
  if '-' ∈ s ∧ ':' ∉ s ∧ !hasDay then
    match readPair s with
    | some (y, mo, _) =>
      { iv with type := .yearToMonth, years := .ofInt y, months := .ofInt mo }
    | none => { iv with type := .yearToMonth }
  else if hasDay then
    match readInt s with
    | some (d, cs) => (readWord cs).elim { iv with days := .ofInt d } fun cs =>
      ({ iv with days := .ofInt d } : SqlInterval).readClock cs
    | none => { iv with days := .ofInt (failedInt s) }
  else if ' ' ∈ s then
    match readInt s with
    | some (d, cs) =>
      if (readTriple cs).isSome then ({ iv with days := .ofInt d } : SqlInterval).readClock cs
      else iv
    | none => iv
  else if ':' ∈ s then iv.readClock s
  else iv

/-- A sign is taken off before the rest is read. -/
theorem fromString_signed {isNegative : Bool} {sign cs : List Char} (h : SignText isNegative sign)
    (hcs : ∃ c ds, cs = c :: ds ∧ c.isDigit = true) :
    fromString (sign ++ cs) = fromUnsigned isNegative cs := by
  obtain ⟨c, ds, rfl, hc⟩ := hcs
  obtain ⟨hskip, hminus, hplus⟩ := head_of_plain (of_isDigit hc) ds
  cases h with
  | minus => rfl
  | plus => rfl
  | none =>
    have hread : fromString (c :: ds) = fromUnsigned
        (decide (((c :: ds).dropWhile isSpace).head? = some '-'))
        (if decide (((c :: ds).dropWhile isSpace).head? = some '-') = true ∨
          ((c :: ds).dropWhile isSpace).head? = some '+'
        then ((c :: ds).dropWhile isSpace).tail else (c :: ds).dropWhile isSpace) := rfl
    rw [List.nil_append, hread, hskip, decide_eq_false hminus,
      if_neg (not_or.mpr ⟨Bool.false_ne_true, hplus⟩)]

/-- A time with its fraction. -/
theorem readClock_signed {isNegative : Bool} {sign : List Char} (h : SignText isNegative sign)
    (hour minute second : ℕ) {rest : List Char} (hrest : StopsDigits rest) (iv : SqlInterval) :
    iv.readClock (sign ++ (clockText hour minute second ++ rest)) =
      if FitsInt32 (signed isNegative hour) ∧ minute < 2 ^ 31 ∧ second < 2 ^ 31 then
        { iv with
          hours := .ofInt (signed isNegative hour)
          minutes := .ofInt minute
          seconds := .ofInt second
          fraction := (readFraction rest).1 }
      else iv := by
  rw [readClock, readTriple_signed h hour minute second hrest]
  split_ifs <;> rfl

/-! ## Round trips -/

/-- `from_year_month`. -/
def fromYearMonth (y m : UInt32) (negative : Bool) : SqlInterval :=
  { type := .yearToMonth, isNegative := negative, years := y, months := m }

/-- `from_day_second`. -/
def fromDaySecond (d h m s frac : UInt32) (negative : Bool) : SqlInterval :=
  { isNegative := negative, days := d, hours := h, minutes := m, seconds := s, fraction := frac }

theorem signText_ite (isNegative : Bool) :
    SignText isNegative (if isNegative then ['-'] else []) := by
  cases isNegative
  · exact .none
  · exact .minus

theorem padded_zero (cs : List Char) : padded 0 cs = cs := by
  rw [padded, Nat.zero_sub, List.replicate_zero, List.nil_append]

theorem text_fromYearMonth (y m : UInt32) (negative : Bool) :
    (fromYearMonth y m negative).text = (if negative then ['-'] else []) ++
      (padded 0 (decimal y.toNat) ++ '-' :: padded 0 (decimal m.toNat)) := by
  have hparts : (fromYearMonth y m negative).text = (if negative then ['-'] else []) ++
      (decimal y.toNat ++ ['-'] ++ decimal m.toNat) := rfl
  rw [hparts, padded_zero, padded_zero, List.append_assoc (decimal y.toNat)]
  rfl

theorem text_fromDaySecond (d h m s frac : UInt32) (negative : Bool) :
    (fromDaySecond d h m s frac negative).text = (if negative then ['-'] else []) ++
      (fromDaySecond d h m s frac negative).daySecondText := by
  rw [text, daySecondText, padded_zero]
  simp only [fromDaySecond, List.append_assoc, List.cons_append, List.nil_append]
  rfl

theorem fromString_fromYearMonth (y m : UInt32) (negative : Bool) :
    fromString (fromYearMonth y m negative).text =
      if y.toNat < 2 ^ 31 ∧ m.toNat < 2 ^ 31 then fromYearMonth y m negative
      else fromYearMonth 0 0 negative := by
  have hdigits : ∀ c ∈ padded 0 (decimal y.toNat) ++ '-' :: padded 0 (decimal m.toNat),
      DigitOr ['-'] c :=
    digitOr_append digitOr_padded (digitOr_cons (.inr (by decide)) digitOr_padded)
  have hcolon : ':' ∉ padded 0 (decimal y.toNat) ++ '-' :: padded 0 (decimal m.toNat) := by
    intro h
    rcases hdigits _ h with h | h <;> exact absurd h (by decide)
  have hday : ¬ "day".toList <:+:
      padded 0 (decimal y.toNat) ++ '-' :: padded 0 (decimal m.toNat) := by
    intro h
    rcases hdigits _ (h.subset (by decide : 'd' ∈ "day".toList)) with h | h <;>
      exact absurd h (by decide)
  have hy := readInt_padded_eq 0 y.toNat
    (stopsDigits_cons dash_separates.2 (padded 0 (decimal m.toNat)))
  have hm := readInt_padded_eq 0 m.toNat stopsDigits_nil
  rw [List.append_nil] at hm
  rw [text_fromYearMonth, fromString_signed (signText_ite negative) (exists_digit_padded _ _ _),
    fromUnsigned]
  simp only [hcolon, hday, decide_false, Bool.not_false, not_false_iff, and_self, List.mem_append,
    List.mem_cons_self, or_true, if_true]
  rw [readPair, hy]
  by_cases h1 : y.toNat < 2 ^ 31
  · by_cases h2 : m.toNat < 2 ^ 31
    · simp only [h1, h2, and_self, if_true, Option.bind_eq_bind, Option.bind_some,
        readChar_of_not_isSpace dash_separates.1, hm]
      simp only [Option.pure_def, ofInt_toNat]
      rfl
    · simp only [h1, h2, and_false, if_true, if_false, Option.bind_eq_bind, Option.bind_some,
        readChar_of_not_isSpace dash_separates.1, hm]
      rfl
  · simp only [h1, false_and, if_false]
    rfl

theorem fromString_fromDaySecond (d h m s frac : UInt32) (negative : Bool)
    (hfrac : frac.toNat < 10 ^ 9) :
    fromString (fromDaySecond d h m s frac negative).text =
      if d.toNat < 2 ^ 31 ∧ h.toNat < 2 ^ 31 ∧ m.toNat < 2 ^ 31 ∧ s.toNat < 2 ^ 31 then
        fromDaySecond d h m s frac negative
      else fromDaySecond 0 0 0 0 0 negative := by
  obtain ⟨hdash, hletter⟩ := not_mem_daySecondText (fromDaySecond d h m s frac negative)
  have hday : ¬ "day".toList <:+: (fromDaySecond d h m s frac negative).daySecondText :=
    fun hsub => hletter (hsub.subset (by decide))
  have hstop := stopsDigits_fractionText frac stopsDigits_nil
  rw [List.append_nil] at hstop
  have hfraction := readFraction_fractionText hfrac stopsDigits_nil (by decide)
  rw [List.append_nil] at hfraction
  have hclock := readClock_signed .none h.toNat m.toNat s.toNat hstop
    ({ isNegative := negative, days := d } : SqlInterval)
  have htriple := readTriple_signed .none h.toNat m.toNat s.toNat hstop
  have hfits : FitsInt32 (signed false h.toNat) ↔ h.toNat < 2 ^ 31 := fitsInt32_natCast
  rw [List.nil_append, if_congr (and_congr_left' hfits) rfl rfl] at hclock htriple
  have hdays := readInt_padded_eq 0 d.toNat (stopsDigits_cons (by decide : ' '.isDigit = false)
    (clockText h.toNat m.toNat s.toNat ++ fractionText frac))
  have hspace : ∀ cs, readTriple (' ' :: cs) = readTriple cs := fun _ => rfl
  have hskip : ∀ (iv : SqlInterval) cs, iv.readClock (' ' :: cs) = iv.readClock cs :=
    fun _ _ => rfl
  have hhead : ∃ c ds, (fromDaySecond d h m s frac negative).daySecondText = c :: ds ∧
      c.isDigit = true := exists_digit_padded _ _ _
  have hblank : ' ' ∈ (fromDaySecond d h m s frac negative).daySecondText :=
    List.mem_append_right _ List.mem_cons_self
  rw [text_fromDaySecond, fromString_signed (signText_ite negative) hhead, fromUnsigned]
  simp only [hdash, hday, false_and, if_false, decide_false, Bool.false_eq_true, hblank, if_true]
  rw [daySecondText, fromDaySecond]
  by_cases h1 : d.toNat < 2 ^ 31
  · simp only [hdays, h1, if_true, true_and, hspace, hskip, htriple, ofInt_toNat, hclock]
    by_cases h2 : h.toNat < 2 ^ 31 ∧ m.toNat < 2 ^ 31 ∧ s.toNat < 2 ^ 31
    · simp only [if_pos h2, Option.isSome_some, if_true, hfraction, signed, Bool.false_eq_true,
        if_false, ofInt_toNat]
    · simp only [if_neg h2, Option.isSome_none, Bool.false_eq_true, if_false]
      rfl
  · simp only [hdays, h1, if_false, false_and]
    rfl

/-- An interval is read from its text exactly when `int` holds the fields that are written. -/
theorem fromString_text_iff (y m d h mi s frac : UInt32) (negative : Bool)
    (hfrac : frac.toNat < 10 ^ 9) :
    (fromString (fromYearMonth y m negative).text = fromYearMonth y m negative ↔
      y.toNat < 2 ^ 31 ∧ m.toNat < 2 ^ 31) ∧
    (fromString (fromDaySecond d h mi s frac negative).text = fromDaySecond d h mi s frac negative ↔
      d.toNat < 2 ^ 31 ∧ h.toNat < 2 ^ 31 ∧ mi.toNat < 2 ^ 31 ∧ s.toNat < 2 ^ 31) := by
  rw [fromString_fromYearMonth, fromString_fromDaySecond d h mi s frac negative hfrac]
  constructor
  · refine ⟨fun heq => ?_, fun hfields => if_pos hfields⟩
    by_contra hfields
    rw [if_neg hfields] at heq
    have hy : 0 = y := congrArg years heq
    have hm : 0 = m := congrArg months heq
    subst hy hm
    exact hfields ⟨by decide, by decide⟩
  · refine ⟨fun heq => ?_, fun hfields => if_pos hfields⟩
    by_contra hfields
    rw [if_neg hfields] at heq
    have hd : 0 = d := congrArg days heq
    have hh : 0 = h := congrArg hours heq
    have hmi : 0 = mi := congrArg minutes heq
    have hs : 0 = s := congrArg seconds heq
    subst hd hh hmi hs
    exact hfields ⟨by decide, by decide, by decide, by decide⟩

/-- An hour and a half, and fourteen months. -/
theorem fromString_text_iff_short :
    fromString (fromYearMonth 1 2 true).text = fromYearMonth 1 2 true ∧
      fromString (fromDaySecond 0 1 30 0 0 false).text = fromDaySecond 0 1 30 0 0 false :=
  have h := fromString_text_iff 1 2 0 1 30 0 0
  ⟨(h true (by decide)).1.mpr (by decide), (h false (by decide)).2.mpr (by decide)⟩

/-- Three thousand million days are read as none. -/
theorem fromString_text_ne_days :
    fromString (fromDaySecond 3000000000 0 0 0 0 false).text ≠
      fromDaySecond 3000000000 0 0 0 0 false := by
  rw [fromString_fromDaySecond _ _ _ _ _ _ (by decide), if_neg (by decide)]
  decide

end SqlInterval

end CppLinq
